namespace Resumable

inductive Status where
  | paused
  | running
  | terminated
  deriving DecidableEq, Repr

namespace Status

def name : Status → String
  | paused => "paused"
  | running => "running"
  | terminated => "terminated"

def label : Status → String
  | paused => "Paused"
  | running => "Running"
  | terminated => "Terminated"

def all : List Status :=
  [paused, running, terminated]

def ofName? (s : String) : Option Status :=
  all.find? (·.name = s)

theorem ofName?_name (s : Status) : ofName? s.name = some s := by
  cases s <;> decide

end Status

end Resumable
