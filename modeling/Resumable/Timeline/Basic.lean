import Resumable.History
import Resumable.Status

namespace Resumable

inductive StepKind where
  | yielded
  | view
  | state
  deriving DecidableEq, Repr

namespace StepKind

def name : StepKind → String
  | yielded => "yielded"
  | view => "view"
  | state => "state"

def label : StepKind → String
  | yielded => "Yielded"
  | view => "View"
  | state => "State"

def all : List StepKind :=
  [yielded, view, state]

def ofName? (s : String) : Option StepKind :=
  all.find? (·.name = s)

theorem ofName?_name (k : StepKind) : ofName? k.name = some k := by
  cases k <;> decide

end StepKind

structure TimelineEntry where
  position : Position
  kind : StepKind
  value : Option String
  deriving DecidableEq

structure Timeline where
  status : Status
  entries : List TimelineEntry
  deriving DecidableEq

namespace TimelineEntry

def ofEntry {A : Type} (position : Position) : Entry A → TimelineEntry
  | .yielded v => ⟨position, .yielded, some v.display⟩
  | .view _ => ⟨position, .view, none⟩
  | .state v => ⟨position, .state, some v.display⟩

end TimelineEntry

namespace Timeline

def ofHistory {A : Type} (h : History A) (status : Status) : Timeline :=
  ⟨status, h.mapIdx TimelineEntry.ofEntry⟩

def views (t : Timeline) : Nat :=
  t.entries.countP (·.kind = .view)

@[simp]
theorem length_ofHistory {A : Type} (h : History A) (status : Status) :
    (ofHistory h status).entries.length = h.length := by
  simp [ofHistory]

end Timeline

end Resumable
