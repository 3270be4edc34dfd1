namespace Resumable

inductive EffectKind where
  | render
  | await
  | hold
  | compute
  deriving DecidableEq, Repr

namespace EffectKind

def tag : EffectKind → String
  | render => "render"
  | await => "awaitFor"
  | hold => "state"
  | compute => "compute"

def name : EffectKind → String
  | render => "render"
  | await => "await_for"
  | hold => "hold_state"
  | compute => "compute"

def all : List EffectKind :=
  [render, await, hold, compute]

def ofName? (s : String) : Option EffectKind :=
  all.find? (·.name = s)

theorem ofName?_name (k : EffectKind) : ofName? k.name = some k := by
  cases k <;> decide

end EffectKind

end Resumable
