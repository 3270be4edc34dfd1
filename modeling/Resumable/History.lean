import Resumable.Fault
import Resumable.Value.Text

namespace Resumable

inductive Entry (A : Type) where
  | yielded (value : Value)
  | view (artifact : A)
  /-- A state slot holding a value. Its setter is not recorded: whichever instance owns the
  history makes its own. -/
  | state (value : Value)

abbrev History (A : Type) := List (Entry A)

namespace Entry

variable {A : Type}

def view? : Entry A → Option A
  | view artifact => some artifact
  | _ => none

def isState : Entry A → Bool
  | state _ => true
  | _ => false

/-- Whether interpreting an effect of a kind records such an entry. -/
def recordedBy : Entry A → EffectKind → Bool
  | view _, .render => true
  | state _, .hold => true
  | yielded _, .await => true
  | yielded _, .compute => true
  | _, _ => false

def same (sameArtifact : A → A → Bool) : Entry A → Entry A → Bool
  | yielded v, yielded w => v.same w
  | view a, view b => sameArtifact a b
  | state v, state w => v.same w
  | _, _ => false

def display (displayArtifact : A → String) : Entry A → String
  | yielded v => "Step(Yielded(" ++ v.display ++ "))"
  | view a => "Step(View(" ++ displayArtifact a ++ "))"
  | state v => "Factory(State \x7b value: " ++ v.display ++ " \x7d)"

end Entry

namespace History

variable {A : Type}

def latestView? (h : History A) : Option A :=
  h.reverse.findSome? Entry.view?

def cut (h : History A) (length : Nat) : History A :=
  h.take length

/-- The history that a state setter hands on: the entries before the slot, then the slot with its
new value. -/
def forked (before : History A) (value : Value) : History A :=
  before ++ [.state value]

def same (sameArtifact : A → A → Bool) : History A → History A → Bool
  | [], [] => true
  | e :: h, f :: k => e.same sameArtifact f && same sameArtifact h k
  | _, _ => false

def display (displayArtifact : A → String) (h : History A) : String :=
  "History \x7b entries: " ++ bracketed (h.map (Entry.display displayArtifact)) ++ " \x7d"

@[simp]
theorem length_forked (before : History A) (value : Value) :
    (forked before value).length = before.length + 1 := by
  simp [forked]

@[simp]
theorem latestView?_push (h : History A) (e : Entry A) :
    latestView? (h ++ [e]) = (e.view?.or (latestView? h)) := by
  cases shown : e.view? <;> simp [latestView?, shown]

end History

end Resumable
