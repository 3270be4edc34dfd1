import Resumable.History

namespace Resumable

/-- The setter of a state slot. Firing it leaves the owner as it is and asks the owner's observers
to fork: to carry on from the entries before the slot with another value in it. -/
structure Setter (A : Type) where
  owner : Nat
  /-- The owner's entries before the slot. -/
  before : List (Entry A)

namespace Setter

variable {A : Type}

def position (s : Setter A) : Position :=
  s.before.length

def forked (s : Setter A) (value : Value) : History A :=
  History.forked s.before value

def display (s : Setter A) : String :=
  "StateSetter \x7b position: " ++ toString s.position ++ ", .. \x7d"

end Setter

structure Cell (A : Type) where
  value : Value
  setter : Setter A

inductive Resumption (A : Type) where
  | value (value : Value)
  | cell (cell : Cell A)

namespace Resumption

variable {A : Type}

/-- What recording an entry feeds to the procedure of `owner`, with `before` as the entries
recorded before it: a yielded value, a state slot with a setter of its own, and nothing after a
view. -/
def fed? (owner : Nat) (before : History A) : Entry A → Option (Resumption A)
  | .yielded v => some (.value v)
  | .view _ => none
  | .state v => some (.cell ⟨v, ⟨owner, before⟩⟩)

def next? (owner : Nat) (h : History A) : Option (Resumption A) :=
  h.getLast?.bind (fed? owner h.dropLast)

def expectValue : Option (Resumption A) → Except Fault Value
  | some (value v) => .ok v
  | some (cell _) => .error (.contract 0 .valueExpected)
  | none => .error (.contract 0 .valueMissing)

def expectCell : Option (Resumption A) → Except Fault (Cell A)
  | some (cell c) => .ok c
  | some (value v) => .error (.contract 0 (.cellExpected v.kind))
  | none => .error (.contract 0 .cellMissing)

@[simp]
theorem next?_nil (owner : Nat) : next? owner ([] : History A) = none :=
  rfl

@[simp]
theorem next?_push (owner : Nat) (h : History A) (e : Entry A) :
    next? owner (h ++ [e]) = fed? owner h e := by
  simp [next?]

end Resumption

end Resumable
