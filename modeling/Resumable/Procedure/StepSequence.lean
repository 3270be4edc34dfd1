import Resumable.Procedure.Resumption

namespace Resumable

structure Locals (A : Type) where
  values : List (String × Value) := []
  setters : List (String × Setter A) := []

namespace Locals

variable {A : Type}

def set (l : Locals A) (name : String) (value : Value) : Locals A :=
  { l with values := (name, value) :: l.values }

def get? (l : Locals A) (name : String) : Option Value :=
  l.values.lookup name

def get (l : Locals A) (name : String) : Except Fault Value :=
  match l.get? name with
  | some value => .ok value
  | none => .error (.contract 0 (.localUnset name))

def bindCell (l : Locals A) (name : String) (cell : Cell A) : Locals A :=
  { values := (name, cell.value) :: l.values
    setters := (name, cell.setter) :: l.setters }

def setter? (l : Locals A) (name : String) : Option (Setter A) :=
  l.setters.lookup name

def settersNamed (l : Locals A) (names : List String) : List (String × Setter A) :=
  names.filterMap fun name => (l.setter? name).map fun s => (name, s)

end Locals

/-- A procedure as a list of labelled steps with the index of the step to run next. -/
structure StepSequence (Step A : Type) where
  steps : List (String × Step)
  cursor : Nat := 0
  locals : Locals A := {}

namespace StepSequence

variable {Step A : Type}

def size (s : StepSequence Step A) : Nat :=
  s.steps.length

def advance (s : StepSequence Step A) : Except Fault (Step × StepSequence Step A) :=
  match s.steps[s.cursor]? with
  | some (_, step) => .ok (step, { s with cursor := s.cursor + 1 })
  | none => .error (.contract 0 (.exhausted s.size))

/-- Runs the step under the cursor. The cursor has moved before the step runs, and the step leaves
its locals to the next one. -/
def resume {m : Type → Type} [Monad m] {Answer : Type}
    (run : Step → StepSequence Step A → m (Locals A × Except Fault Answer))
    (s : StepSequence Step A) : m (StepSequence Step A × Except Fault Answer) :=
  match s.advance with
  | .ok (step, moved) => do
    let (locals, answer) ← run step moved
    pure ({ moved with locals := locals }, answer)
  | .error fault => pure (s, .error fault)

end StepSequence

end Resumable
