import Resumable.Machine.Stack

namespace Resumable

structure Config (K : Client) where
  shape : Shape
  state : State K
  control : Control K shape
  stack : Stack K shape

inductive Outcome where
  | returned
  | panicked (payload : Payload)
  | blocked
  deriving DecidableEq, Repr

abbrev Next (K : Client) := Except Outcome (Config K)

namespace Next

variable {K : Client} {s w : Shape}

def run (σ : State K) (stack : Stack K s) (code : Code K (s.Answer K)) : Next K :=
  .ok ⟨s, σ, .run code, stack⟩

def give (σ : State K) (stack : Stack K s) (answer : s.Answer K) : Next K :=
  run σ stack (.done answer)

def call (σ : State K) (frame : Frame K s w) (stack : Stack K w) (c : Call K s) : Next K :=
  .ok ⟨s, σ, .call c, .push frame stack⟩

def emit (σ : State K) (stack : Stack K .unit) (source : Source) (signal : Signal K.Artifact) :
    Next K :=
  .ok ⟨.unit, σ, .emit source signal, stack⟩

def advance (σ : State K) (stack : Stack K .result) (id : InstanceId) : Next K :=
  .ok ⟨.result, σ, .advance id, stack⟩

def withInstance (σ : State K) (stack : Stack K s) (id : InstanceId) (use : Instance K → Next K) :
    Next K :=
  if stack.locksInstance id then .error .blocked
  else match σ.instances[id]? with
    | some x => use x
    | none => .error .blocked

def withComponent (σ : State K) (stack : Stack K s) (id : ComponentId)
    (use : Component K → Next K) : Next K :=
  if stack.locksComponent id then .error .blocked
  else match σ.components[id]? with
    | some y => use y
    | none => .error .blocked

/-- Takes the instance out of a component and stops it, unless it is locked. -/
def dismissing (σ : State K) (stack : Stack K s) (id : ComponentId) (y : Component K)
    (use : State K → Next K) : Next K :=
  match y.current with
  | none => use σ
  | some old => withInstance σ stack old fun _ => use (σ.dismiss id old)

end Next

end Resumable
