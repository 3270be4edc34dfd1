import Resumable.Effect.Basic
import Resumable.Registry
import Resumable.Procedure.Resumption
import Resumable.Memo
import Resumable.Status

namespace Resumable

structure Client where
  Artifact : Type
  blank : Artifact
  Inputs : Type
  /-- When inputs count as unchanged. -/
  sameInputs : Inputs → Inputs → Bool
  /-- What all client code may read and write. -/
  Memory : Type
  Procedure : Type
  Computation : Type
  Producer : Type
  Future : Type
  Observer : Type
  Factory : Type
  Callback : Type

abbrev InstanceId := Nat
abbrev ComponentId := Nat
abbrev MemoId := Nat
abbrev RegistryId := Nat

namespace Client

abbrev Yielded (K : Client) : Type :=
  Resumable.Yielded K.Artifact K.Producer K.Computation

end Client

inductive Progress (Future : Type) where
  | ready (outcome : Except String Value)
  /-- The future gives way to the tasks that are ready. -/
  | later (future : Future)
  /-- The future waits for a gate to be opened. -/
  | parked (gate : String) (future : Future)

inductive Source where
  | free (id : RegistryId)
  | ofInstance (id : InstanceId)
  deriving DecidableEq

inductive Handle where
  | ofInstance (id : InstanceId)
  | ofComponent (id : ComponentId)
  deriving DecidableEq

structure Settings where
  /-- The most entries its history may have. -/
  limit : Option Nat := none
  /-- Whether it has a runtime of its own for its producers. -/
  runtime : Bool := false
  deriving DecidableEq

structure InstanceView (A : Type) where
  status : Status
  history : History A

namespace InstanceView

variable {A : Type}

def position (v : InstanceView A) : Position :=
  v.history.length

def display (v : InstanceView A) : String :=
  "Interpreter \x7b status: " ++ v.status.label ++ ", position: " ++ toString v.position ++
    ", .. \x7d"

end InstanceView

structure ComponentView where
  current : Option InstanceId
  memo : MemoId
  rendering : Bool

def ComponentView.display {A : Type} (v : ComponentView) (current : Option (InstanceView A))
    (memo : Memo) : String :=
  let shown := match current with
    | none => "None"
    | some x => "Some(" ++ x.display ++ ")"
  "SagaComponent \x7b instance: " ++ shown ++ ", memo: " ++ memo.display ++ ", rendering: " ++
    toString v.rendering ++ ", .. \x7d"

end Resumable
