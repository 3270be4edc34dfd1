import Resumable.Scenario.Conduct

namespace Resumable.Scenario

inductive Reply where
  | answered (answer : Answer)
  | panicked (payload : Payload)
  /-- The operation waits for a lock that it holds itself. -/
  | blocked

inductive Observation where
  | instance (report : InstanceReport)
  | component (asked : Nat) (current : Option InstanceReport)

structure Showing where
  reply : Reply
  log : List Event
  observation : Option Observation

abbrev Session := State client

namespace Session

def empty : Session :=
  { memory := {} }

def instanceReport? (σ : Session) (id : InstanceId) : Option InstanceReport :=
  σ.instances[id]?.map fun x => .ofView x.view

def observe (σ : Session) (name : String) : Option Observation :=
  match σ.memory.names.lookup name with
  | some (.instance id) => (instanceReport? σ id).map .instance
  | some (.component id asked) =>
    σ.components[id]?.map fun y =>
      .component (σ.memory.tallies[asked]?.getD 0) (y.current.bind (instanceReport? σ))
  | _ => none

def code (operation : Operation) : Script Unit := do
  let answer ← operation.perform
  Script.update fun w => { w with answer := answer }

/-- Performs an operation, in `fuel` steps of the machine at most. `ambient` says whether there is
a runtime around it; `watched` names the object to look at afterwards. -/
def perform (fuel : Nat) (ambient : Bool) (watched : Option String) (operation : Operation)
    (σ : Session) : Option (Showing × Session) := do
  let σ := { σ with ambient := ambient, memory := { σ.memory with log := [] } }
  let (outcome, σ) ← (Config.start σ (code operation)).run conduct fuel
  let reply := match outcome with
    | .returned => Reply.answered σ.memory.answer
    | .panicked payload => Reply.panicked payload
    | .blocked => Reply.blocked
  pure (⟨reply, σ.memory.log.reverse, watched.bind (observe σ)⟩, σ)

end Session

end Resumable.Scenario
