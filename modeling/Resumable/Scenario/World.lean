import Resumable.Machine.Step
import Resumable.Scenario.Answer

namespace Resumable.Scenario

/-- A procedure in some state. One that stands alone has a home in the memory, where it leaves its
progress even when a step panics. -/
structure Procedure where
  sequence : StepSequence Step Artifact
  repeats : Bool
  props : Value
  home : Option Nat

namespace Procedure

def ofProgram (program : Program) (props : Value) (home : Option Nat) : Procedure :=
  { sequence := { steps := program.steps.map fun s => (s.label, s) }
    repeats := program.repeats
    props := props
    home := home }

end Procedure

abbrev TallyId := Nat

inductive Object where
  | memo (id : MemoId)
  | history (history : History Artifact)
  | registry (id : RegistryId)
  | subscription (id : SubscriptionId)
  | instance (id : InstanceId)
  | component (id : ComponentId) (asked : TallyId)
  | setter (setter : Setter Artifact)
  | procedure (home : Nat)

def Object.handle? : Object → Option Handle
  | .instance id => some (.ofInstance id)
  | component id _ => some (.ofComponent id)
  | _ => none

structure World where
  names : List (String × Object) := []
  counters : Counters := []
  tallies : List Nat := []
  procedures : List Procedure := []
  gates : List (String × Resolution) := []
  log : List Event := []
  answer : Answer := .nothing

structure Computation where
  computing : Computing
  value : Value

structure Producer where
  awaiting : Awaiting
  value : Value

structure Future where
  producer : Producer
  yields : Nat

structure Observing where
  watcher : Watcher
  hits : TallyId

structure Factory where
  programs : List Program
  built : TallyId

structure Asking where
  reaction : Reaction
  asked : TallyId

abbrev client : Client where
  Artifact := Artifact
  blank := Artifact.blank
  Inputs := Value
  sameInputs := Value.same
  Memory := World
  Procedure := Procedure
  Computation := Computation
  Producer := Producer
  Future := Future
  Observer := Observing
  Factory := Factory
  Callback := Asking

abbrev Script (α : Type) := Code client α

namespace Script

variable {α : Type}

def ask {s : Shape} (request : Request client s) : Script (s.Answer client) :=
  Code.ask request

def world : Script World :=
  Code.memory

def update (f : World → World) : Script Unit :=
  Code.update f

def panic (payload : Payload) : Script α :=
  Code.panic payload

def panicWith : Option Payload → Script Unit
  | some payload => panic payload
  | none => pure ()

def log (event : Event) : Script Unit :=
  update fun w => { w with log := event :: w.log }

def newTally : Script TallyId := do
  let w ← world
  update fun w => { w with tallies := w.tallies ++ [0] }
  pure w.tallies.length

def tally (id : TallyId) : Script Nat := do
  let w ← world
  update fun w => { w with tallies := w.tallies.modify id (· + 1) }
  pure (w.tallies[id]?.getD 0)

def evaluate (e : Eval α) : Script (Except Fault α) := do
  let w ← world
  let (result, counters) := e.run.run w.counters
  update fun w => { w with counters := counters }
  pure result

def count (name : String) : Script Nat := do
  let w ← world
  let (number, counters) := w.counters.next name
  update fun w => { w with counters := counters }
  pure number

def numbered (counter : Option String) (v : Value) : Script Value :=
  match counter with
  | none => pure v
  | some name => do
    let number ← count name
    pure (.str (v.plain ++ "#" ++ toString number))

def letGo (o : Object) : Script Unit :=
  match o.handle? with
  | some handle => ask (.release handle)
  | none => pure ()

def store (target : Option String) (o : Object) : Script Unit :=
  match target with
  | none => pure ()
  | some name => do
    let w ← world
    match o.handle? with
    | some handle => ask (.retain handle)
    | none => pure ()
    update fun w => { w with names := (name, o) :: w.names.filter (·.1 ≠ name) }
    match w.names.lookup name with
    | some old => letGo old
    | none => pure ()

def drop (name : String) : Script Bool := do
  let w ← world
  match w.names.lookup name with
  | none => pure false
  | some old =>
    update fun w => { w with names := w.names.filter (·.1 ≠ name) }
    letGo old
    pure true

def withNamed (name : String) (pick : Object → Option α) (use : α → Script Answer) :
    Script Answer := do
  let w ← world
  match w.names.lookup name with
  | none => pure (.noSuch name)
  | some o =>
    match pick o with
    | none => pure (.wrongObject name)
    | some a => use a

end Script

namespace Object

def memo? : Object → Option MemoId
  | memo id => some id
  | _ => none

def history? : Object → Option (History Artifact)
  | history h => some h
  | _ => none

def registry? : Object → Option RegistryId
  | registry id => some id
  | _ => none

def subscription? : Object → Option SubscriptionId
  | subscription id => some id
  | _ => none

def instance? : Object → Option InstanceId
  | .instance id => some id
  | _ => none

def component? : Object → Option ComponentId
  | component id _ => some id
  | _ => none

def setter? : Object → Option (Setter Artifact)
  | setter s => some s
  | _ => none

def procedure? : Object → Option Nat
  | procedure home => some home
  | _ => none

end Object

end Resumable.Scenario
