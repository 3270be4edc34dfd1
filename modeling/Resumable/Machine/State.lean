import Resumable.Machine.Code

namespace Resumable

inductive Observer (K : Client) where
  | client (observer : K.Observer)
  | host (component : ComponentId)

structure Instance (K : Client) where
  /-- Taken out while a step runs. -/
  procedure : Option K.Procedure
  history : History K.Artifact := []
  status : Status := .paused
  registry : Registry (Observer K) := {}
  memo : MemoId
  settings : Settings

namespace Instance

variable {K : Client}

def position (x : Instance K) : Position :=
  x.history.length

def view (x : Instance K) : InstanceView K.Artifact :=
  ⟨x.status, x.history⟩

def artifact (x : Instance K) : K.Artifact :=
  x.history.latestView?.getD K.blank

/-- The limit of the history, if the next entry would go beyond it. -/
def exhausted? (x : Instance K) : Option Nat :=
  x.settings.limit.filter (· ≤ x.position)

def record (x : Instance K) (e : Entry K.Artifact) : Instance K :=
  { x with history := x.history ++ [e], status := .paused }

def complete (x : Instance K) (artifact : K.Artifact) : Instance K :=
  { x with history := x.history ++ [.view artifact], status := .terminated }

def fail (x : Instance K) : Instance K :=
  { x with status := .terminated }

def terminate (x : Instance K) : Instance K :=
  { x with status := .terminated, registry := x.registry.close }

def lend (x : Instance K) : Instance K :=
  { x with procedure := none }

def takeBack (x : Instance K) (procedure : K.Procedure) : Instance K :=
  { x with procedure := some procedure }

end Instance

/-- One procedure identity, bound to a host that can be asked to render again. -/
structure Component (K : Client) where
  factory : K.Factory
  callback : K.Callback
  settings : Settings
  /-- Whether a render is under way, so that no other one is asked for. -/
  rendering : Bool := false
  inputs : Option K.Inputs := none
  current : Option InstanceId := none
  memo : MemoId
  fault : Option Fault := none

def Component.view {K : Client} (y : Component K) : ComponentView :=
  ⟨y.current, y.memo, y.rendering⟩

/-- The component when a fork has come to its end: it has the new instance, and the fault if there
is one. -/
def Component.adopt {K : Client} (y : Component K) (fresh : InstanceId) (result : Except Fault Unit) :
    Component K :=
  { y with
    current := some fresh
    fault := match result with
      | .ok _ => y.fault
      | .error fault => some fault }

structure Task (K : Client) where
  owner : InstanceId
  position : Position
  keys : Option (List Value)
  future : K.Future

structure State (K : Client) where
  memory : K.Memory
  memos : List Memo := []
  registries : List (Registry (Observer K)) := []
  instances : List (Instance K) := []
  components : List (Component K) := []
  ready : List (Task K) := []
  parked : List (String × Task K) := []
  /-- The claims of the client. -/
  held : List Handle := []
  ambient : Bool := true

namespace State

variable {K : Client}

def memo (σ : State K) (id : MemoId) : Memo :=
  σ.memos[id]?.getD []

def newMemo (σ : State K) : MemoId × State K :=
  (σ.memos.length, { σ with memos := σ.memos ++ [[]] })

def remember (σ : State K) (id : MemoId) (position : Position) (keys : List Value)
    (value : Value) : State K :=
  { σ with memos := σ.memos.modify id (·.remember position keys value) }

def clearMemo (σ : State K) (id : MemoId) : State K :=
  { σ with memos := σ.memos.modify id fun _ => [] }

def newRegistry (σ : State K) : RegistryId × State K :=
  (σ.registries.length, { σ with registries := σ.registries ++ [{}] })

def registry (σ : State K) : Source → Registry (Observer K)
  | .free id => σ.registries[id]?.getD {}
  | .ofInstance id => (σ.instances[id]?.map (·.registry)).getD {}

def modifyInstance (σ : State K) (id : InstanceId) (f : Instance K → Instance K) : State K :=
  { σ with instances := σ.instances.modify id f }

def modifyComponent (σ : State K) (id : ComponentId) (f : Component K → Component K) : State K :=
  { σ with components := σ.components.modify id f }

def modifyRegistry (σ : State K) (source : Source)
    (f : Registry (Observer K) → Registry (Observer K)) : State K :=
  match source with
  | .free id => { σ with registries := σ.registries.modify id f }
  | .ofInstance id => σ.modifyInstance id fun x => { x with registry := f x.registry }

def newInstance (σ : State K) (procedure : K.Procedure) (memo : MemoId) (settings : Settings)
    (observers : List (Observer K)) : InstanceId × State K :=
  let registry := observers.foldl (fun r o => (r.subscribe o).2) {}
  let fresh : Instance K :=
    { procedure := some procedure, registry := registry, memo := memo, settings := settings }
  (σ.instances.length, { σ with instances := σ.instances ++ [fresh] })

def newComponent (σ : State K) (factory : K.Factory) (callback : K.Callback)
    (settings : Settings) : ComponentId × State K :=
  let (memo, σ) := σ.newMemo
  (σ.components.length,
    { σ with components := σ.components ++
        [{ factory := factory, callback := callback, settings := settings, memo := memo }] })

/-- Stops the instance of a component, if it has one, and takes it out. -/
def dismiss (σ : State K) (id : ComponentId) (current : Option InstanceId) : State K :=
  let σ := match current with
    | some i => σ.modifyInstance i (·.terminate)
    | none => σ
  σ.modifyComponent id fun y => { y with current := none }

def enqueue (σ : State K) (task : Task K) : State K :=
  { σ with ready := σ.ready ++ [task] }

def park (σ : State K) (gate : String) (task : Task K) : State K :=
  { σ with parked := σ.parked ++ [(gate, task)] }

def openGate (σ : State K) (gate : String) : Nat × State K :=
  let waiting := σ.parked.filter (·.1 = gate)
  (waiting.length,
    { σ with
      ready := σ.ready ++ waiting.map (·.2)
      parked := σ.parked.filter (·.1 ≠ gate) })

def retain (σ : State K) (handle : Handle) : State K :=
  { σ with held := handle :: σ.held }

def release (σ : State K) (handle : Handle) : State K :=
  { σ with held := σ.held.erase handle }

end State

end Resumable
