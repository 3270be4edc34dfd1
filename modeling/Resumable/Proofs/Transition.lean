import Resumable.Proofs.Activity
import Resumable.Proofs.Branches

namespace Resumable

variable {K : Client} {s u w : Shape} {σ : State K}

/-- A panic is not dropped with the frame. -/
def Frame.catches : Frame K s w → Bool
  | polling _ => true
  | settling _ => true
  | suspended _ => true
  | _ => false

namespace State

inductive Dismisses (σ : State K) (stack : Stack K s) (k : ComponentId) (y : Component K) :
    State K → Prop
  | vacant (none : y.current = none) : Dismisses σ stack k y σ
  | taken {old : InstanceId} {x : Instance K} (has : y.current = some old)
    (unlocked : stack.locksInstance old = false) (found : σ.instances[old]? = some x) :
    Dismisses σ stack k y (σ.dismiss k old)

/-- What a client is answered at once, with the state after it. -/
inductive Replies (σ : State K) (stack : Stack K s) :
    {w : Shape} → Request K w → State K → w.Answer K → Prop
  | newMemo : Replies σ stack .newMemo σ.newMemo.2 σ.newMemo.1
  | memo (m : MemoId) : Replies σ stack (.memo m) σ (σ.memo m)
  | remember (m : MemoId) (n : Position) (keys : List Value) (v : Value) :
    Replies σ stack (.remember m n keys v) (σ.remember m n keys v) ()
  | clearMemo (m : MemoId) : Replies σ stack (.clearMemo m) (σ.clearMemo m) ()
  | newRegistry : Replies σ stack .newRegistry σ.newRegistry.2 σ.newRegistry.1
  | registry (id : RegistryId) : Replies σ stack (.registry id) σ
    ⟨(σ.registry (.free id)).nextId, (σ.registry (.free id)).entries.map fun e => (e.1, ()),
      (σ.registry (.free id)).closed⟩
  | subscribe (source : Source) (o : K.Observer) : Replies σ stack (.subscribe source o)
    (σ.modifyRegistry source fun r => (r.subscribe (.client o)).2) (σ.registry source).nextId
  | unsubscribe (source : Source) (n : SubscriptionId) : Replies σ stack (.unsubscribe source n)
    (σ.modifyRegistry source fun r => (r.unsubscribe n).2) ((σ.registry source).unsubscribe n).1
  | closeRegistry (id : RegistryId) :
    Replies σ stack (.closeRegistry id) (σ.modifyRegistry (.free id) (·.close)) ()
  | newInstance (p : K.Procedure) (m : MemoId) (settings : Settings) :
    Replies σ stack (.newInstance p m settings) (σ.newInstance p m settings []).2 σ.instances.length
  | instanceView {i : InstanceId} {x : Instance K} (unlocked : stack.locksInstance i = false)
    (found : σ.instances[i]? = some x) : Replies σ stack (.instanceView i) σ x.view
  | instanceMemo {i : InstanceId} {x : Instance K} (found : σ.instances[i]? = some x) :
    Replies σ stack (.instanceMemo i) σ x.memo
  | replay (i : InstanceId) (h : History K.Artifact) (answer : Except Fault Unit) :
    Replies σ stack (.replay i h) σ answer
  | terminate {i : InstanceId} {x : Instance K} (unlocked : stack.locksInstance i = false)
    (found : σ.instances[i]? = some x) :
    Replies σ stack (.terminate i) (σ.modifyInstance i (·.terminate)) ()
  | fire {setter : Setter K.Artifact} (v : Value) (gone : σ.sourceAlive stack setter.owner = false) :
    Replies σ stack (.fire setter v) σ ()
  | newComponent (factory : K.Factory) (callback : K.Callback) (settings : Settings) :
    Replies σ stack (.newComponent factory callback settings)
      (σ.newComponent factory callback settings).2 σ.components.length
  | componentView {k : ComponentId} {y : Component K} (unlocked : stack.locksComponent k = false)
    (made : σ.components[k]? = some y) : Replies σ stack (.componentView k) σ y.view
  | reset {σ' : State K} {k : ComponentId} {y : Component K}
    (unlocked : stack.locksComponent k = false) (made : σ.components[k]? = some y)
    (dismisses : σ.Dismisses stack k y σ') : Replies σ stack (.reset k)
      (σ'.newMemo.2.modifyComponent k ({ · with inputs := none, memo := σ'.newMemo.1 })) ()
  | unmount {σ' : State K} {k : ComponentId} {y : Component K}
    (unlocked : stack.locksComponent k = false) (made : σ.components[k]? = some y)
    (dismisses : σ.Dismisses stack k y σ') : Replies σ stack (.unmount k) σ' ()
  | takeFault {k : ComponentId} {y : Component K} (made : σ.components[k]? = some y) :
    Replies σ stack (.takeFault k) (σ.modifyComponent k ({ · with fault := none })) y.fault
  | drain (idle : σ.ready = []) : Replies σ stack .drain σ ()
  | openGate (gate : String) : Replies σ stack (.openGate gate) (σ.openGate gate).2 (σ.openGate gate).1
  | retain (handle : Handle) : Replies σ stack (.retain handle) (σ.retain handle) ()
  | release (handle : Handle) : Replies σ stack (.release handle) (σ.release handle) ()

end State

namespace Config

/-- Tasks are polled until none is ready. -/
inductive Draining : Stack K .unit → Config K → Prop
  | asked {s : Shape} (σ : State K) (next : Shape.unit.Answer K → Code K (s.Answer K))
    (stack : Stack K s) :
    Draining (.push (.waiting next) stack) ⟨s, σ, .run (.call .drain next), stack⟩
  | again (σ : State K) (stack : Stack K .unit) :
    Draining stack ⟨.unit, σ, .run (.done ()), .push .draining stack⟩

/-- A signal is on its way to those who are still to hear it. -/
inductive Delivering (source : Source) (signal : Signal K.Artifact) (observers : List (Observer K))
    (stack : Stack K .unit) : Config K → Prop
  | sent (σ : State K) (heard : (σ.registry source).observers = observers) :
    Delivering source signal observers stack ⟨.unit, σ, .emit source signal, stack⟩
  | further (σ : State K) : Delivering source signal observers stack
      ⟨.unit, σ, .run (.done ()), .push (.emitting source observers signal) stack⟩

/-- A living component is the next one to hear a signal. -/
inductive Reacting (k : ComponentId) (signal : Signal K.Artifact) : Stack K .unit → Config K → Prop
  | intro {c : Config K} {source : Source} {rest : List (Observer K)} {stack : Stack K .unit}
    (delivering : c.Delivering source signal (.host k :: rest) stack)
    (alive : c.state.componentAlive (.push (.emitting source rest signal) stack) k = true) :
    Reacting k signal (.push (.emitting source rest signal) stack) c

/-- A component is to ask for a render. -/
inductive Requesting (k : ComponentId) : Stack K .unit → Config K → Prop
  | told {c : Config K} {signal : Signal K.Artifact} {stack : Stack K .unit}
    (reacting : c.Reacting k signal stack) (ready : signal = .ready ∨ signal = .done) :
    Requesting k stack c
  | adopted (σ : State K) (stack : Stack K .unit) :
    Requesting k stack ⟨.unit, σ, .run (.done ()), .push (.requesting k) stack⟩

/-- The client's own code, and what it asks for. -/
inductive CodeStep (β : Behaviour K) : Config K → Config K → Prop
  | entered {s : Shape} (σ : State K) (call : Call K s) (stack : Stack K s) :
    CodeStep β ⟨s, σ, .call call, stack⟩ ⟨s, σ, .run (β.code call), stack⟩
  | read {s : Shape} (σ : State K) (next : K.Memory → Code K (s.Answer K)) (stack : Stack K s) :
    CodeStep β ⟨s, σ, .run (.read next), stack⟩ ⟨s, σ, .run (next σ.memory), stack⟩
  | wrote {s : Shape} (σ : State K) (memory : K.Memory) (next : Code K (s.Answer K))
    (stack : Stack K s) : CodeStep β ⟨s, σ, .run (.write memory next), stack⟩
      ⟨s, { σ with memory := memory }, .run next, stack⟩
  | replied {s w : Shape} {σ σ' : State K} {request : Request K w} {answer : w.Answer K}
    {next : w.Answer K → Code K (s.Answer K)} {stack : Stack K s}
    (replies : σ.Replies (.push (.waiting next) stack) request σ' answer) :
    CodeStep β ⟨s, σ, .run (.call request next), stack⟩
      ⟨w, σ', .run (.done answer), .push (.waiting next) stack⟩
  | called {s w : Shape} (σ : State K) (call : Call K w) (next : w.Answer K → Code K (s.Answer K))
    (stack : Stack K s) : CodeStep β ⟨s, σ, .run (.call (.call call) next), stack⟩
      ⟨w, σ, .call call, .push (.waiting next) stack⟩
  | emitted {s : Shape} (σ : State K) (id : RegistryId) (signal : Signal K.Artifact)
    (next : Shape.unit.Answer K → Code K (s.Answer K)) (stack : Stack K s) :
    CodeStep β ⟨s, σ, .run (.call (.emit id signal) next), stack⟩
      ⟨.unit, σ, .emit (.free id) signal, .push (.waiting next) stack⟩
  | fired {s : Shape} {σ : State K} {setter : Setter K.Artifact} (v : Value)
    {next : Shape.unit.Answer K → Code K (s.Answer K)} {stack : Stack K s}
    (alive : σ.sourceAlive (.push (.waiting next) stack) setter.owner = true) :
    CodeStep β ⟨s, σ, .run (.call (.fire setter v) next), stack⟩
      ⟨.unit, σ, .emit (.ofInstance setter.owner) (.forked (setter.forked v)),
        .push (.waiting next) stack⟩
  | driven {s : Shape} (σ : State K) (i : InstanceId)
    (next : Shape.result.Answer K → Code K (s.Answer K)) (stack : Stack K s) :
    CodeStep β ⟨s, σ, .run (.call (.proceed i) next), stack⟩
      ⟨.result, σ, .advance i, .push (.waiting next) stack⟩
  | answered {s w : Shape} (σ : State K) (next : s.Answer K → Code K (w.Answer K))
    (answer : s.Answer K) (rest : Stack K w) :
    CodeStep β ⟨s, σ, .run (.done answer), .push (.waiting next) rest⟩
      ⟨w, σ, .run (next answer), rest⟩
  | dropped {s w : Shape} (σ : State K) (payload : Payload) {frame : Frame K s w} (rest : Stack K w)
    (uncaught : frame.catches = false) :
    CodeStep β ⟨s, σ, .run (.panic payload), .push frame rest⟩ ⟨w, σ, .run (.panic payload), rest⟩
  | begun (σ : State K) (result : Except Payload Unit) (memory : K.Memory) (ambient : Bool)
    (code : Code K Unit) : CodeStep β ⟨.unit, σ, .run (.ended result), .empty⟩
      (start { σ with memory := memory, ambient := ambient } code)

/-- The steps of an instance. -/
inductive DriveStep : Config K → Config K → Prop
  | idle {σ : State K} {i : InstanceId} {x : Instance K} {stack : Stack K .result}
    (unlocked : stack.locksInstance i = false) (found : σ.instances[i]? = some x)
    (busy : x.status ≠ .paused) (answer : Except Fault Unit) :
    DriveStep ⟨.result, σ, .advance i, stack⟩ ⟨.result, σ, .run (.done answer), stack⟩
  | refused {σ : State K} {i : InstanceId} {x : Instance K} {stack : Stack K .result}
    (unlocked : stack.locksInstance i = false) (found : σ.instances[i]? = some x)
    (paused : x.status = .paused) {fault : Fault}
    (reason : (∃ limit, x.exhausted? = some limit ∧ fault = .historyLimit limit) ∨
      x.procedure = none) : DriveStep ⟨.result, σ, .advance i, stack⟩
      ⟨.result, σ.modifyInstance i (·.fail), .run (.done (.error fault)), stack⟩
  | started {σ : State K} {i : InstanceId} {x : Instance K} {p : K.Procedure}
    {stack : Stack K .result} (unlocked : stack.locksInstance i = false)
    (found : σ.instances[i]? = some x) (paused : x.status = .paused) (room : x.exhausted? = none)
    (has : x.procedure = some p) : DriveStep ⟨.result, σ, .advance i, stack⟩
      ⟨.step, σ.modifyInstance i ({ ·.lend with status := .running }),
        .call (.resume p (Resumption.next? i x.history)), .push (.stepping i x.position) stack⟩
  -- A step has answered.
  | overtaken {σ : State K} {i : InstanceId} {x : Instance K} (n : Position) (p : K.Procedure)
    (answer : Except Fault K.Yielded) (rest : Stack K .result) (found : σ.instances[i]? = some x)
    (gone : x.status = .terminated) :
    DriveStep ⟨.step, σ, .run (.done (p, answer)), .push (.stepping i n) rest⟩
      ⟨.result, σ.modifyInstance i (·.takeBack p), .run (.done (.ok ())), rest⟩
  | failed {σ : State K} {i : InstanceId} {x : Instance K} (n : Position) (p : K.Procedure)
    (fault : Fault) (rest : Stack K .result) (found : σ.instances[i]? = some x)
    (alive : x.status ≠ .terminated) :
    DriveStep ⟨.step, σ, .run (.done (p, .error fault)), .push (.stepping i n) rest⟩
      ⟨.result, σ.modifyInstance i fun x => (x.takeBack p).fail,
        .run (.done (.error (fault.stamp n))), rest⟩
  | completed {σ : State K} {i : InstanceId} {x : Instance K} (n : Position) (p : K.Procedure)
    (a : K.Artifact) (rest : Stack K .result) (found : σ.instances[i]? = some x)
    (alive : x.status ≠ .terminated) :
    DriveStep ⟨.step, σ, .run (.done (p, .ok (.complete a))), .push (.stepping i n) rest⟩
      ⟨.unit, σ.modifyInstance i fun x => (x.takeBack p).complete a, .emit (.ofInstance i) .done,
        .push (.proceeding i) rest⟩
  | recorded {σ : State K} {i : InstanceId} {x : Instance K} {n : Position} (p : K.Procedure)
    {effect : Effect K.Artifact K.Producer K.Computation} {e : Entry K.Artifact}
    (rest : Stack K .result) (found : σ.instances[i]? = some x) (alive : x.status ≠ .terminated)
    (records : effect.Records ((σ.memo x.memo).lookup n) e) :
    DriveStep ⟨.step, σ, .run (.done (p, .ok (.effect effect))), .push (.stepping i n) rest⟩
      ⟨.unit, σ.modifyInstance i fun x => (x.takeBack p).record e, .emit (.ofInstance i) .ready,
        .push (.proceeding i) rest⟩
  | computing {σ : State K} {i : InstanceId} {x : Instance K} {n : Position} (p : K.Procedure)
    (computation : K.Computation) {keys : List Value} (rest : Stack K .result)
    (found : σ.instances[i]? = some x) (alive : x.status ≠ .terminated)
    (missed : (σ.memo x.memo).lookup n keys = none) :
    DriveStep ⟨.step, σ, .run (.done (p, .ok (.effect (.compute computation keys)))),
        .push (.stepping i n) rest⟩
      ⟨.value, σ.modifyInstance i (·.takeBack p), .call (.compute computation),
        .push (.computing i n keys) rest⟩
  | launching {σ : State K} {i : InstanceId} {x : Instance K} {n : Position} (p : K.Procedure)
    (producer : K.Producer) {keys : Option (List Value)} (rest : Stack K .result)
    (found : σ.instances[i]? = some x) (alive : x.status ≠ .terminated)
    (missed : keys.bind ((σ.memo x.memo).lookup n) = none) :
    DriveStep ⟨.step, σ, .run (.done (p, .ok (.effect (.await producer keys)))),
        .push (.stepping i n) rest⟩
      ⟨.future, σ.modifyInstance i (·.takeBack p), .call (.produce producer),
        .push (.launching i n keys) rest⟩
  | stranded {σ : State K} {i : InstanceId} {x : Instance K} {n : Position} (p : K.Procedure)
    (producer : K.Producer) {keys : Option (List Value)} (rest : Stack K .result)
    (found : σ.instances[i]? = some x) (alive : x.status ≠ .terminated)
    (missed : keys.bind ((σ.memo x.memo).lookup n) = none)
    (alone : (x.settings.runtime || σ.ambient || rest.onTask) = false) :
    DriveStep ⟨.step, σ, .run (.done (p, .ok (.effect (.await producer keys)))),
        .push (.stepping i n) rest⟩
      ⟨.result, σ.modifyInstance i fun x => (x.takeBack p).fail,
        .run (.done (.error (.noRuntime n))), rest⟩
  -- A computation has its value, a producer its future.
  | outdated {σ : State K} {i : InstanceId} {x : Instance K} (n : Position) (keys : List Value)
    (v : Value) (rest : Stack K .result) (found : σ.instances[i]? = some x)
    (gone : x.status = .terminated) :
    DriveStep ⟨.value, σ, .run (.done v), .push (.computing i n keys) rest⟩
      ⟨.result, σ.remember x.memo n keys v, .run (.done (.ok ())), rest⟩
  | computed {σ : State K} {i : InstanceId} {x : Instance K} (n : Position) (keys : List Value)
    (v : Value) (rest : Stack K .result) (found : σ.instances[i]? = some x)
    (alive : x.status ≠ .terminated) :
    DriveStep ⟨.value, σ, .run (.done v), .push (.computing i n keys) rest⟩
      ⟨.unit, (σ.remember x.memo n keys v).modifyInstance i (·.record (.yielded v)),
        .emit (.ofInstance i) .ready, .push (.proceeding i) rest⟩
  | launched (σ : State K) (i : InstanceId) (n : Position) (keys : Option (List Value))
    (future : K.Future) (rest : Stack K .result) :
    DriveStep ⟨.future, σ, .run (.done future), .push (.launching i n keys) rest⟩
      ⟨.result, σ.enqueue ⟨i, n, keys, future⟩, .run (.done (.ok ())), rest⟩
  | proceeded (σ : State K) (i : InstanceId) (rest : Stack K .result) :
    DriveStep ⟨.unit, σ, .run (.done ()), .push (.proceeding i) rest⟩ ⟨.result, σ, .advance i, rest⟩

/-- A client replays a history, and a replayed step answers. -/
inductive ReplayStep : Config K → Config K → Prop
  | started {s : Shape} {σ : State K} {i : InstanceId} {x : Instance K} {p : K.Procedure}
    (e : Entry K.Artifact) (later : History K.Artifact)
    (next : Shape.result.Answer K → Code K (s.Answer K)) (stack : Stack K s)
    (found : σ.instances[i]? = some x) (fresh : x.history = []) (paused : x.status = .paused)
    (has : x.procedure = some p) :
    ReplayStep ⟨s, σ, .run (.call (.replay i (e :: later)) next), stack⟩
      ⟨.step, σ.modifyInstance i (·.lend), .call (.resume p none),
        .push (.replaying i e later) (.push (.waiting next) stack)⟩
  | diverged {σ : State K} {i : InstanceId} {x : Instance K} (e : Entry K.Artifact)
    (later : History K.Artifact) (p : K.Procedure) (answer : Except Fault K.Yielded)
    (rest : Stack K .result) (found : σ.instances[i]? = some x) (divergence : Divergence) :
    ReplayStep ⟨.step, σ, .run (.done (p, answer)), .push (.replaying i e later) rest⟩
      ⟨.result, σ.modifyInstance i fun x => (x.takeBack p).fail,
        .run (.done (.error (.diverged x.position divergence))), rest⟩
  | completed {σ : State K} {i : InstanceId} {x : Instance K} (a b : K.Artifact)
    (p : K.Procedure) (rest : Stack K .result) (found : σ.instances[i]? = some x) :
    ReplayStep ⟨.step, σ, .run (.done (p, .ok (.complete b))), .push (.replaying i (.view a) []) rest⟩
      ⟨.result, σ.modifyInstance i fun x => (x.takeBack p).complete a, .run (.done (.ok ())), rest⟩
  | ended {σ : State K} {i : InstanceId} {x : Instance K} {e : Entry K.Artifact} (p : K.Procedure)
    {effect : Effect K.Artifact K.Producer K.Computation} (rest : Stack K .result)
    (found : σ.instances[i]? = some x) (fits : e.recordedBy effect.kind = true) :
    ReplayStep ⟨.step, σ, .run (.done (p, .ok (.effect effect))), .push (.replaying i e []) rest⟩
      ⟨.result, σ.modifyInstance i fun x => (x.record e).takeBack p, .run (.done (.ok ())), rest⟩
  | resumed {σ : State K} {i : InstanceId} {x : Instance K} {e : Entry K.Artifact}
    (later : Entry K.Artifact) (others : History K.Artifact) (p : K.Procedure)
    {effect : Effect K.Artifact K.Producer K.Computation} (rest : Stack K .result)
    (found : σ.instances[i]? = some x) (fits : e.recordedBy effect.kind = true) :
    ReplayStep ⟨.step, σ, .run (.done (p, .ok (.effect effect))),
        .push (.replaying i e (later :: others)) rest⟩
      ⟨.step, σ.modifyInstance i (·.record e), .call (.resume p (Resumption.fed? i x.history e)),
        .push (.replaying i later others) rest⟩

inductive TaskStep : Config K → Config K → Prop
  | gone {c : Config K} {stack : Stack K .unit} {task : Task K} {outcome : Except Failure Value}
    (completes : c.Completes stack task outcome)
    (dead : c.state.instanceAlive stack task.owner = false) :
    TaskStep c ⟨.unit, c.state, .run (.done ()), stack⟩
  | ignored {c : Config K} {stack : Stack K .unit} {task : Task K} {outcome : Except Failure Value}
    {x : Instance K} (completes : c.Completes stack task outcome)
    (found : c.state.instances[task.owner]? = some x)
    (reason : x.status ≠ .running ∨ x.position ≠ task.position) :
    TaskStep c ⟨.unit, c.state, .run (.done ()), stack⟩
  | settled {c : Config K} {stack : Stack K .unit} {task : Task K} {v : Value} {x : Instance K}
    {σ : State K} (completes : c.Completes stack task (.ok v))
    (found : c.state.instances[task.owner]? = some x) (running : x.status = .running)
    (position : x.position = task.position)
    (stored : σ = c.state ∨
      ∃ keys, task.keys = some keys ∧ σ = c.state.remember x.memo task.position keys v) :
    TaskStep c ⟨.unit, σ.modifyInstance task.owner (·.record (.yielded v)),
      .emit (.ofInstance task.owner) .ready, .push (.settling task.owner) stack⟩
  | rejected {c : Config K} {stack : Stack K .unit} {task : Task K} {failure : Failure}
    {x : Instance K} (completes : c.Completes stack task (.error failure))
    (found : c.state.instances[task.owner]? = some x) (running : x.status = .running)
    (position : x.position = task.position) :
    TaskStep c ⟨.unit, c.state.modifyInstance task.owner (·.fail),
      .emit (.ofInstance task.owner) (.rejected (.producer task.position failure)),
      .push (.settling task.owner) stack⟩
  | told (σ : State K) (i : InstanceId) (rest : Stack K .unit) :
    TaskStep ⟨.unit, σ, .run (.done ()), .push (.settling i) rest⟩
      ⟨.unit, σ, .run (.done ()), rest⟩
  | spared (σ : State K) (payload : Payload) (i : InstanceId) (rest : Stack K .unit) :
    TaskStep ⟨.unit, σ, .run (.panic payload), .push (.settling i) rest⟩
      ⟨.unit, σ, .run (.done ()), rest⟩
  | postponed (σ : State K) (task : Task K) (future : K.Future) (rest : Stack K .unit) :
    TaskStep ⟨.progress, σ, .run (.done (Progress.later future)), .push (.polling task) rest⟩
      ⟨.unit, σ.enqueue { task with future := future }, .run (.done ()), rest⟩
  | parked (σ : State K) (task : Task K) (gate : String) (future : K.Future) (rest : Stack K .unit) :
    TaskStep ⟨.progress, σ, .run (.done (Progress.parked gate future)), .push (.polling task) rest⟩
      ⟨.unit, σ.park gate { task with future := future }, .run (.done ()), rest⟩
  | polled {c : Config K} {stack : Stack K .unit} {task : Task K} {later : List (Task K)}
    (draining : c.Draining stack) (ready : c.state.ready = task :: later) :
    TaskStep c ⟨.progress, { c.state with ready := later }, .call (.poll task.future),
      .push (.polling task) (.push .draining stack)⟩
  | drained {σ : State K} (rest : Stack K .unit) (idle : σ.ready = []) :
    TaskStep ⟨.unit, σ, .run (.done ()), .push .draining rest⟩ ⟨.unit, σ, .run (.done ()), rest⟩

/-- A signal goes from one observer to the next, and components react. -/
inductive SignalStep : Config K → Config K → Prop
  | delivered {c : Config K} {source : Source} {signal : Signal K.Artifact} {stack : Stack K .unit}
    (delivering : c.Delivering source signal [] stack) :
    SignalStep c ⟨.unit, c.state, .run (.done ()), stack⟩
  | noticed {c : Config K} {source : Source} {signal : Signal K.Artifact} {o : K.Observer}
    {others : List (Observer K)} {stack : Stack K .unit}
    (delivering : c.Delivering source signal (.client o :: others) stack) :
    SignalStep c ⟨.unit, c.state, .call (.notice o signal),
      .push (.emitting source others signal) stack⟩
  | unheld {c : Config K} {source : Source} {signal : Signal K.Artifact} {k : ComponentId}
    {others : List (Observer K)} {stack : Stack K .unit}
    (delivering : c.Delivering source signal (.host k :: others) stack)
    (dead : c.state.componentAlive (.push (.emitting source others signal) stack) k = false) :
    SignalStep c ⟨.unit, c.state, .run (.done ()), .push (.emitting source others signal) stack⟩
  | marked {c : Config K} {k : ComponentId} {y : Component K} {stack : Stack K .unit}
    (requesting : c.Requesting k stack) (made : c.state.components[k]? = some y)
    (rendering : y.rendering = true) : SignalStep c ⟨.unit, c.state, .run (.done ()), stack⟩
  | requested {c : Config K} {k : ComponentId} {y : Component K} {stack : Stack K .unit}
    (requesting : c.Requesting k stack) (made : c.state.components[k]? = some y)
    (unmarked : y.rendering = false) :
    SignalStep c ⟨.unit, c.state, .call (.rerender y.callback), .push (.hosting k) stack⟩
  | bare {c : Config K} {k : ComponentId} {h : History K.Artifact} {y : Component K}
    {stack : Stack K .unit} (reacting : c.Reacting k (.forked h) stack)
    (made : c.state.components[k]? = some y) (without : y.inputs = none) :
    SignalStep c ⟨.unit, c.state, .run (.done ()), stack⟩
  | forked {c : Config K} {k : ComponentId} {h : History K.Artifact} {y : Component K}
    {inputs : K.Inputs} {σ : State K} {stack : Stack K .unit}
    (reacting : c.Reacting k (.forked h) stack) (unlocked : stack.locksComponent k = false)
    (made : c.state.components[k]? = some y) (given : y.inputs = some inputs)
    (dismisses : c.state.Dismisses stack k y σ) :
    SignalStep c ⟨.procedure, σ, .call (.build y.factory inputs), .push (.forking k h) stack⟩
  | rejected {c : Config K} {k : ComponentId} {fault : Fault} {y : Component K}
    {stack : Stack K .unit} (reacting : c.Reacting k (.rejected fault) stack)
    (made : c.state.components[k]? = some y) :
    SignalStep c ⟨.unit, c.state.modifyComponent k ({ · with fault := some fault }),
      .call (.rerender y.callback), .push (.hosting k) stack⟩
  | hosted (σ : State K) (k : ComponentId) (rest : Stack K .unit) :
    SignalStep ⟨.unit, σ, .run (.done ()), .push (.hosting k) rest⟩ ⟨.unit, σ, .run (.done ()), rest⟩

/-- A component renders, or takes an instance for a forked history. -/
inductive HostStep : Config K → Config K → Prop
  | marked {s : Shape} {σ : State K} {k : ComponentId} {y : Component K} (inputs : K.Inputs)
    (next : Shape.artifact.Answer K → Code K (s.Answer K)) (stack : Stack K s)
    (made : σ.components[k]? = some y) :
    HostStep ⟨s, σ, .run (.call (.render k inputs) next), stack⟩
      ⟨.unit, σ.modifyComponent k ({ · with rendering := true }), .run (.done ()),
        .push (.entering k inputs) (.push (.waiting next) stack)⟩
  | continued {σ : State K} {k : ComponentId} {y : Component K} {i : InstanceId}
    {old : K.Inputs} {inputs : K.Inputs} {rest : Stack K .artifact}
    (unlocked : rest.locksComponent k = false) (made : σ.components[k]? = some y)
    (has : y.current = some i) (given : y.inputs = some old)
    (unchanged : K.sameInputs old inputs = true) :
    HostStep ⟨.unit, σ, .run (.done ()), .push (.entering k inputs) rest⟩
      ⟨.result, σ, .advance i, .push (.rendering k i) rest⟩
  | building {σ : State K} {k : ComponentId} {y : Component K} {inputs : K.Inputs}
    {rest : Stack K .artifact} (unlocked : rest.locksComponent k = false)
    (made : σ.components[k]? = some y)
    (other : y.current = none ∨ ∀ old, y.inputs = some old → K.sameInputs old inputs = false) :
    HostStep ⟨.unit, σ, .run (.done ()), .push (.entering k inputs) rest⟩
      ⟨.procedure, σ, .call (.build y.factory inputs), .push (.mounting k inputs) rest⟩
  | mounted {σ σ' : State K} {k : ComponentId} {y : Component K} {p : K.Procedure}
    (inputs : K.Inputs) {rest : Stack K .artifact} (made : σ.components[k]? = some y)
    (dismisses : (σ.newInstance p y.memo y.settings [.host k]).2.Dismisses rest k y σ') :
    HostStep ⟨.procedure, σ, .run (.done p), .push (.mounting k inputs) rest⟩
      ⟨.result, σ'.modifyComponent k
          ({ · with current := some σ.instances.length, inputs := some inputs }),
        .advance σ.instances.length, .push (.rendering k σ.instances.length) rest⟩
  | unmarked {σ : State K} {k : ComponentId} {y : Component K} {i : InstanceId} {x : Instance K}
    (result : Except Fault Unit) (rest : Stack K .artifact) (found : σ.instances[i]? = some x)
    (made : σ.components[k]? = some y) :
    HostStep ⟨.result, σ, .run (.done result), .push (.rendering k i) rest⟩
      ⟨.artifact, σ.modifyComponent k ({ · with rendering := false }),
        .run (.done (result.map fun _ => x.artifact)), .push (.reviewing k) rest⟩
  | reviewed {σ : State K} {k : ComponentId} {y : Component K} (answer : Except Fault K.Artifact)
    (rest : Stack K .artifact) (made : σ.components[k]? = some y)
    (awake : ∀ i x, y.current = some i → σ.instances[i]? = some x → x.status ≠ .paused) :
    HostStep ⟨.artifact, σ, .run (.done answer), .push (.reviewing k) rest⟩
      ⟨.artifact, σ, .run (.done answer), rest⟩
  | again {σ : State K} {k : ComponentId} {y : Component K} {i : InstanceId} {x : Instance K}
    (answer : Except Fault K.Artifact) (rest : Stack K .artifact) (made : σ.components[k]? = some y)
    (has : y.current = some i) (found : σ.instances[i]? = some x) (paused : x.status = .paused) :
    HostStep ⟨.artifact, σ, .run (.done answer), .push (.reviewing k) rest⟩
      ⟨.unit, σ, .call (.rerender y.callback), .push (.rerendering k answer) rest⟩
  | rerendered (σ : State K) (k : ComponentId) (answer : Except Fault K.Artifact)
    (rest : Stack K .artifact) :
    HostStep ⟨.unit, σ, .run (.done ()), .push (.rerendering k answer) rest⟩
      ⟨.artifact, σ, .run (.done answer), rest⟩
  -- A fork.
  | empty {σ : State K} {k : ComponentId} {y : Component K} (p : K.Procedure)
    (rest : Stack K .unit) (made : σ.components[k]? = some y) :
    HostStep ⟨.procedure, σ, .run (.done p), .push (.forking k []) rest⟩
      ⟨.result, (σ.newInstance p y.memo y.settings [.host k]).2, .run (.done (.ok ())),
        .push (.adopting k σ.instances.length) rest⟩
  | replaying {σ : State K} {k : ComponentId} {y : Component K} (e : Entry K.Artifact)
    (later : History K.Artifact) (p : K.Procedure) (rest : Stack K .unit)
    (made : σ.components[k]? = some y) :
    HostStep ⟨.procedure, σ, .run (.done p), .push (.forking k (e :: later)) rest⟩
      ⟨.step, (σ.newInstance p y.memo y.settings [.host k]).2.modifyInstance σ.instances.length
          (·.lend),
        .call (.resume p none), .push (.replaying σ.instances.length e later)
          (.push (.adopting k σ.instances.length) rest)⟩
  | adopted {σ : State K} {k : ComponentId} {y : Component K} (i : InstanceId)
    (result : Except Fault Unit) (rest : Stack K .unit) (made : σ.components[k]? = some y) :
    HostStep ⟨.result, σ, .run (.done result), .push (.adopting k i) rest⟩
      ⟨.unit, σ.modifyComponent k (·.adopt i result), .run (.done ()),
        .push (.requesting k) rest⟩

/-- What can follow a configuration. -/
inductive Transition (β : Behaviour K) (c d : Config K) : Prop
  | code (step : CodeStep β c d)
  | drive (step : DriveStep c d)
  | replay (step : ReplayStep c d)
  | task (step : TaskStep c d)
  | signal (step : SignalStep c d)
  | host (step : HostStep c d)

end Config

namespace Next

open Config

variable {β : Behaviour K} {stack : Stack K s} {c : Config K} {i : InstanceId} {k : ComponentId}
  {n : Position} {p : K.Procedure} {answer : Except Fault K.Yielded}

theorem Holds.dismisses {y : Component K} {use : State K → Next K} {P : Config K → Prop}
    (h : ∀ σ', σ.Dismisses stack k y σ' → (use σ').Holds P) :
    (Next.dismissing σ stack k y use).Holds P :=
  Holds.dismissing (fun none => h _ (.vacant none))
    fun _ _ has unlocked found => h _ (.taken has unlocked found)

theorem startStep_transition (stack : Stack K .result) :
    (startStep σ stack i).Holds (DriveStep ⟨.result, σ, .advance i, stack⟩) := by
  refine Holds.startStep ?idle ?refused ?started
  case idle => exact fun x answer unlocked found busy => holds_give.mpr (.idle unlocked found busy answer)
  case refused =>
    exact fun x fault unlocked found paused reason =>
      holds_give.mpr (.refused unlocked found paused reason)
  case started =>
    exact fun x p unlocked found paused room has =>
      holds_call.mpr (.started unlocked found paused room has)

theorem interpret_transition {rest : Stack K .result} {x : Instance K}
    (found : σ.instances[i]? = some x) (alive : x.status ≠ .terminated)
    (effect : Effect K.Artifact K.Producer K.Computation) :
    (interpret (σ.modifyInstance i (·.takeBack p)) rest i (x.takeBack p) n effect).Holds
      (DriveStep ⟨.step, σ, .run (.done (p, .ok (.effect effect))), .push (.stepping i n) rest⟩) := by
  refine Holds.interpret ?recorded ?computing ?launching ?stranded
  case recorded =>
    intro e records
    refine holds_emit.mpr ?_
    rw [State.modifyInstance_modifyInstance]
    exact .recorded p rest found alive records
  case computing =>
    rintro computation keys rfl missed
    exact holds_call.mpr (.computing p computation rest found alive missed)
  case launching =>
    rintro producer keys rfl missed
    exact holds_call.mpr (.launching p producer rest found alive missed)
  case stranded =>
    rintro producer keys rfl missed alone
    refine holds_give.mpr ?_
    rw [State.modifyInstance_modifyInstance]
    exact .stranded p producer rest found alive missed alone

theorem finishStep_transition (rest : Stack K .result) :
    (finishStep σ rest i n p answer).Holds
      (DriveStep ⟨.step, σ, .run (.done (p, answer)), .push (.stepping i n) rest⟩) := by
  refine Holds.finishStep ?overtaken ?failed ?completed ?effect
  case overtaken => exact fun x found gone => holds_give.mpr (.overtaken n p answer rest found gone)
  case failed =>
    rintro x fault found alive rfl
    refine holds_give.mpr ?_
    rw [State.modifyInstance_modifyInstance]
    exact .failed n p fault rest found alive
  case completed =>
    rintro x a found alive rfl
    refine holds_emit.mpr ?_
    rw [State.modifyInstance_modifyInstance]
    exact .completed n p a rest found alive
  case effect =>
    rintro x effect found alive rfl
    exact interpret_transition found alive effect

theorem finishComputation_transition (rest : Stack K .result) (keys : List Value) (v : Value) :
    (finishComputation σ rest i n keys v).Holds
      (DriveStep ⟨.value, σ, .run (.done v), .push (.computing i n keys) rest⟩) := by
  refine Holds.finishComputation ?outdated ?recorded
  case outdated => exact fun x found gone => holds_give.mpr (.outdated n keys v rest found gone)
  case recorded => exact fun x found alive => holds_emit.mpr (.computed n keys v rest found alive)

theorem finishReplayed_transition (rest : Stack K .result) (e : Entry K.Artifact)
    (later : History K.Artifact) : (finishReplayed σ rest i e later p answer).Holds
      (ReplayStep ⟨.step, σ, .run (.done (p, answer)), .push (.replaying i e later) rest⟩) := by
  refine Holds.finishReplayed ?diverged ?completed ?ended ?resumed
  case diverged =>
    exact fun x d found => holds_give.mpr (.diverged e later p answer rest found d)
  case completed =>
    rintro x a b found rfl rfl rfl
    exact holds_give.mpr (.completed a b p rest found)
  case ended =>
    rintro x effect found rfl fits rfl
    refine holds_give.mpr ?_
    rw [State.modifyInstance_modifyInstance]
    exact .ended p rest found fits
  case resumed =>
    rintro x effect next others found rfl fits rfl
    exact holds_call.mpr (.resumed next others p rest found fits)

theorem settle_transition {stack : Stack K .unit} {task : Task K} {outcome : Except Failure Value}
    (completes : c.Completes stack task outcome) :
    (settle c.state stack task outcome).Holds (TaskStep c) := by
  refine Holds.settle ?gone ?ignored ?settled ?rejected
  case gone => exact fun dead => holds_give.mpr (.gone completes dead)
  case ignored => exact fun x found reason => holds_give.mpr (.ignored completes found reason)
  case settled =>
    rintro x v σ' found running position rfl stored
    exact holds_emit.mpr (.settled completes found running position stored)
  case rejected =>
    rintro x failure found running position rfl
    exact holds_emit.mpr (.rejected completes found running position)

theorem requestRender_transition {stack : Stack K .unit} (requesting : c.Requesting k stack) :
    (requestRender c.state stack k).Holds (SignalStep c) := by
  refine Holds.requestRender ?marked ?asked
  case marked => exact fun y made rendering => holds_give.mpr (.marked requesting made rendering)
  case asked => exact fun y made unmarked => holds_call.mpr (.requested requesting made unmarked)

theorem fork_transition {stack : Stack K .unit} {h : History K.Artifact}
    (reacting : c.Reacting k (.forked h) stack) :
    (fork c.state stack k h).Holds (SignalStep c) := by
  refine Holds.withComponent fun y unlocked made => ?_
  split
  · next without => exact holds_give.mpr (.bare reacting made without)
  · next inputs given =>
    exact Holds.dismisses fun σ' dismisses =>
      holds_call.mpr (.forked reacting unlocked made given dismisses)

theorem deliver_transition {stack : Stack K .unit} {source : Source} {signal : Signal K.Artifact}
    {observers : List (Observer K)} (delivering : c.Delivering source signal observers stack) :
    (deliver c.state stack source signal observers).Holds (SignalStep c) := by
  cases observers with
  | nil => exact holds_give.mpr (.delivered delivering)
  | cons observer others =>
    cases observer with
    | client o => exact holds_call.mpr (.noticed delivering)
    | host k =>
      refine Holds.react ?unheld ?requests ?forks ?rejects
      case unheld => exact fun dead => holds_give.mpr (.unheld delivering dead)
      case requests =>
        exact fun alive ready => requestRender_transition (.told (.intro delivering alive) ready)
      case forks =>
        rintro h alive rfl
        exact fork_transition (.intro delivering alive)
      case rejects =>
        rintro y fault alive made rfl
        exact holds_call.mpr (.rejected (.intro delivering alive) made)

theorem enter_transition (rest : Stack K .artifact) (inputs : K.Inputs) :
    (enter σ rest k inputs).Holds
      (HostStep ⟨.unit, σ, .run (.done ()), .push (.entering k inputs) rest⟩) := by
  refine Holds.withComponent fun y unlocked made => ?_
  cases has : y.current with
  | none => exact holds_call.mpr (.building unlocked made (.inl has))
  | some i =>
    cases given : y.inputs with
    | none => exact holds_call.mpr (.building unlocked made (.inr (by simp [given])))
    | some old =>
      cases unchanged : K.sameInputs old inputs with
      | true =>
        simp only [unchanged]
        exact holds_advance.mpr (.continued unlocked made has given unchanged)
      | false =>
        simp only [unchanged]
        exact holds_call.mpr (.building unlocked made (.inr (by simp [given, unchanged])))

theorem finishMount_transition (rest : Stack K .artifact) (inputs : K.Inputs) :
    (finishMount σ rest k inputs p).Holds
      (HostStep ⟨.procedure, σ, .run (.done p), .push (.mounting k inputs) rest⟩) := by
  simp only [finishMount]
  split
  · exact holds_error
  · next y made =>
    exact Holds.dismisses fun σ' dismisses => holds_advance.mpr (.mounted inputs made dismisses)

theorem review_transition (rest : Stack K .artifact) (answer : Except Fault K.Artifact) :
    (review σ rest k answer).Holds
      (HostStep ⟨.artifact, σ, .run (.done answer), .push (.reviewing k) rest⟩) := by
  refine Holds.review ?done ?again
  case done => exact fun y made awake => holds_give.mpr (.reviewed answer rest made awake)
  case again =>
    exact fun y i x made has found paused => holds_call.mpr (.again answer rest made has found paused)

theorem finishBuild_transition (rest : Stack K .unit) (h : History K.Artifact) :
    (finishBuild σ rest k h p).Holds
      (HostStep ⟨.procedure, σ, .run (.done p), .push (.forking k h) rest⟩) := by
  simp only [finishBuild]
  split
  · exact holds_error
  · next y made =>
    cases h with
    | nil => exact holds_give.mpr (.empty p rest made)
    | cons e later =>
      refine Holds.withInstance fun x _ found => ?_
      rw [State.newInstance_fst, State.instances_newInstance, if_pos rfl] at found
      cases found
      exact holds_call.mpr (.replaying e later p rest made)

theorem serve_transition (next : w.Answer K → Code K (s.Answer K)) (stack : Stack K s)
    (request : Request K w) : (serve σ (.push (.waiting next) stack) request).Holds
      (Transition β ⟨s, σ, .run (.call request next), stack⟩) := by
  have replied : ∀ {σ' answer}, σ.Replies (.push (.waiting next) stack) request σ' answer →
      (give σ' (.push (.waiting next) stack) answer).Holds
        (Transition β ⟨s, σ, .run (.call request next), stack⟩) :=
    fun replies => holds_give.mpr (.code (.replied replies))
  cases request with
  | newMemo => exact replied .newMemo
  | memo m => exact replied (.memo m)
  | remember m n keys v => exact replied (.remember m n keys v)
  | clearMemo m => exact replied (.clearMemo m)
  | newRegistry => exact replied .newRegistry
  | registry id => exact replied (.registry id)
  | subscribe source o => exact replied (.subscribe source o)
  | unsubscribe source n => exact replied (.unsubscribe source n)
  | emit id signal => exact holds_emit.mpr (.code (.emitted σ id signal next stack))
  | closeRegistry id => exact replied (.closeRegistry id)
  | newInstance p m settings => exact replied (.newInstance p m settings)
  | instanceView i =>
    exact Holds.withInstance fun _ unlocked found => replied (.instanceView unlocked found)
  | instanceMemo i =>
    simp only [serve]
    split
    · exact holds_error
    · next found => exact replied (.instanceMemo found)
  | proceed i => exact holds_advance.mpr (.code (.driven σ i next stack))
  | replay i h =>
    refine Holds.replay ?answered ?started
    case answered => exact fun answer => replied (.replay i h answer)
    case started =>
      rintro x p e later _ found fresh paused has rfl
      exact holds_call.mpr (.replay (.started e later next stack found fresh paused has))
  | terminate i =>
    exact Holds.withInstance fun _ unlocked found => replied (.terminate unlocked found)
  | fire setter v =>
    simp only [serve, fire]
    split
    · next alive => exact holds_emit.mpr (.code (.fired v alive))
    · next gone => exact replied (.fire v (by simpa using gone))
  | newComponent factory callback settings => exact replied (.newComponent factory callback settings)
  | componentView k =>
    exact Holds.withComponent fun _ unlocked made => replied (.componentView unlocked made)
  | render k inputs =>
    exact Holds.render fun _ made => holds_give.mpr (.host (.marked inputs next stack made))
  | reset k =>
    exact Holds.withComponent fun _ unlocked made => Holds.dismisses fun _ dismisses =>
      replied (.reset unlocked made dismisses)
  | unmount k =>
    exact Holds.withComponent fun _ unlocked made => Holds.dismisses fun _ dismisses =>
      replied (.unmount unlocked made dismisses)
  | takeFault k =>
    simp only [serve]
    split
    · exact holds_error
    · next made => exact replied (.takeFault made)
  | drain =>
    simp only [serve, drain]
    split
    · next idle => exact replied (.drain idle)
    · next ready => exact holds_call.mpr (.task (.polled (.asked σ next stack) ready))
  | openGate gate => exact replied (.openGate gate)
  | retain handle => exact replied (.retain handle)
  | release handle => exact replied (.release handle)
  | call c => exact holds_ok.mpr (.code (.called σ c next stack))

theorem resume_transition (rest : Stack K w) (frame : Frame K s w) (answer : s.Answer K) :
    (resume σ rest frame answer).Holds
      (Transition β ⟨s, σ, .run (.done answer), .push frame rest⟩) := by
  cases frame with
  | waiting next => exact holds_run.mpr (.code (.answered σ next answer rest))
  | stepping i n => exact (finishStep_transition rest).imp fun _ => .drive
  | computing i n keys => exact (finishComputation_transition rest keys answer).imp fun _ => .drive
  | launching i n keys => exact holds_give.mpr (.drive (.launched σ i n keys answer rest))
  | proceeding i => exact holds_advance.mpr (.drive (.proceeded σ i rest))
  | replaying i e later => exact (finishReplayed_transition rest e later).imp fun _ => .replay
  | emitting source others signal =>
    exact (deliver_transition (.further σ)).imp fun _ => .signal
  | entering k inputs => exact (enter_transition rest inputs).imp fun _ => .host
  | mounting k inputs => exact (finishMount_transition rest inputs).imp fun _ => .host
  | rendering k i =>
    exact Holds.finishRender fun _ _ found made =>
      holds_give.mpr (.host (.unmarked answer rest found made))
  | reviewing k => exact (review_transition rest answer).imp fun _ => .host
  | rerendering k result => exact holds_give.mpr (.host (.rerendered σ k result rest))
  | forking k h => exact (finishBuild_transition rest h).imp fun _ => .host
  | adopting k i =>
    exact Holds.finishFork fun _ made => holds_give.mpr (.host (.adopted i answer rest made))
  | requesting k => exact (requestRender_transition (.adopted σ rest)).imp fun _ => .signal
  | hosting k => exact holds_give.mpr (.signal (.hosted σ k rest))
  | polling task =>
    cases answer with
    | ready r => exact (settle_transition (.answered σ r)).imp fun _ => .task
    | later future => exact holds_give.mpr (.task (.postponed σ task future rest))
    | parked gate future => exact holds_give.mpr (.task (.parked σ task gate future rest))
  | settling i => exact holds_give.mpr (.task (.told σ i rest))
  | draining =>
    simp only [resume, drain]
    split
    · next idle => exact holds_give.mpr (.task (.drained rest idle))
    · next ready => exact holds_call.mpr (.task (.polled (.again σ rest) ready))
  | suspended control => exact holds_error

theorem unwind_transition (rest : Stack K w) (frame : Frame K s w) (payload : Payload) :
    (unwind σ rest payload frame).Holds
      (Transition β ⟨s, σ, .run (.panic payload), .push frame rest⟩) := by
  cases frame with
  | polling task => exact (settle_transition (.panicked σ payload)).imp fun _ => .task
  | settling i => exact holds_give.mpr (.task (.spared σ payload i rest))
  | suspended control => exact holds_error
  | _ => exact holds_run.mpr (.code (.dropped σ payload rest rfl))

end Next

namespace Config

variable {β : Behaviour K} {c d : Config K}

theorem transition_of_step (step : c.step β = .ok d) : Transition β c d := by
  refine (?_ : (c.step β).Holds (Transition β c)) d step
  obtain ⟨s, σ, control, stack⟩ := c
  cases control with
  | call call => exact Next.holds_run.mpr (.code (.entered σ call stack))
  | emit source signal => exact (Next.deliver_transition (.sent σ rfl)).imp fun _ => .signal
  | advance i => exact (Next.startStep_transition stack).imp fun _ => .drive
  | run code =>
    cases code with
    | read next => exact Next.holds_run.mpr (.code (.read σ next stack))
    | write memory next => exact Next.holds_run.mpr (.code (.wrote σ memory next stack))
    | call request next => exact Next.serve_transition next stack request
    | done answer =>
      cases stack with
      | empty => exact Next.holds_error
      | push frame rest =>
        rw [step_done]
        exact Next.resume_transition rest frame answer
    | panic payload =>
      cases stack with
      | empty => exact Next.holds_error
      | push frame rest =>
        rw [step_panic]
        exact Next.unwind_transition rest frame payload

theorem Follows.transition (follows : Follows β c d) : Transition β c d := by
  cases follows with
  | step step => exact transition_of_step step
  | next σ result memory ambient code => exact .code (.begun σ result memory ambient code)

end Config

end Resumable
