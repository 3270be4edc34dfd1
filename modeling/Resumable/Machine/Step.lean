import Resumable.Machine.Delivery
import Resumable.Machine.Task

namespace Resumable

namespace Next

variable {K : Client}

def serve (σ : State K) {s : Shape} (stack : Stack K s) : Request K s → Next K
  | .newMemo => let (id, σ) := σ.newMemo; give σ stack id
  | .memo id => give σ stack (σ.memo id)
  | .remember id position keys v => give (σ.remember id position keys v) stack ()
  | .clearMemo id => give (σ.clearMemo id) stack ()
  | .newRegistry => let (id, σ) := σ.newRegistry; give σ stack id
  | .registry id =>
    let r := σ.registry (.free id)
    give σ stack ⟨r.nextId, r.entries.map fun (n, _) => (n, ()), r.closed⟩
  | .subscribe source o =>
    give (σ.modifyRegistry source fun r => (r.subscribe (.client o)).2) stack
      (σ.registry source).nextId
  | .unsubscribe source n =>
    give (σ.modifyRegistry source fun r => (r.unsubscribe n).2) stack
      ((σ.registry source).unsubscribe n).1
  | .emit id signal => emit σ stack (.free id) signal
  | .closeRegistry id => give (σ.modifyRegistry (.free id) (·.close)) stack ()
  | .newInstance procedure memo settings =>
    let (id, σ) := σ.newInstance procedure memo settings []
    give σ stack id
  | .instanceView id => withInstance σ stack id fun x => give σ stack x.view
  | .instanceMemo id =>
    match σ.instances[id]? with
    | none => .error .blocked
    | some x => give σ stack x.memo
  | .proceed id => advance σ stack id
  | .replay id h => replay σ stack id h
  | .terminate id =>
    withInstance σ stack id fun _ => give (σ.modifyInstance id (·.terminate)) stack ()
  | .fire setter v => fire σ stack setter v
  | .newComponent factory callback settings =>
    let (id, σ) := σ.newComponent factory callback settings
    give σ stack id
  | .componentView id => withComponent σ stack id fun y => give σ stack y.view
  | .render id inputs => render σ stack id inputs
  | .reset id => reset σ stack id
  | .unmount id => unmount σ stack id
  | .takeFault id =>
    match σ.components[id]? with
    | none => .error .blocked
    | some y => give (σ.modifyComponent id ({ · with fault := none })) stack y.fault
  | .drain => drain σ stack
  | .openGate gate => let (count, σ) := σ.openGate gate; give σ stack count
  | .retain handle => give (σ.retain handle) stack ()
  | .release handle => give (σ.release handle) stack ()
  | .call c => .ok ⟨s, σ, .call c, stack⟩

def resume (σ : State K) {s w : Shape} (stack : Stack K w) :
    Frame K s w → s.Answer K → Next K
  | .waiting next, answer => run σ stack (next answer)
  | .stepping id position, (procedure, answer) =>
    finishStep σ stack id position procedure answer
  | .computing id position keys, v => finishComputation σ stack id position keys v
  | .launching id position keys, future =>
    give (σ.enqueue ⟨id, position, keys, future⟩) stack (.ok ())
  | .proceeding id, _ => advance σ stack id
  | .replaying id entry rest, (procedure, answer) =>
    finishReplayed σ stack id entry rest procedure answer
  | .emitting source rest signal, _ => deliver σ stack source signal rest
  | .entering id inputs, _ => enter σ stack id inputs
  | .mounting id inputs, procedure => finishMount σ stack id inputs procedure
  | .rendering id current, result => finishRender σ stack id current result
  | .reviewing id, answer => review σ stack id answer
  | .rerendering _ answer, _ => give σ stack answer
  | .forking id h, procedure => finishBuild σ stack id h procedure
  | .adopting id fresh, result => finishFork σ stack id fresh result
  | .requesting id, _ => requestRender σ stack id
  | .hosting _, _ => give σ stack ()
  | .polling task, progress => finishPoll σ stack task progress
  | .settling _, _ => give σ stack ()
  | .draining, _ => drain σ stack
  | .suspended _, _ => .error .returned

/-- Passes a panic to the innermost frame. A future that panics counts as a producer that failed,
and what an observer's panic leaves of a settlement stays; every other frame is dropped. -/
def unwind (σ : State K) {s w : Shape} (stack : Stack K w) (payload : Payload) :
    Frame K s w → Next K
  | .polling task => settle σ stack task (.error (.panicked payload))
  | .settling _ => give σ stack ()
  | .suspended _ => .error (.panicked payload)
  | _ => run σ stack (.panic payload)

end Next

namespace Config

variable {K : Client} (β : Behaviour K)

/-- One step of the thread that runs. There is one stack of frames: a future is polled only when client
code has the tasks polled, and threads that take turns are interleavings of these steps. -/
def step (c : Config K) : Next K :=
  match c with
  | ⟨_, σ, .call c, stack⟩ => Next.run σ stack (β.code c)
  | ⟨_, σ, .emit source signal, stack⟩ =>
    Next.deliver σ stack source signal (σ.registry source).observers
  | ⟨_, σ, .advance id, stack⟩ => Next.startStep σ stack id
  | ⟨_, σ, .run (.read next), stack⟩ => Next.run σ stack (next σ.memory)
  | ⟨_, σ, .run (.write memory next), stack⟩ => Next.run { σ with memory := memory } stack next
  | ⟨_, σ, .run (.call request next), stack⟩ => Next.serve σ (.push (.waiting next) stack) request
  | ⟨_, _, .run (.done _), .empty⟩ => .error .returned
  | ⟨_, σ, .run (.done answer), .push frame rest⟩ => Next.resume σ rest frame answer
  | ⟨_, _, .run (.panic payload), .empty⟩ => .error (.panicked payload)
  | ⟨_, σ, .run (.panic payload), .push frame rest⟩ => Next.unwind σ rest payload frame

def run : Nat → Config K → Option (Outcome × State K)
  | 0, _ => none
  | fuel + 1, c =>
    match c.step β with
    | .error outcome => some (outcome, c.state)
    | .ok next => run fuel next

def start (σ : State K) (code : Code K Unit) : Config K :=
  ⟨.unit, σ, .run code, .empty⟩

end Config

end Resumable
