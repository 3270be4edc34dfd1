import Resumable.Machine.Config

namespace Resumable

namespace Next

variable {K : Client}

/-- Starts the next step of a paused instance. An instance in any other status has nothing to do,
except that one whose step is running must not be driven from inside it. -/
def startStep (σ : State K) (stack : Stack K .result) (id : InstanceId) : Next K :=
  withInstance σ stack id fun x =>
    match x.status, x.procedure with
    | .running, none => give σ stack (.error (.contract x.position .proceedInsideStep))
    | .paused, procedure =>
      match x.exhausted?, procedure with
      | some limit, _ =>
        give (σ.modifyInstance id (·.fail)) stack (.error (.historyLimit limit))
      | none, none =>
        give (σ.modifyInstance id (·.fail)) stack
          (.error (.contract x.position .procedureMissing))
      | none, some p =>
        call (σ.modifyInstance id ({ ·.lend with status := .running }))
          (.stepping id x.position) stack (.resume p (Resumption.next? id x.history))
    | _, _ => give σ stack (.ok ())

def record (σ : State K) (stack : Stack K .result) (id : InstanceId) (e : Entry K.Artifact) :
    Next K :=
  emit (σ.modifyInstance id (·.record e)) (.push (.proceeding id) stack) (.ofInstance id) .ready

/-- Acts on an effect at a position: shows it, looks it up, or has the value computed or produced.
-/
def interpret (σ : State K) (stack : Stack K .result) (id : InstanceId) (x : Instance K)
    (position : Position) : Effect K.Artifact K.Producer K.Computation → Next K
  | .render artifact => record σ stack id (.view artifact)
  | .hold initial => record σ stack id (.state initial)
  | .compute computation keys =>
    match (σ.memo x.memo).lookup position keys with
    | some v => record σ stack id (.yielded v)
    | none => call σ (.computing id position keys) stack (.compute computation)
  | .await producer keys =>
    match keys.bind ((σ.memo x.memo).lookup position) with
    | some v => record σ stack id (.yielded v)
    | none =>
      if x.settings.runtime || σ.ambient || stack.onTask then
        call σ (.launching id position keys) stack (.produce producer)
      else
        give (σ.modifyInstance id (·.fail)) stack (.error (.noRuntime position))

/-- Acts on the answer of a step, with the procedure taken back. What a step of an instance
answers that was terminated meanwhile counts for nothing. -/
def finishStep (σ : State K) (stack : Stack K .result) (id : InstanceId) (position : Position)
    (procedure : K.Procedure) (answer : Except Fault K.Yielded) : Next K :=
  let σ := σ.modifyInstance id (·.takeBack procedure)
  match σ.instances[id]? with
  | none => .error .blocked
  | some x =>
    if x.status = .terminated then give σ stack (.ok ())
    else match answer with
      | .error fault =>
        give (σ.modifyInstance id (·.fail)) stack (.error (fault.stamp position))
      | .ok (.complete artifact) =>
        emit (σ.modifyInstance id (·.complete artifact)) (.push (.proceeding id) stack)
          (.ofInstance id) .done
      | .ok (.effect effect) => interpret σ stack id x position effect

/-- Takes in a computed value: the memo keeps it in any case, the history unless the instance was
terminated meanwhile. -/
def finishComputation (σ : State K) (stack : Stack K .result) (id : InstanceId)
    (position : Position) (keys : List Value) (v : Value) : Next K :=
  match σ.instances[id]? with
  | none => .error .blocked
  | some x =>
    let σ := σ.remember x.memo position keys v
    if x.status = .terminated then give σ stack (.ok ())
    else record σ stack id (.yielded v)

end Next

end Resumable
