import Resumable.Machine.Config

namespace Resumable

namespace Next

variable {K : Client}

/-- Puts a fresh, paused instance at the end of a history: its procedure has to answer to each
entry with an effect that records such an entry, and only a history that ends with a completion
may meet one. Nothing is computed, produced or signalled. -/
def replay (σ : State K) (stack : Stack K .result) (id : InstanceId) :
    History K.Artifact → Next K
  | [] => give σ stack (.ok ())
  | entry :: rest =>
    withInstance σ stack id fun x =>
      if x.history ≠ [] ∨ x.status ≠ .paused then
        give σ stack (.error (.contract x.position .replayNotFresh))
      else match x.procedure with
        | none => give σ stack (.error (.contract 0 .replayInsideStep))
        | some p =>
          call (σ.modifyInstance id (·.lend)) (.replaying id entry rest) stack (.resume p none)

def finishReplayed (σ : State K) (stack : Stack K .result) (id : InstanceId)
    (entry : Entry K.Artifact) (rest : History K.Artifact) (procedure : K.Procedure)
    (answer : Except Fault K.Yielded) : Next K :=
  match σ.instances[id]? with
  | none => .error .blocked
  | some x =>
    let diverge (d : Divergence) : Next K :=
      give (σ.modifyInstance id fun x => (x.takeBack procedure).fail) stack
        (.error (.diverged x.position d))
    match answer with
    | .error fault => diverge (.stepFailed fault.message)
    | .ok (.complete _) =>
      match entry, rest with
      | .view artifact, [] =>
        give (σ.modifyInstance id fun x => (x.takeBack procedure).complete artifact) stack (.ok ())
      | _, _ => diverge .completedEarly
    | .ok (.effect effect) =>
      if entry.recordedBy effect.kind then
        let σ := σ.modifyInstance id (·.record entry)
        match rest with
        | [] => give (σ.modifyInstance id (·.takeBack procedure)) stack (.ok ())
        | next :: rest =>
          call σ (.replaying id next rest) stack
            (.resume procedure (Resumption.fed? id x.history entry))
      else diverge (.otherEffect effect.kind)

end Next

end Resumable
