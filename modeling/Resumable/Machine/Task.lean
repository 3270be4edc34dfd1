import Resumable.Machine.Config

namespace Resumable

namespace Next

variable {K : Client}

/-- Takes in what became of a producer. It counts only for a living instance that still waits for
it. -/
def settle (σ : State K) (stack : Stack K .unit) (task : Task K)
    (outcome : Except Failure Value) : Next K :=
  if σ.instanceAlive stack task.owner then
    withInstance σ stack task.owner fun x =>
      if x.status ≠ .running ∨ x.position ≠ task.position then give σ stack ()
      else
        let stack := .push (.settling task.owner) stack
        match outcome with
        | .ok v =>
          let σ := match task.keys with
            | some keys => σ.remember x.memo task.position keys v
            | none => σ
          emit (σ.modifyInstance task.owner (·.record (.yielded v))) stack
            (.ofInstance task.owner) .ready
        | .error failure =>
          emit (σ.modifyInstance task.owner (·.fail)) stack (.ofInstance task.owner)
            (.rejected (.producer task.position failure))
  else give σ stack ()

def drain (σ : State K) (stack : Stack K .unit) : Next K :=
  match σ.ready with
  | [] => give σ stack ()
  | task :: rest =>
    call { σ with ready := rest } (.polling task) (.push .draining stack) (.poll task.future)

def finishPoll (σ : State K) (stack : Stack K .unit) (task : Task K) :
    Progress K.Future → Next K
  | .ready outcome => settle σ stack task (outcome.mapError Failure.failed)
  | .later future => give (σ.enqueue { task with future := future }) stack ()
  | .parked gate future => give (σ.park gate { task with future := future }) stack ()

end Next

end Resumable
