import Resumable.Machine.Host

namespace Resumable

namespace Next

variable {K : Client}

def deliver (σ : State K) (stack : Stack K .unit) (source : Source)
    (signal : Signal K.Artifact) : List (Observer K) → Next K
  | [] => give σ stack ()
  | .client o :: rest => call σ (.emitting source rest signal) stack (.notice o signal)
  | .host id :: rest => react σ (.push (.emitting source rest signal) stack) id signal

/-- Asks the owner of a slot to fork, unless the owner is gone. -/
def fire (σ : State K) (stack : Stack K .unit) (setter : Setter K.Artifact) (v : Value) : Next K :=
  if σ.sourceAlive stack setter.owner then
    emit σ stack (.ofInstance setter.owner) (.forked (setter.forked v))
  else give σ stack ()

end Next

end Resumable
