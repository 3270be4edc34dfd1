import Resumable.Effect.Kind
import Resumable.Value.Basic

namespace Resumable

/-- The index of a step in a history; also the number of steps before it. -/
abbrev Position := Nat

inductive Payload where
  | text (message : String)
  | other
  deriving DecidableEq, Repr

def Payload.describe : Payload → String
  | text message => message
  | other => "unknown panic"

inductive Breach where
  | valueMissing
  | valueExpected
  | cellMissing
  | cellExpected (found : ValueKind)
  | localUnset (name : String)
  | exhausted (steps : Nat)
  | proceedInsideStep
  | procedureMissing
  | replayNotFresh
  | replayInsideStep
  | other (reason : String)
  deriving DecidableEq, Repr

def Breach.reason : Breach → String
  | valueMissing => "expected a value, got nothing"
  | valueExpected => "expected a value, got a state cell"
  | cellMissing => "expected a state cell, got nothing"
  | cellExpected found => "expected a state cell, got a " ++ found.name ++ " value"
  | localUnset name => "local `" ++ name ++ "` was never set"
  | exhausted steps =>
    "resumed after the last of " ++ toString steps ++ " steps without completing"
  | proceedInsideStep => "proceed called from inside a running step"
  | procedureMissing => "procedure is missing"
  | replayNotFresh => "replay needs a fresh, paused instance"
  | replayInsideStep => "replay re-entered from inside a step"
  | other reason => reason

/-- How a procedure under replay left the recorded history. -/
inductive Divergence where
  | otherEffect (found : EffectKind)
  | completedEarly
  | stepFailed (report : String)
  | other (reason : String)
  deriving DecidableEq, Repr

def Divergence.reason : Divergence → String
  | otherEffect found => "procedure yielded " ++ found.tag ++ " where the history differs"
  | completedEarly => "procedure completed before the history ended"
  | stepFailed report => report
  | other reason => reason

inductive Failure where
  | failed (message : String)
  | panicked (payload : Payload)
  deriving DecidableEq, Repr

def Failure.message : Failure → String
  | failed message => message
  | panicked payload => "producer panicked: " ++ payload.describe

inductive Fault where
  | contract (position : Position) (breach : Breach)
  | diverged (position : Position) (divergence : Divergence)
  | producer (position : Position) (failure : Failure)
  | noRuntime (position : Position)
  | historyLimit (limit : Nat)
  deriving DecidableEq, Repr

namespace Fault

def message : Fault → String
  | contract position breach =>
    "contract violation at position " ++ toString position ++ ": " ++ breach.reason
  | diverged position divergence =>
    "replay diverged at position " ++ toString position ++ ": " ++ divergence.reason
  | producer position failure =>
    "producer rejected at position " ++ toString position ++ ": " ++ failure.message
  | noRuntime position =>
    "no tokio runtime available to drive the producer at position " ++ toString position
  | historyLimit limit => "history limit of " ++ toString limit ++ " steps exceeded"

def position? : Fault → Option Position
  | contract position _ => some position
  | diverged position _ => some position
  | producer position _ => some position
  | noRuntime position => some position
  | historyLimit _ => none

/-- A procedure does not know where in the history it stands: a breach it reports gets its
position from the interpreter, every other fault keeps its own. -/
def stamp (position : Position) : Fault → Fault
  | contract _ breach => contract position breach
  | fault => fault

end Fault

end Resumable
