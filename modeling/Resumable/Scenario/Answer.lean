import Resumable.Scenario.Operation
import Resumable.Timeline.Json

namespace Resumable.Scenario

structure InstanceReport where
  status : Status
  position : Position
  text : String

def InstanceReport.ofView (v : InstanceView Artifact) : InstanceReport :=
  ⟨v.status, v.position, (v.history.latestView?.getD Artifact.blank).text⟩

inductive Ran where
  | nothing
  | value (value : Value)
  | pending
  | outcome (outcome : Except String Value)

inductive YieldReport where
  | complete (artifact : Artifact) (text : String)
  | effect (kind : EffectKind) (text : String) (ran : Ran)

inductive Answer where
  | nothing
  | ok
  | invalid
  | noSuch (name : String)
  | wrongObject (name : String)
  | noSetter (name : String)
  | flag (b : Bool)
  | number (n : Nat)
  | text (text : String)
  | names (first second : String)
  | fault (fault : Fault)
  | value (value : Value)
  | described (value : Value)
  | hit (value : Value)
  | miss
  | size (n : Nat)
  | programSize (n : Nat)
  | entries (history : History Artifact)
  | entry (entry : Entry Artifact)
  | historyReport (history : History Artifact)
  | timelineEntry (entry : TimelineEntry)
  | timeline (timeline : Timeline)
  | artifact (artifact : Artifact)
  | instanceReport (report : InstanceReport)
  | registryReport (registry : Registry Unit)
  | setter (setter : Setter Artifact)
  | cell (cell : Cell Artifact)
  | yielded (report : YieldReport)

inductive Event where
  | got (name : String) (value : Option Value) (setter : Option (Setter Artifact))
  | logged (value : Value)
  | input (input : Option (Resumption Artifact))
  | computed (name : String)
  | produced (name : String)
  | heard (tag : String) (signal : Signal Artifact)
  | answered (command : String) (answer : Answer)
  | built (number : Nat) (props : Value)
  | asked (number : Nat)

end Resumable.Scenario
