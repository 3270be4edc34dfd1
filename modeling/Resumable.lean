import Resumable.Text.CharSet
import Resumable.Text.GraphemeExtend
import Resumable.Text.Unprintable
import Resumable.Text.Quoted
import Resumable.Decimal
import Resumable.Value.Binary64
import Resumable.Value.Basic
import Resumable.Value.Text
import Resumable.Json.Basic
import Resumable.Json.Token
import Resumable.Json.Codec
import Resumable.Json.Printer
import Resumable.Json.Reader
import Resumable.Effect.Kind
import Resumable.Effect.Basic
import Resumable.Fault
import Resumable.Status
import Resumable.Procedure.Resumption
import Resumable.Procedure.StepSequence
import Resumable.History
import Resumable.Memo
import Resumable.Registry
import Resumable.Timeline.Basic
import Resumable.Timeline.Format
import Resumable.Timeline.Json
import Resumable.Machine.Client
import Resumable.Machine.Code
import Resumable.Machine.State
import Resumable.Machine.Stack
import Resumable.Machine.Config
import Resumable.Machine.Interpret
import Resumable.Machine.Replay
import Resumable.Machine.Host
import Resumable.Machine.Delivery
import Resumable.Machine.Task
import Resumable.Machine.Step
import Resumable.Scenario.Artifact
import Resumable.Scenario.Expr
import Resumable.Scenario.Operation
import Resumable.Scenario.Answer
import Resumable.Scenario.World
import Resumable.Scenario.Perform
import Resumable.Scenario.Conduct
import Resumable.Scenario.Session
import Resumable.Proofs.Objects
import Resumable.Proofs.Run
import Resumable.Proofs.Activity
import Resumable.Proofs.Branches
import Resumable.Proofs.Transition
import Resumable.Proofs.ActivityStep
import Resumable.Proofs.Silent
import Resumable.Proofs.Meaning
import Resumable.Proofs.Course
import Resumable.Proofs.Events
import Resumable.Proofs.Ending
import Resumable.Proofs.Family
import Resumable.Proofs.FamilyState
import Resumable.Proofs.Condition
import Resumable.Proofs.Changes
import Resumable.Proofs.Growth
import Resumable.Proofs.FamilyQuiet
import Resumable.Proofs.FamilyStep
import Resumable.Proofs.FamilyReplay
import Resumable.Proofs.FamilyRun
import Resumable.Proofs.Sketch
import Resumable.Proofs.Finality
import Resumable.Proofs.Settlement
import Resumable.Proofs.Passage
import Resumable.Proofs.Transit
import Resumable.Proofs.Agreement
import Resumable.Proofs.Calls
import Resumable.Proofs.Signals
import Resumable.Proofs.Resumptions
import Resumable.Proofs.Answers
import Resumable.Proofs.Loans
import Resumable.Proofs.Provenance
import Resumable.Proofs.Registries
import Resumable.Proofs.Snapshots
import Resumable.Proofs.Errands
import Resumable.Proofs.Feeding
import Resumable.Proofs.Hosting
import Resumable.Proofs.HostingState
import Resumable.Proofs.HostingTurns
import Resumable.Proofs.HostingStep
import Resumable.Proofs.HostingLeads
import Resumable.Proofs.HostingRun
import Resumable.Proofs.Firing
import Resumable.Proofs.Shifts
import Resumable.Proofs.Succession
import Resumable.Proofs.Hearing
import Resumable.Proofs.Reentry
import Resumable.Proofs.Settings
import Resumable.Proofs.HistoryBound
import Resumable.Proofs.Drives
import Resumable.Proofs.BoundedDrives
import Resumable.Proofs.Caching
import Resumable.Proofs.Calm
import Resumable.Proofs.Scanning
import Resumable.Proofs.Documents
import Resumable.Proofs.Sequences
import Resumable.Proofs.Lockstep
import Resumable.Proofs.Failures
import Resumable.Proofs.FiringRuns
import Resumable.Proofs.SettlementOrder
import Resumable.Proofs.FirstWrites
import Resumable.Proofs.Visits
import Resumable.Proofs.Requests
import Resumable.Proofs.ForkFaults
import Resumable.Proofs.Interleaving
import Resumable.Proofs.Slots
import Resumable.Proofs.Program
import Resumable.Proofs.Transparency
import Resumable.Proofs.Phases
import Resumable.Proofs.ProducerPanics
import Resumable.Proofs.Progress
import Resumable.Proofs.StatusInvariant
import Resumable.Proofs.ReplayEquivalence
import Resumable.Proofs.ReplayVerdict
import Resumable.Proofs.ScenarioSequences
import Resumable.Proofs.SetterSnapshots
import Resumable.Proofs.ShownSetters
import Resumable.Proofs.StateChange
import Resumable.Proofs.TimelineText
import Resumable.Proofs.Wakeup
