import PhysHarness.Lib.Outcome
import PhysHarness.Lib.Account
import PhysHarness.Lib.Table
import PhysHarness.Lib.Transition
import PhysHarness.System
import PhysHarness.Ledger.Conservation
import PhysHarness.Ledger.Pricing
import PhysHarness.Workspaces.Dispatch
import PhysHarness.Tasks.Moves
import PhysHarness.Tasks.Absorption
import PhysHarness.Tasks.Objectives
import PhysHarness.Lib.Acyclic
import PhysHarness.Lib.JsonRead
import PhysHarness.Lib.Bucket
import PhysHarness.Execution.Throughput
import PhysHarness.Lib.Paging
import PhysHarness.Execution.Shortening
import PhysHarness.Execution.RoundTrip
import PhysHarness.Execution.Journal
import PhysHarness.Execution.ArchiveRoundTrip
import PhysHarness.Commands.Replay
import PhysHarness.Tasks.Delegation
import PhysHarness.Leases.Fencing
import PhysHarness.Lineage.Continuations
import PhysHarness.Acceptance.Races
import PhysHarness.Outbox.Delivery
import PhysHarness.Commons.Acyclic
import PhysHarness.Commons.Modules
import PhysHarness.Commons.Standing
import PhysHarness.Workforce.Synthesis
import PhysHarness.Verification.Comparator
import PhysHarness.Sources.Cut
import PhysHarness.Sources.Flattening
import PhysHarness.Knowledge.Screening
import PhysHarness.Verification.Creation
import PhysHarness.Scheduling.Order
import PhysHarness.Scheduling.Selection
import PhysHarness.Lineage.Path
import PhysHarness.Execution.Recovery
import PhysHarness.Science.Identity
import PhysHarness.Execution.InputBound
import PhysHarness.Execution.Pruning
import PhysHarness.Commons.Inbox
import PhysHarness.Commons.Excerpts
import PhysHarness.Evaluation.Evidence
import PhysHarness.Evaluation.History
import PhysHarness.Evaluation.Statistics
import PhysHarness.Evaluation.Selection
import PhysHarness.Execution.GuestAtomicity
import PhysHarness.Commons.Referee
import PhysHarness.Commons.LongPole
import PhysHarness.Commons.Updates
import PhysHarness.Commons.InboxProgress
import PhysHarness.Commons.InboxRuns
import PhysHarness.Commons.ClaimRuns
import PhysHarness.Commons.WaitRuns
import PhysHarness.Knowledge.TitleReadings
import PhysHarness.Knowledge.TitleScreen
import PhysHarness.Repl.Header
import PhysHarness.Repl.Requests
import PhysHarness.Repl.Sync
import PhysHarness.Execution.SizeCache
import PhysHarness.Execution.NativeEffects
import PhysHarness.Learning.Datasets
import PhysHarness.Learning.Splits
