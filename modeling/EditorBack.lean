import EditorBack.KeyedTable
import EditorBack.Runs
import EditorBack.FencedLease
import EditorBack.Alternation
import EditorBack.FailFast
import EditorBack.Utf8Lossy
import EditorBack.CallTree
import EditorBack.LayeredRouter
import EditorBack.Cadence
import EditorBack.Tally
import EditorBack.EventOrder
import EditorBack.Models
import EditorBack.JobStore
import EditorBack.JobColumns
import EditorBack.DockerRun
import EditorBack.WithContainer
import EditorBack.RunRust
import EditorBack.Verdicts
import EditorBack.HandleMessage
import EditorBack.HandlerMoves
import EditorBack.RunHandle
import EditorBack.RequestLimit
import EditorBack.OutboxPublisher
import EditorBack.System
import EditorBack.SystemMoves
import EditorBack.StepStatements
import EditorBack.HandlePanics
import EditorBack.RowSteps
import EditorBack.TerminalRows
import EditorBack.LeaseFencing
import EditorBack.LiveLeases
import EditorBack.Staleness
import EditorBack.Requeues
import EditorBack.Provenance
import EditorBack.OrphanRows
import EditorBack.OutboxEvents
import EditorBack.StrandedJobs
import EditorBack.RecoveryLoops
import EditorBack.HeartbeatTask
import EditorBack.HeartbeatCadence
import EditorBack.ExecutionLease
import EditorBack.OrphanContainers
import EditorBack.OrphanCleanup
import EditorBack.StoredOutputs
import EditorBack.ExecFraming
import EditorBack.ConsumerLoop
import EditorBack.OwnMessages
import EditorBack.Fidelity
import EditorBack.Polls
import EditorBack.CallProgress
import EditorBack.OutboxDrain
import EditorBack.Recovery
import EditorBack.Deliveries
import EditorBack.OneAtATime
import EditorBack.RunWorker
import EditorBack.Shutdown
import EditorBack.Metrics
import EditorBack.HandleProgram
import EditorBack.StoppedTasks
import EditorBack.SharedHost
import EditorBack.Reclamation
import EditorBack.Cluster
import EditorBack.UnsettledRecords
import EditorBack.AttendedJobs
