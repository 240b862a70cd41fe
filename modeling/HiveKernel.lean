import HiveKernel.Process.TreeInvariant
import HiveKernel.Process.TreeSurgery
import HiveKernel.Resources.Budget
import HiveKernel.Resources.Solvency
import HiveKernel.Resources.Conservation
import HiveKernel.Kernel.King
import HiveKernel.Kernel.SpawnAtomicity
import HiveKernel.Kernel.CoreServer
import HiveKernel.Kernel.System
import HiveKernel.Kernel.SystemTable
import HiveKernel.Kernel.Absorbing
import HiveKernel.Kernel.KernelAlive
import HiveKernel.Ipc.Routing
import HiveKernel.Kernel.Routability
import HiveKernel.Kernel.KernelBudget
import HiveKernel.Kernel.Grants
import HiveKernel.Kernel.ReservationLedger
import HiveKernel.Process.EventLog
import HiveKernel.Process.EventStream
import HiveKernel.Process.EventOrder
import HiveKernel.Lib.TicketStore
import HiveKernel.Kernel.RestartRace
import HiveKernel.Kernel.RuntimeInstances
import HiveKernel.Kernel.ResultCollection
import HiveKernel.Kernel.WaitChild
import HiveKernel.Ipc.Broker
import HiveKernel.Ipc.Mailbox
import HiveKernel.Ipc.SharedMemory
import HiveKernel.Resources.Limits
import HiveKernel.Kernel.FrontEnds
import HiveKernel.Dashboard.Replica
import HiveKernel.Dashboard.Replication
import HiveKernel.Kernel.Lineage
import HiveKernel.Kernel.KillMediation
import HiveKernel.Kernel.ChildLimit
import HiveKernel.Resources.CGroupIndex
import HiveKernel.Kernel.Containment
import HiveKernel.Ipc.AgingQueue
import HiveKernel.Kernel.UsageLedgers
import HiveKernel.Resources.Reservations
import HiveKernel.Kernel.Residue
import HiveKernel.Sdk.Correlation
import HiveKernel.Process.NameIndex
import HiveKernel.Ipc.ArtifactStore
import HiveKernel.Kernel.ArtifactVisibility
import HiveKernel.Ipc.MessageIds
import HiveKernel.Ipc.Subscribers
import HiveKernel.Kernel.KingMail
import HiveKernel.Ipc.FilteredStream
import HiveKernel.Cluster.Discovery
import HiveKernel.Cluster.Migration
import HiveKernel.Cluster.Health
import HiveKernel.Cluster.MigrationRace
import HiveKernel.Ipc.Pipe
import HiveKernel.Lib.Slice
import HiveKernel.Ipc.EventBus
import HiveKernel.Scheduler.Cron
import HiveKernel.Sdk.AgentLoop
import HiveKernel.Sdk.Conversations
import HiveKernel.Sdk.LongTerm
import HiveKernel.Sdk.Pairing
import HiveKernel.Kernel.ResourceRequests
import HiveKernel.Resources.ExactChecks
import HiveKernel.Process.ReapScan
import HiveKernel.Process.Replay
import HiveKernel.Sdk.Assistant
import HiveKernel.Sdk.DrainedResults
import HiveKernel.Sdk.PendingRequests
import HiveKernel.Sdk.Delegations
import HiveKernel.Sdk.LeadPool
import HiveKernel.Sdk.LeadRuns
import HiveKernel.Sdk.Orchestrator
import HiveKernel.Sdk.SyscallMatching
import HiveKernel.Resources.GroupLimit
import HiveKernel.Ipc.RouteEffect
import HiveKernel.Kernel.Collapse
import HiveKernel.Kernel.RecursiveKill
import HiveKernel.Process.CommonAncestor
import HiveKernel.Process.RestartBound
import HiveKernel.Scheduler.CronRanges
import HiveKernel.Scheduler.NextRun
import HiveKernel.Kernel.SanitizeUTF8
import HiveKernel.Lib.JsonLexemes
import HiveKernel.Lib.Path
import HiveKernel.Lib.Regroup
import HiveKernel.Resources.CallWindows
import HiveKernel.Resources.UsageTotals
import HiveKernel.Sdk.JsonCodec
import HiveKernel.Sdk.MarkerBlocks
import HiveKernel.Sdk.PlanParsing
import HiveKernel.Sdk.Preflight
import HiveKernel.Sdk.Summaries
import HiveKernel.Sdk.TokenTotals
import HiveKernel.Sdk.WorkspaceTools
import HiveKernel.Cluster.Connector
import HiveKernel.Kernel.Startup
import HiveKernel.Kernel.TraceSpans
import HiveKernel.Process.GracePeriod
import HiveKernel.Dashboard.Mirror
import HiveKernel.Kernel.NestedTasks
import HiveKernel.Lib.Coroutine
import HiveKernel.Lib.Sweep
import HiveKernel.Sdk.Maid
import HiveKernel.Sdk.QueenTasks
import HiveKernel.Kernel.CronFiring
