import AutoSwe.Agents.ToolChoice
import AutoSwe.Api.RateLimit
import AutoSwe.Finalization.CancellationWins
import AutoSwe.Finalization.Corruption
import AutoSwe.Finalization.EventLogs
import AutoSwe.Finalization.ReleaseGate
import AutoSwe.Finalization.SinkRevisions
import AutoSwe.Finalization.WaitingGates
import AutoSwe.Knowledge.Port
import AutoSwe.Knowledge.Uams
import AutoSwe.Messaging.Replay
import AutoSwe.Planning.Takeover
import AutoSwe.Planning.Totality
import AutoSwe.Sandbox.DependencyEdits
import AutoSwe.Sandbox.OutputCapture
import AutoSwe.Sandbox.ReleaseTree
import AutoSwe.Scheduler.AdmissionLocks
import AutoSwe.Scheduler.Cascade
import AutoSwe.Scheduler.ScanWindow
import AutoSwe.Tools.ApprovalBinding
import AutoSwe.Tools.Gate
import AutoSwe.Tools.Scripts
import AutoSwe.Worker.Attempts
import AutoSwe.Worker.Cancellation
import AutoSwe.Worker.DependencyContext
import AutoSwe.Worker.FinishedPair
import AutoSwe.Worker.ParkedRows
import AutoSwe.Workflows.State
