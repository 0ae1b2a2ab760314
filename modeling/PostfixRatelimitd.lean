import PostfixRatelimitd.Volume
import PostfixRatelimitd.Tally
import PostfixRatelimitd.Keyspace
import PostfixRatelimitd.Footprint
import PostfixRatelimitd.Transition
import PostfixRatelimitd.TaskPool
import PostfixRatelimitd.ByteLines
import PostfixRatelimitd.Windows
import PostfixRatelimitd.Plan
import PostfixRatelimitd.Redis
import PostfixRatelimitd.CheckAndRecord
import PostfixRatelimitd.CheckSpec
import PostfixRatelimitd.Limiter
import PostfixRatelimitd.History
import PostfixRatelimitd.SlidingWindow
import PostfixRatelimitd.PlanChanges
import PostfixRatelimitd.Isolation
import PostfixRatelimitd.Config
import PostfixRatelimitd.Protocol
import PostfixRatelimitd.PolicyGrammar
import PostfixRatelimitd.Daemon
import PostfixRatelimitd.Status
import PostfixRatelimitd.Reload
import PostfixRatelimitd.Control
import PostfixRatelimitd.ControlConnection
import PostfixRatelimitd.ReloadCoherence
import PostfixRatelimitd.NormalForm
import PostfixRatelimitd.SharedStore
import PostfixRatelimitd.AllOrNothing
import PostfixRatelimitd.DominatedWindows
import PostfixRatelimitd.LoadConfig
import PostfixRatelimitd.ControlDispatch
import PostfixRatelimitd.SenderNames
import PostfixRatelimitd.BucketLadder
import PostfixRatelimitd.ConnectionSlots
import PostfixRatelimitd.DaemonLog
import PostfixRatelimitd.PolicyConversation
import PostfixRatelimitd.DaemonEnforcement
import PostfixRatelimitd.DaemonRefusals
import PostfixRatelimitd.FileSystem
import PostfixRatelimitd.Startup
import PostfixRatelimitd.StartupExclusion
import PostfixRatelimitd.DaemonShutdown
import PostfixRatelimitd.StartupProgress
import PostfixRatelimitd.QuietSenders
import PostfixRatelimitd.ControlTool
import PostfixRatelimitd.DaemonStatus
