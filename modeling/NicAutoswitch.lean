import NicAutoswitch.Lib.Edits
import NicAutoswitch.Lib.HashMaps
import NicAutoswitch.Lib.Run
import NicAutoswitch.Lib.StateProg
import NicAutoswitch.Router.Messages
import NicAutoswitch.Engine.FreedIndices
import NicAutoswitch.Engine.Handlers
import NicAutoswitch.Engine.TableIndices
import NicAutoswitch.Engine.LinkState
import NicAutoswitch.Engine.OwnTables
import NicAutoswitch.Engine.LinkFlap
import NicAutoswitch.Engine.TableRanges
import NicAutoswitch.Engine.WifiRules
import NicAutoswitch.Monitor.PollReplay
import NicAutoswitch.Kernel.FlushScope
import NicAutoswitch.Kernel.DownCleanup
import NicAutoswitch.Kernel.Leftovers
import NicAutoswitch.Kernel.Orphans
import NicAutoswitch.Kernel.Reload
import NicAutoswitch.Kernel.Provenance
import NicAutoswitch.Kernel.Removal
import NicAutoswitch.Kernel.SharedTable
import NicAutoswitch.Kernel.Tracking
import NicAutoswitch.Engine.Matcher
import NicAutoswitch.Kernel.PolicyRouting
import NicAutoswitch.Engine.LinkAgreement
import NicAutoswitch.Engine.LateUp
import NicAutoswitch.Engine.Draining
import NicAutoswitch.Config.Loader
import NicAutoswitch.Engine.DryRun
import NicAutoswitch.Lib.Broadcast
import NicAutoswitch.Config.LoaderRuns
import NicAutoswitch.Daemon.Signals
import NicAutoswitch.Daemon.Service
import NicAutoswitch.Daemon.SignalLoss
import NicAutoswitch.Daemon.ManagerInForce
import NicAutoswitch.Engine.HashOrder
import NicAutoswitch.Daemon.Control
import NicAutoswitch.Cli.Client
import NicAutoswitch.Engine.TaskAlone
import NicAutoswitch.Engine.TaskSteps
import NicAutoswitch.Kernel.TaskRequests
import NicAutoswitch.Kernel.ConcurrentDefaults
import NicAutoswitch.Engine.AllMatches
import NicAutoswitch.Engine.BestMatch
import NicAutoswitch.Config.Accepted
import NicAutoswitch.Engine.Wildcards
import NicAutoswitch.Engine.Destinations
import NicAutoswitch.Daemon.MainLoop
import NicAutoswitch.Kernel.FailedApply
import NicAutoswitch.Kernel.Repeated
import NicAutoswitch.Kernel.EventTwice
import NicAutoswitch.Kernel.Agreement
import NicAutoswitch.Daemon.Exits
import NicAutoswitch.Daemon.ControlServer
import NicAutoswitch.Daemon.Process
import NicAutoswitch.Engine.Knowledge
import NicAutoswitch.Engine.RouteLifetime
import NicAutoswitch.Router.Dns
import NicAutoswitch.Router.DnsCache
import NicAutoswitch.Router.DnsLookups
import NicAutoswitch.Router.DnsPruning
import NicAutoswitch.Config.Watcher
import NicAutoswitch.Config.Replacements
import NicAutoswitch.Config.WatcherTasks
import NicAutoswitch.Daemon.ShutdownFuture
import NicAutoswitch.Kernel.FlushTracking
import NicAutoswitch.Kernel.Footprint
import NicAutoswitch.Kernel.SingleInterface
import NicAutoswitch.Kernel.Withdrawal
import NicAutoswitch.Engine.MatchBy
import NicAutoswitch.Engine.SsidRecords
import NicAutoswitch.Engine.FailingRules
import NicAutoswitch.Engine.Interleavings
import NicAutoswitch.Engine.Serial
import NicAutoswitch.Engine.InterleavedRoutes
import NicAutoswitch.Kernel.Forwarding
import NicAutoswitch.Config.Format
import NicAutoswitch.Kernel.Linux
import NicAutoswitch.Kernel.LinuxCalls
import NicAutoswitch.Kernel.LiveRemoval
