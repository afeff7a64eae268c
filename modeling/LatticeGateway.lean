import LatticeGateway.FrameRoundTrip
import LatticeGateway.SchedulerRun
import LatticeGateway.ChannelState
import LatticeGateway.ReplaySnapshot
import LatticeGateway.Executor
import LatticeGateway.Negotiator
import LatticeGateway.PluginRegistry
import LatticeGateway.TimerWheel
import LatticeGateway.Engine
import LatticeGateway.EngineHandlers
import LatticeGateway.EngineCalls
import LatticeGateway.ClosedAbsorbing
import LatticeGateway.EngineEffects
import LatticeGateway.HandlerEffects
import LatticeGateway.Delivery
import LatticeGateway.FragmentGap
import LatticeGateway.CreditBudget
import LatticeGateway.EngineBuffer
import LatticeGateway.Chunking
import LatticeGateway.HelloRoundTrip
import LatticeGateway.IdleOutbound
import LatticeGateway.Negotiation
import LatticeGateway.SchedulerLedger
import LatticeGateway.SchedulerProgress
import LatticeGateway.Acknowledgement
import LatticeGateway.ResumeRange
import LatticeGateway.ChannelReuse
import LatticeGateway.FrameIsolation
import LatticeGateway.PluginFamilies
import LatticeGateway.NegotiatedPlugins
import LatticeGateway.Gateway
import LatticeGateway.MessageFamily
import LatticeGateway.ConcurrentOpens
import LatticeGateway.FragmentAssembly
import LatticeGateway.DataSending
import LatticeGateway.DataReceiving
import LatticeGateway.EndToEnd
import LatticeGateway.Leb128
import LatticeGateway.ExtensionGrammar
import LatticeGateway.FrameGrammar
import LatticeGateway.CanonicalForm
import LatticeGateway.SnapshotRoundTrip
import LatticeGateway.EmissionTrace
import LatticeGateway.SnapshotLoading
import LatticeGateway.FrameNumbering
import LatticeGateway.ReplayRetention
import LatticeGateway.Patchwork
import LatticeGateway.FragmentPatches
import LatticeGateway.ReassemblerRefinement
import LatticeGateway.FragmentBudget
import LatticeGateway.FrameLimit
import LatticeGateway.AckPayload
import LatticeGateway.FlowArithmetic
import LatticeGateway.HelloPayload
import LatticeGateway.StableSort
import LatticeGateway.TraceLog
import LatticeGateway.TraceRoundTrip
import LatticeGateway.RoutePolicy
import LatticeGateway.PolicyText
import LatticeGateway.PolicyRoundTrip
import LatticeGateway.CrashSteps
import LatticeGateway.ReplayStore
import LatticeGateway.PluginLease
import LatticeGateway.RefCounts
import LatticeGateway.LeaseCounting
import LatticeGateway.RegisteredFactories
import LatticeGateway.FailedCalls
import LatticeGateway.JoinReplicas
import LatticeGateway.ChannelLives
import LatticeGateway.CloseExchange
import LatticeGateway.ShiftRegister
import LatticeGateway.SlotSearch
import LatticeGateway.CrcSlicing
import LatticeGateway.BurstDetection
import LatticeGateway.SliceAssembly
import LatticeGateway.FragmentInverse
import LatticeGateway.SendNumbering
import LatticeGateway.DeferredResults
import LatticeGateway.ThreadedExecutor
import LatticeGateway.ShardOrder
import LatticeGateway.RetryRounds
import LatticeGateway.LiveTimers
import LatticeGateway.ClockSteps
import LatticeGateway.KeepaliveTimers
import LatticeGateway.Keepalive
import LatticeGateway.KeepaliveRuns
import LatticeGateway.PongDeadline
import LatticeGateway.ChannelWindows
import LatticeGateway.GatewayRoutes
import LatticeGateway.RouteLookup
import LatticeGateway.BridgeDecision
import LatticeGateway.BridgePolicy
import LatticeGateway.PolicyReaders
import LatticeGateway.CertifiedFrames
import LatticeGateway.Health
import LatticeGateway.HealthCoherence
import LatticeGateway.ReentrantTasks
import LatticeGateway.TaskPartition
import LatticeGateway.MinimalVarints
import LatticeGateway.BoundedReads
import LatticeGateway.CheckedFeed
import LatticeGateway.SlotStates
import LatticeGateway.FeedBounds
import LatticeGateway.UnixTransport
import LatticeGateway.SocketNegotiation
import LatticeGateway.BridgeRelay
import LatticeGateway.BridgeRuns
import LatticeGateway.ResumeAnswers
import LatticeGateway.SnapshotSessions
import LatticeGateway.WireFrames
import LatticeGateway.StreamInspection
import LatticeGateway.OwnTraffic
import LatticeGateway.LivePeer
import LatticeGateway.NegotiatedLimit
