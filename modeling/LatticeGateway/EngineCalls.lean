import LatticeGateway.EngineHandlers
import LatticeGateway.Runs

namespace LatticeGateway

/-- The public member functions of an engine, and those of its executor, with their arguments. -/
inductive Call
  | start
  | receive (bytes : Bytes) (eof : Bool)
  | openChannel (request : OpenRequest)
  | send (id : ChannelId) (payload : Bytes)
  | grantCredit (id : ChannelId) (amount : Nat)
  | acknowledge (ranges : List AckRange)
  | ping (token : UInt64)
  | resume (request : ResumeRequest)
  | completePlugin (completion : PluginCompletion)
  | advanceTime (nowMs : UInt64)
  | flushOutbound (writableBytes : Nat)
  | loadReplaySnapshot (text : Bytes)
  | halfClose (id : ChannelId) (direction : Direction)
  | reset (id : ChannelId)
  | goaway
  | submitTask (shard : UInt32) (result : Except Error Unit)
  | cancelTask (id : UInt64)
  | drainOne
  | drainAll

namespace ConnectionEngine

/-- The engine after a call. -/
def call (e : ConnectionEngine) : Call → ConnectionEngine
  | .start => e.start.2
  | .receive bytes eof => (e.receive bytes eof).2
  | .openChannel request => (e.openChannel request).2
  | .send id payload => (e.send id payload).2
  | .grantCredit id amount => (e.grantCredit id amount).2
  | .acknowledge ranges => (e.acknowledge ranges).2
  | .ping token => (e.ping token).2
  | .resume request => (e.resume request).2
  | .completePlugin completion => (e.completePlugin completion).2
  | .advanceTime nowMs => (e.advanceTime nowMs).2
  | .flushOutbound writableBytes => (e.flushOutbound writableBytes).2
  | .loadReplaySnapshot text => (e.loadReplaySnapshot text).2
  | .halfClose id direction => (e.halfClose id direction).2
  | .reset id => (e.reset id).2
  | .goaway => e.goaway.2
  | .submitTask shard result =>
    { e with executor := e.executor.map fun executor => (executor.submit shard (.foreign result)).2 }
  | .cancelTask id => { e with executor := e.executor.map fun executor => (executor.cancel id).2 }
  | .drainOne => e.drainOne.2
  | .drainAll => e.drainAll.2

/-- The chunks that a call hands to the transport. -/
def outbound : Except Error (List Bytes) → List Bytes
  | .error _ => []
  | .ok chunks => chunks

/-- A frame as a peer with the default limits writes it. -/
def frameBytes (frame : Frame) : Bytes :=
  match ({} : FrameCodec).encode frame with
  | .error _ => []
  | .ok encoded => encoded

/-- The calls that bring an engine with the echo plugin to negotiate with another of its policy. -/
def negotiation (policy : LocalPolicy) : List Call :=
  [.start, .receive (outbound (make policy echoRegistry none).start.1).flatten false]

end ConnectionEngine

end LatticeGateway
