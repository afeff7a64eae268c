import LatticeGateway.Executor
import LatticeGateway.FrameCodec
import LatticeGateway.OutboundScheduler
import LatticeGateway.PluginRegistry
import LatticeGateway.ReplaySnapshot
import LatticeGateway.TimerWheel

namespace LatticeGateway

structure OpenRequest where
  familyId : UInt32 := 7
  initialWindow : Nat := 256 * 1024
  deriving DecidableEq, Repr

structure ResumeRequest where
  transcriptHash : TranscriptHash
  epoch : UInt16 := 1
  firstRequiredSeq : UInt32 := 0
  deriving DecidableEq

inductive EventKind
  | negotiated | channelOpened | messageDelivered | pluginResponse | pongReceived | resumed
  | timerExpired | channelReset | halfClosed | closed | diagnostic
  deriving DecidableEq, Repr

structure ConnectionEvent where
  kind : EventKind := .diagnostic
  channel : ChannelId := {}
  sequence : UInt32 := 0
  payload : Bytes := []
  error : Option Error := none
  deriving DecidableEq, Repr

/-- The closures an executor holds: the engine's own, which runs a leased plugin and completes it,
and those of others, of which only the result is seen. -/
inductive EngineTask
  | dispatch (lease : Plugin) (message : LogicalMessage) (completion : PluginCompletion)
  | foreign (result : Except Error Unit)

structure ConnectionEngine where
  policy : LocalPolicy
  registry : PluginRegistry
  executor : Option (DeterministicExecutor EngineTask)
  codec : FrameCodec
  state : ConnectionState := .created
  capabilities : Option CapabilitySet := none
  channels : Option ChannelTable := none
  replay : ReplayWindow
  timers : TimerWheel := {}
  scheduler : OutboundScheduler
  nextFrameSeq : UInt32 := 1
  nextPluginToken : UInt64 := 1
  nowMs : UInt64 := 0
  pendingPongToken : Option UInt64 := none
  events : List ConnectionEvent := []

def kExtMessageSeq : UInt16 := 1
def kExtFragmentOffset : UInt16 := 2
def kExtMessageTotal : UInt16 := 3
def kExtFamilyId : UInt16 := 4
def kHandshakeTimeoutMs : UInt64 := 5000
def kIdlePingMs : UInt64 := 30000
def kPongTimeoutMs : UInt64 := 5000
def kDrainTimeoutMs : UInt64 := 1000
def kFragmentGapMs : UInt64 := 1000

def stateError (detail : String) : Error :=
  makeError .connection .illegalState .closeConnection detail

def decodeU64Be (payload : Bytes) : Except Error UInt64 :=
  if payload.length ≠ 8 then .error (sequenceError "u64 payload must be exactly eight bytes")
  else .ok (u64Of payload)

def encodeResumePayload (request : ResumeRequest) : Bytes :=
  request.transcriptHash.bytes ++ u16Bytes request.epoch ++ u32Bytes request.firstRequiredSeq

def decodeResumePayload (payload : Bytes) : Except Error ResumeRequest :=
  if h : payload.length = 22 then
    .ok { transcriptHash := ⟨payload.take 16, by rw [List.length_take, h]; rfl⟩
          epoch := u16At payload 16, firstRequiredSeq := u32At payload 18 }
  else .error (resumeRejected "RESUME payload length mismatch")

def findExtension (frame : Frame) (type : UInt16) : Option Extension :=
  frame.extensions.find? (·.type == type)

def extensionU32 (frame : Frame) (type : UInt16) : Except Error UInt32 :=
  let missing := makeError .message .malformedTlv .resetChannel "missing u32 extension"
  match findExtension frame type with
  | none => .error missing
  | some ext => if ext.value.length ≠ 4 then .error missing else readU32Be ext.value 0

namespace ConnectionEngine

def make (policy : LocalPolicy) (registry : PluginRegistry)
    (executor : Option (DeterministicExecutor EngineTask)) : ConnectionEngine :=
  { policy, registry, executor
    codec := { limits := { maxFrame := policy.maxFrame, maxHeader := 4096 } }
    replay := { capacity := policy.replayWindow.toNat }
    scheduler := { byteLimit := policy.connectionWindow } }

def record (e : ConnectionEngine) (kind : EventKind) (channel : ChannelId) (sequence : UInt32 := 0)
    (payload : Bytes := []) : ConnectionEngine :=
  { e with events := e.events ++ [{ kind, channel, sequence, payload }] }

def diagnostic (e : ConnectionEngine) (error : Error) : ConnectionEngine :=
  { e with events := e.events ++ [{ kind := .diagnostic, error := some error }] }

def scheduleTimer (e : ConnectionEngine) (kind : TimerKind) (channel : ChannelId) (delayMs : UInt64) :
    ConnectionEngine :=
  { e with timers := (e.timers.schedule kind channel (e.nowMs + delayMs)).2 }

def setSlot (e : ConnectionEngine) (channels : ChannelTable) (number : UInt32) (slot : ChannelSlot) :
    ConnectionEngine :=
  { e with channels := some (channels.setSlot number slot) }

def makeFrame (e : ConnectionEngine) (type : FrameType) (channel : ChannelId) (payload : Bytes)
    (extensions : List Extension := []) : Frame × ConnectionEngine :=
  ({ type, channel, frameSeq := e.nextFrameSeq, payload, extensions },
    { e with nextFrameSeq := e.nextFrameSeq + 1 })

def isControlFrame (type : FrameType) : Bool := type != .data

def outboundItem (frame : Frame) (encoded : Bytes) : OutboundItem :=
  { priority := if isControlFrame frame.type then .control else .data
    channel := frame.channel, sequence := frame.frameSeq, encoded }

def queueEncoded (e : ConnectionEngine) (frame : Frame) (encoded : Bytes) :
    Except Error Unit × ConnectionEngine :=
  let (queued, scheduler) := e.scheduler.enqueue (outboundItem frame encoded)
  (queued, { e with scheduler })

def flushOutbound (e : ConnectionEngine) (writableBytes : Nat) : List Bytes × ConnectionEngine :=
  let (out, scheduler) := e.scheduler.drain writableBytes
  (out.map (·.encoded), { e with scheduler })

def emit (e : ConnectionEngine) (frame : Frame) : Except Error (List Bytes) × ConnectionEngine :=
  match e.codec.encode frame with
  | .error error => (.error error, e)
  | .ok encoded =>
    match e.replay.record 1 frame.frameSeq encoded with
    | (.error error, replay) => (.error error, { e with replay })
    | (.ok _, replay) =>
      match { e with replay }.queueEncoded frame encoded with
      | (.error error, e) => (.error error, e)
      | (.ok _, e) =>
        let (out, e) := e.flushOutbound e.policy.connectionWindow
        (.ok out, e)

/-- `make_frame`, which never fails, and the `emit` that follows it everywhere. -/
def emitFrame (e : ConnectionEngine) (type : FrameType) (channel : ChannelId) (payload : Bytes)
    (extensions : List Extension := []) : Except Error (List Bytes) × ConnectionEngine :=
  let (frame, e) := e.makeFrame type channel payload extensions
  e.emit frame

def localHello (e : ConnectionEngine) : HelloMessage :=
  { minMajor := e.policy.minMajor, maxMajor := e.policy.maxMajor, limits := e.policy
    plugins := e.registry.descriptors }

def start (e : ConnectionEngine) : Except Error (List Bytes) × ConnectionEngine :=
  if e.state ≠ .created then (.error (stateError "connection already started"), e)
  else
    match encodeHelloPayload e.localHello with
    | .error error => (.error error, e)
    | .ok payload =>
      ({ e with state := .negotiating }.scheduleTimer .handshake {} kHandshakeTimeoutMs).emitFrame
        .hello {} payload

def openChannel (e : ConnectionEngine) (request : OpenRequest) :
    Except Error (ChannelId × List Bytes) × ConnectionEngine :=
  let inactive := stateError "OPEN before negotiated Active state"
  match e.channels, e.capabilities with
  | some channels, some capabilities =>
    if e.state ≠ .active then (.error inactive, e)
    else if capabilities.plugins.all (·.familyId ≠ request.familyId) then
      (.error (makeError .plugin .pluginDecode .rejectMessage
        "requested plugin family was not negotiated"), e)
    else
      match channels.allocate with
      | (.error error, channels) => (.error error, { e with channels := some channels })
      | (.ok id, channels) =>
        match channels.activate id with
        | (.error error, channels) => (.error error, { e with channels := some channels })
        | (.ok _, channels) =>
          let payload := u32Bytes request.familyId ++ u32Bytes (UInt32.ofNat request.initialWindow)
          match { e with channels := some channels }.emitFrame .open id payload with
          | (.error error, e) => (.error error, e)
          | (.ok bytes, e) => (.ok (id, bytes), e.record .channelOpened id)
  | _, _ => (.error inactive, e)

/-- The rounds of the loop of `send`: the offset of each fragment and its bytes. -/
def fragments (maxFragment : Nat) (payload : Bytes) : Nat → Nat → List (Nat × Bytes)
  | 0, _ => []
  | fuel + 1, offset =>
    if offset < payload.length then
      (offset, (payload.drop offset).take maxFragment) ::
        fragments maxFragment payload fuel (offset + maxFragment)
    else []

def fragmentExtensions (sequence : UInt32) (offset total : Nat) : List Extension :=
  [{ type := kExtMessageSeq, required := true, value := u32Bytes sequence },
    { type := kExtFragmentOffset, required := true, value := u32Bytes (UInt32.ofNat offset) },
    { type := kExtMessageTotal, required := true, value := u32Bytes (UInt32.ofNat total) },
    { type := kExtFamilyId, required := true, value := u32Bytes 7 }]

def sendLoop (id : ChannelId) (sequence : UInt32) (total : Nat) :
    List (Nat × Bytes) → ConnectionEngine → List Bytes → Except Error (List Bytes) × ConnectionEngine
  | [], e, out => (.ok out, e)
  | (offset, fragment) :: rest, e, out =>
    match e.emitFrame .data id fragment (fragmentExtensions sequence offset total) with
    | (.error error, e) => (.error error, e)
    | (.ok encoded, e) => sendLoop id sequence total rest e (out ++ encoded)

def releaseFlow (e : ConnectionEngine) (number : UInt32) (amount : Nat) : ConnectionEngine :=
  match e.channels with
  | none => e
  | some channels =>
    match channels.slot? number with
    | none => e
    | some slot => e.setSlot channels number { slot with flow := (slot.flow.release amount).2 }

def send (e : ConnectionEngine) (id : ChannelId) (payload : Bytes) :
    Except Error (List Bytes) × ConnectionEngine :=
  let inactive := stateError "DATA before negotiated Active state"
  match e.channels, e.capabilities with
  | some channels, some capabilities =>
    if e.state ≠ .active then (.error inactive, e)
    else
      match channels.find id with
      | none =>
        (.error (makeError .channel .staleGeneration .resetChannel "send targets stale channel"), e)
      | some slot =>
        if slot.localHalfClosed then
          (.error (makeError .channel .illegalState .resetChannel "DATA after local half-close"), e)
        else if payload.length > capabilities.maxMessage then
          (.error (makeError .message .resourceLimit .rejectMessage
            "payload exceeds negotiated message cap"), e)
        else
          match slot.flow.reserve payload.length with
          | (.error error, flow) => (.error error, e.setSlot channels id.number { slot with flow })
          | (.ok _, flow) =>
            match (channels.setSlot id.number { slot with flow }).reserveSendSequence id with
            | (.error error, channels) =>
              (.error error, { e with channels := some channels }.releaseFlow id.number payload.length)
            | (.ok sequence, channels) =>
              let maxFragment := max 1 (capabilities.maxFrame / 2)
              let (result, e) := sendLoop id sequence payload.length
                (fragments maxFragment payload payload.length 0) { e with channels := some channels } []
              (result, e.releaseFlow id.number payload.length)
  | _, _ => (.error inactive, e)

def grantCredit (e : ConnectionEngine) (id : ChannelId) (amount : Nat) :
    Except Error (List Bytes) × ConnectionEngine :=
  e.emitFrame .credit id (u32Bytes (UInt32.ofNat amount))

def acknowledge (e : ConnectionEngine) (ranges : List AckRange) :
    Except Error (List Bytes) × ConnectionEngine :=
  match encodeAckPayload 1 ranges with
  | .error error => (.error error, e)
  | .ok payload => e.emitFrame .ack {} payload

def ping (e : ConnectionEngine) (token : UInt64) : Except Error (List Bytes) × ConnectionEngine :=
  e.emitFrame .ping {} (u64Bytes token)

def resume (e : ConnectionEngine) (request : ResumeRequest) :
    Except Error (List Bytes) × ConnectionEngine :=
  e.emitFrame .resume {} (encodeResumePayload request)

def completePlugin (e : ConnectionEngine) (completion : PluginCompletion) :
    Except Error Unit × ConnectionEngine :=
  match e.channels with
  | none => (.ok (), e)
  | some channels =>
    match channels.find completion.channel with
    | none => (.ok (), e)
    | some _ =>
      if completion.token = 0 ∨ completion.familyId = 0 then
        (.error (makeError .plugin .pluginDecode .rejectMessage "plugin completion token is invalid"),
          e)
      else
        (.ok (), e.record .pluginResponse completion.channel completion.sequence completion.response)

def loadReplaySnapshot (e : ConnectionEngine) (text : Bytes) : Except Error Unit × ConnectionEngine :=
  if e.state ≠ .created then
    (.error (stateError "replay snapshot can only load before start"), e)
  else
    match ReplayWindow.restoreRetained text with
    | .error error => (.error error, e)
    | .ok replay =>
      match replay.latestSequence with
      | none => (.ok (), { e with replay, nextFrameSeq := 1 })
      | some latest =>
        if latest = 0xFFFFFFFF then
          (.error (makeError .connection .resourceLimit .closeConnection
            "replay snapshot frame sequence is exhausted"), { e with replay })
        else (.ok (), { e with replay, nextFrameSeq := latest + 1 })

def halfClose (e : ConnectionEngine) (id : ChannelId) (direction : Direction) :
    Except Error (List Bytes) × ConnectionEngine :=
  match e.channels with
  | none => (.error (stateError "half-close before channel table exists"), e)
  | some channels =>
    match channels.halfClose id direction with
    | (.error error, channels) => (.error error, { e with channels := some channels })
    | (.ok _, channels) =>
      let payload : Bytes := [match direction with | .localSend => 0 | .remoteSend => 1]
      let (frame, e) := { e with channels := some channels }.makeFrame .halfClose id payload
      (e.record .halfClosed id).emit frame

def reset (e : ConnectionEngine) (id : ChannelId) : Except Error (List Bytes) × ConnectionEngine :=
  match e.channels with
  | none => (.error (stateError "reset before channel table exists"), e)
  | some channels =>
    match channels.reset id with
    | (.error error, channels) => (.error error, { e with channels := some channels })
    | (.ok _, channels) =>
      let (frame, e) := { e with channels := some channels }.makeFrame .reset id []
      (e.record .channelReset id).emit frame

def goaway (e : ConnectionEngine) : Except Error (List Bytes) × ConnectionEngine :=
  ({ e with state := .draining }.scheduleTimer .drain {} kDrainTimeoutMs).emitFrame .goaway {} []

end ConnectionEngine

end LatticeGateway
