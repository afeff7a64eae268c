import LatticeGateway.Engine

namespace LatticeGateway

namespace ConnectionEngine

def handleHello (e : ConnectionEngine) (frame : Frame) :
    Except Error (List Bytes) × ConnectionEngine :=
  if e.state ≠ .negotiating then (.error (stateError "unexpected HELLO"), e)
  else
    match decodeHelloPayload frame.payload with
    | .error error => (.error error, e)
    | .ok peer =>
      match negotiate e.localHello peer with
      | .error error => (.error error, e)
      | .ok caps =>
        let channels := ChannelTable.make caps.maxChannels
          (caps.connectionWindow / caps.maxChannels.toNat) caps.maxMessage
        let e := { e with capabilities := some caps, channels := some channels, state := .active }
        (.ok [], (e.scheduleTimer .idle {} kIdlePingMs).record .negotiated {})

def handleOpen (e : ConnectionEngine) (frame : Frame) :
    Except Error (List Bytes) × ConnectionEngine :=
  let malformed := stateError "OPEN outside Active state or malformed"
  match e.channels, e.capabilities with
  | some channels, some capabilities =>
    if e.state ≠ .active ∨ frame.payload.length ≠ 8 then (.error malformed, e)
    else
      match readU32Be frame.payload 0 with
      | .error error => (.error error, e)
      | .ok family =>
        if capabilities.plugins.all (·.familyId ≠ family) then
          (.error (makeError .plugin .pluginDecode .resetChannel
            "OPEN requested unnegotiated plugin family"), e)
        else
          match channels.acceptRemote frame.channel with
          | (.error error, channels) => (.error error, { e with channels := some channels })
          | (.ok _, channels) =>
            (.ok [], { e with channels := some channels }.record .channelOpened frame.channel)
  | _, _ => (.error malformed, e)

/-- What follows a delivery: the plugin is leased, and runs at once or as a task. -/
def dispatch (e : ConnectionEngine) (channel : ChannelId) (family : UInt32) (completed : LogicalMessage) :
    Except Error (List Bytes) × ConnectionEngine :=
  match e.registry.createLease family with
  | .error error => (.error error, e)
  | .ok lease =>
    let completion : PluginCompletion :=
      { token := e.nextPluginToken, channel, sequence := completed.sequence, familyId := family }
    let e := { e with nextPluginToken := e.nextPluginToken + 1 }
    match e.executor with
    | some executor =>
      let shard := if executor.shards = 0 then 0 else channel.number % executor.shards
      match executor.submit shard (.dispatch lease completed completion) with
      | (.error error, executor) => (.error error, { e with executor := some executor })
      | (.ok _, executor) => (.ok [], { e with executor := some executor })
    | none =>
      match lease.handle completed with
      | .error error => (.error error, e)
      | .ok response =>
        match e.completePlugin { completion with response } with
        | (.error error, e) => (.error error, e)
        | (.ok _, e) => (.ok [], e)

def handleData (e : ConnectionEngine) (frame : Frame) :
    Except Error (List Bytes) × ConnectionEngine :=
  match e.channels with
  | none => (.error (stateError "DATA outside Active state"), e)
  | some channels =>
    if e.state ≠ .active then (.error (stateError "DATA outside Active state"), e)
    else
      match channels.find frame.channel with
      | none =>
        (.error (makeError .channel .staleGeneration .resetChannel "DATA targets stale generation"), e)
      | some slot =>
        if slot.remoteHalfClosed then
          (.error (makeError .channel .illegalState .resetChannel "DATA after peer half-close"), e)
        else
          match extensionU32 frame kExtMessageSeq, extensionU32 frame kExtFragmentOffset,
              extensionU32 frame kExtMessageTotal, extensionU32 frame kExtFamilyId with
          | .ok seq, .ok offset, .ok total, .ok family =>
            if seq < slot.nextRecvSeq then
              (.error (makeError .message .sequenceError .resetChannel
                "DATA message sequence regressed"), e)
            else
              match slot.flow.reserve frame.payload.length with
              | (.error error, flow) =>
                (.error error, e.setSlot channels frame.channel.number { slot with flow })
              | (.ok _, flow) =>
                let (message, reassembler) :=
                  slot.reassembler.insert frame.channel seq offset total frame.payload
                let slot := { slot with reassembler, flow := (flow.release frame.payload.length).2 }
                let e := e.setSlot channels frame.channel.number slot
                match message with
                | .error error => (.error error, e)
                | .ok none => (.ok [], e.scheduleTimer .fragmentGap frame.channel kFragmentGapMs)
                | .ok (some completed) =>
                  if completed.sequence ≠ slot.nextRecvSeq then
                    (.error (makeError .message .sequenceError .resetChannel
                      "DATA completed out of order"), e)
                  else
                    let slot := { slot with nextRecvSeq := slot.nextRecvSeq + 1 }
                    let e := e.setSlot channels frame.channel.number slot
                    let e := e.record .messageDelivered frame.channel completed.sequence
                      completed.payload
                    e.dispatch frame.channel family completed
          | _, _, _, _ =>
            (.error (makeError .message .malformedTlv .resetChannel
              "DATA missing required fragment extensions"), e)

def handleCredit (e : ConnectionEngine) (frame : Frame) :
    Except Error (List Bytes) × ConnectionEngine :=
  let malformed := makeError .channel .illegalState .resetChannel "malformed CREDIT"
  match e.channels with
  | none => (.error malformed, e)
  | some channels =>
    if frame.payload.length ≠ 4 then (.error malformed, e)
    else
      match readU32Be frame.payload 0 with
      | .error error => (.error error, e)
      | .ok amount =>
        match channels.find frame.channel with
        | none =>
          (.error (makeError .channel .staleGeneration .resetChannel
            "CREDIT targets stale channel"), e)
        | some slot =>
          match slot.flow.grant amount.toNat with
          | (.error error, flow) =>
            (.error error, e.setSlot channels frame.channel.number { slot with flow })
          | (.ok _, flow) => (.ok [], e.setSlot channels frame.channel.number { slot with flow })

def handleAck (e : ConnectionEngine) (frame : Frame) :
    Except Error (List Bytes) × ConnectionEngine :=
  if frame.channel.isControl = false then (.error (sequenceError "ACK must use control channel"), e)
  else
    match decodeAckPayload frame.payload with
    | .error error => (.error error, e)
    | .ok (epoch, ranges) =>
      match e.replay.acknowledge epoch ranges with
      | (.error error, replay) => (.error error, { e with replay })
      | (.ok _, replay) => (.ok [], { e with replay })

def handlePing (e : ConnectionEngine) (frame : Frame) :
    Except Error (List Bytes) × ConnectionEngine :=
  if frame.channel.isControl = false then (.error (sequenceError "PING must use control channel"), e)
  else
    match decodeU64Be frame.payload with
    | .error error => (.error error, e)
    | .ok token => e.emitFrame .pong {} (u64Bytes token)

def handlePong (e : ConnectionEngine) (frame : Frame) :
    Except Error (List Bytes) × ConnectionEngine :=
  if frame.channel.isControl = false then (.error (sequenceError "PONG must use control channel"), e)
  else
    match decodeU64Be frame.payload with
    | .error error => (.error error, e)
    | .ok token =>
      let pendingPongToken := if e.pendingPongToken = some token then none else e.pendingPongToken
      (.ok [], { e with pendingPongToken }.record .pongReceived {} token.toUInt32)

def handleResume (e : ConnectionEngine) (frame : Frame) :
    Except Error (List Bytes) × ConnectionEngine :=
  if frame.channel.isControl = false then
    (.error (resumeRejected "RESUME must use control channel"), e)
  else
    match decodeResumePayload frame.payload with
    | .error error => (.error error, e)
    | .ok request =>
      if e.capabilities.map (·.transcriptHash) ≠ some request.transcriptHash then
        (.error (resumeRejected "RESUME transcript hash mismatch"), e)
      else
        match e.replay.canResume { epoch := request.epoch
                                   firstRequiredSeq := request.firstRequiredSeq } with
        | .error error => (.error error, e)
        | .ok _ =>
          match e.replay.retainedFrom request.epoch request.firstRequiredSeq with
          | .error error => (.error error, e)
          | .ok retained =>
            (.ok (retained.map (·.encoded)), { e with state := .active }.record .resumed {})

def handleHalfClose (e : ConnectionEngine) (frame : Frame) :
    Except Error (List Bytes) × ConnectionEngine :=
  let malformed := makeError .channel .illegalState .resetChannel "malformed HALF_CLOSE"
  match e.channels with
  | none => (.error malformed, e)
  | some channels =>
    if frame.payload.length ≠ 1 then (.error malformed, e)
    else
      let direction := if byteAt frame.payload 0 = 0 then Direction.remoteSend else .localSend
      match channels.halfClose frame.channel direction with
      | (.error error, channels) => (.error error, { e with channels := some channels })
      | (.ok _, channels) =>
        (.ok [], { e with channels := some channels }.record .halfClosed frame.channel)

def handleReset (e : ConnectionEngine) (frame : Frame) :
    Except Error (List Bytes) × ConnectionEngine :=
  let channels := e.channels.map fun (channels : ChannelTable) => (channels.reset frame.channel).2
  (.ok [], { e with channels }.record .channelReset frame.channel)

def handleGoaway (e : ConnectionEngine) (frame : Frame) :
    Except Error (List Bytes) × ConnectionEngine :=
  let e := { e with state := .draining }.scheduleTimer .drain {} kDrainTimeoutMs
  (.ok [], e.record .closed frame.channel)

def handleFrame (e : ConnectionEngine) (frame : Frame) :
    Except Error (List Bytes) × ConnectionEngine :=
  match frame.type with
  | .hello => e.handleHello frame
  | .open => e.handleOpen frame
  | .data => e.handleData frame
  | .ack => e.handleAck frame
  | .credit => e.handleCredit frame
  | .ping => e.handlePing frame
  | .pong => e.handlePong frame
  | .resume => e.handleResume frame
  | .halfClose => e.handleHalfClose frame
  | .reset => e.handleReset frame
  | .goaway => e.handleGoaway frame

/-- What `receive` does for one decoded event. -/
def handleEvent (e : ConnectionEngine) : DecodeEvent → Except Error (List Bytes) × ConnectionEngine
  | .needMore => (.ok [], e)
  | .error error => (.error error, { e.diagnostic error with state := .closed })
  | .frame frame =>
    match e.handleFrame frame with
    | (.error error, e) =>
      let e := e.diagnostic error
      (.error error, if error.action = .closeConnection then { e with state := .closed } else e)
    | (.ok produced, e) => (.ok produced, e)

def receiveLoop :
    List DecodeEvent → ConnectionEngine → List Bytes → Except Error (List Bytes) × ConnectionEngine
  | [], e, outbound => (.ok outbound, e)
  | event :: events, e, outbound =>
    match e.handleEvent event with
    | (.error error, e) => (.error error, e)
    | (.ok produced, e) => receiveLoop events e (outbound ++ produced)

def receive (e : ConnectionEngine) (bytes : Bytes) (eof : Bool) :
    Except Error (List Bytes) × ConnectionEngine :=
  let (events, codec) := e.codec.feed bytes eof
  receiveLoop events { e with codec } []

/-- What `advance_time` does for one expired timer of an engine that is not closed. -/
def handleTimer (e : ConnectionEngine) (timer : TimerEvent) :
    Except Error (List Bytes) × ConnectionEngine :=
  match timer.kind with
  | .handshake =>
    if e.state = .negotiating then
      let error := makeError .connection .timeout .closeConnection "handshake timeout"
      (.error error, { e.diagnostic error with state := .closed })
    else (.ok [], e)
  | .retry =>
    match e.replay.dueForRetry 3 with
    | (.error error, replay) => (.error error, { e with replay })
    | (.ok due, replay) => (.ok (due.map (·.encoded)), { e with replay })
  | .idle =>
    let token := if e.nowMs = 0 then 1 else e.nowMs
    match { e with pendingPongToken := some token }.ping token with
    | (.error error, e) => (.error error, e)
    | (.ok bytes, e) =>
      (.ok bytes, (e.scheduleTimer .pongDeadline {} kPongTimeoutMs).scheduleTimer .idle {} kIdlePingMs)
  | .pongDeadline =>
    if e.pendingPongToken.isSome then
      let error := makeError .connection .timeout .closeConnection "PONG timeout"
      (.error error, { e.diagnostic error with state := .closed }.record .closed {})
    else (.ok [], e)
  | .drain =>
    if e.state = .draining then (.ok [], { e with state := .closed }.record .closed {})
    else (.ok [], e)
  | .fragmentGap =>
    match e.channels with
    | none => (.ok [], e)
    | some channels =>
      (.ok [], { e with channels := some (channels.reset timer.channel).2 }.record .channelReset
        timer.channel)

def advanceLoop :
    List TimerEvent → ConnectionEngine → List Bytes → Except Error (List Bytes) × ConnectionEngine
  | [], e, out => (.ok out, e)
  | timer :: timers, e, out =>
    let e := e.record .timerExpired timer.channel
    if e.state = .closed then advanceLoop timers e out
    else
      match e.handleTimer timer with
      | (.error error, e) => (.error error, e)
      | (.ok bytes, e) => advanceLoop timers e (out ++ bytes)

def advanceTime (e : ConnectionEngine) (nowMs : UInt64) : Except Error (List Bytes) × ConnectionEngine :=
  let (expired, timers) := e.timers.expire nowMs
  advanceLoop expired { e with nowMs, timers } []

/-- The closure of a task. -/
def runTask (e : ConnectionEngine) : EngineTask → Except Error Unit × ConnectionEngine
  | .dispatch lease message completion =>
    match lease.handle message with
    | .error error => (.error error, e)
    | .ok response => e.completePlugin { completion with response }
  | .foreign result => (result, e)

def drainOne (e : ConnectionEngine) : Except Error Unit × ConnectionEngine :=
  match e.executor with
  | none => (.ok (), e)
  | some executor =>
    match executor.popFront with
    | (none, _) => (.ok (), e)
    | (some task, executor) => { e with executor := some executor }.runTask task

/-- No task of the engine submits another, so each round leaves one task fewer. -/
def drainAllLoop : Nat → ConnectionEngine → Except Error Unit × ConnectionEngine
  | 0, e => (.ok (), e)
  | fuel + 1, e =>
    match e.drainOne with
    | (.error error, e) => (.error error, e)
    | (.ok _, e) => drainAllLoop fuel e

def drainAll (e : ConnectionEngine) : Except Error Unit × ConnectionEngine :=
  drainAllLoop (e.executor.elim 0 (·.queue.length)) e

end ConnectionEngine

end LatticeGateway
