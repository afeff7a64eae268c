import LatticeGateway.IdleOutbound
import LatticeGateway.ReceiveSteps
import LatticeGateway.ReplayHistory

namespace LatticeGateway

namespace ConnectionEngine

/-- A frame handed to `emit`, behind the engine that it is handed to. -/
abbrev Emission := ConnectionEngine × Frame

/-- What `emitFrame` hands to `emit`. -/
def framed (e : ConnectionEngine) (type : FrameType) (channel : ChannelId) (payload : Bytes)
    (extensions : List Extension := []) : Emission :=
  ((e.makeFrame type channel payload extensions).2, (e.makeFrame type channel payload extensions).1)

/-- The frame goes out: `emit` succeeds. -/
def Emission.Sent (p : Emission) : Prop := ∃ out, (p.1.emit p.2).1 = .ok out

instance (p : Emission) : Decidable p.Sent :=
  decidable_of_iff ((p.1.emit p.2).1.toOption.isSome = true) (by
    unfold Emission.Sent
    cases (p.1.emit p.2).1 <;> simp [Except.toOption])

def startEmissions (e : ConnectionEngine) : List Emission :=
  if e.state ≠ .created then []
  else
    match encodeHelloPayload e.localHello with
    | .error _ => []
    | .ok payload =>
      [({ e with state := .negotiating }.scheduleTimer .handshake {} kHandshakeTimeoutMs).framed
        .hello {} payload]

def openEmissions (e : ConnectionEngine) (request : OpenRequest) : List Emission :=
  match e.channels, e.capabilities with
  | some channels, some capabilities =>
    if e.state ≠ .active then []
    else if capabilities.plugins.all (·.familyId ≠ request.familyId) then []
    else
      match channels.allocate with
      | (.error _, _) => []
      | (.ok id, channels) =>
        match channels.activate id with
        | (.error _, _) => []
        | (.ok _, channels) =>
          [{ e with channels := some channels }.framed .open id
            (u32Bytes request.familyId ++ u32Bytes (UInt32.ofNat request.initialWindow))]
  | _, _ => []

/-- The rounds of `sendLoop`, up to and with the first that fails. -/
def loopEmissions (id : ChannelId) (sequence : UInt32) (total : Nat) :
    List (Nat × Bytes) → ConnectionEngine → List Emission
  | [], _ => []
  | (offset, fragment) :: rest, e =>
    e.framed .data id fragment (fragmentExtensions sequence offset total) ::
      match e.emitFrame .data id fragment (fragmentExtensions sequence offset total) with
      | (.error _, _) => []
      | (.ok _, e') => loopEmissions id sequence total rest e'

def sendEmissions (e : ConnectionEngine) (id : ChannelId) (payload : Bytes) : List Emission :=
  match e.channels, e.capabilities with
  | some channels, some capabilities =>
    if e.state ≠ .active then []
    else
      match channels.find id with
      | none => []
      | some slot =>
        if slot.localHalfClosed then []
        else if payload.length > capabilities.maxMessage then []
        else
          match slot.flow.reserve payload.length with
          | (.error _, _) => []
          | (.ok _, flow) =>
            match (channels.setSlot id.number { slot with flow }).reserveSendSequence id with
            | (.error _, _) => []
            | (.ok sequence, channels) =>
              loopEmissions id sequence payload.length
                (fragments (max 1 (capabilities.maxFrame / 2)) payload payload.length 0)
                { e with channels := some channels }
  | _, _ => []

def acknowledgeEmissions (e : ConnectionEngine) (ranges : List AckRange) : List Emission :=
  match encodeAckPayload 1 ranges with
  | .error _ => []
  | .ok payload => [e.framed .ack {} payload]

def halfCloseEmissions (e : ConnectionEngine) (id : ChannelId) (direction : Direction) : List Emission :=
  match e.channels with
  | none => []
  | some channels =>
    match channels.halfClose id direction with
    | (.error _, _) => []
    | (.ok _, channels) =>
      let payload : Bytes := [match direction with | .localSend => 0 | .remoteSend => 1]
      let (e, frame) := { e with channels := some channels }.framed .halfClose id payload
      [(e.record .halfClosed id, frame)]

def resetEmissions (e : ConnectionEngine) (id : ChannelId) : List Emission :=
  match e.channels with
  | none => []
  | some channels =>
    match channels.reset id with
    | (.error _, _) => []
    | (.ok _, channels) =>
      let (e, frame) := { e with channels := some channels }.framed .reset id []
      [(e.record .channelReset id, frame)]

/-- A PING is answered, and no other frame is. -/
def frameEmissions (p : ConnectionEngine × Frame) : List Emission :=
  match p.2.type with
  | .ping =>
    if p.2.channel.isControl = false then []
    else
      match decodeU64Be p.2.payload with
      | .error _ => []
      | .ok token => [p.1.framed .pong {} (u64Bytes token)]
  | _ => []

/-- The timers that `advanceLoop` handles, each behind the engine that meets it. -/
def timersMet : List TimerEvent → ConnectionEngine → List (ConnectionEngine × TimerEvent)
  | [], _ => []
  | timer :: timers, e =>
    let e := e.record .timerExpired timer.channel
    if e.state = .closed then timersMet timers e
    else
      (e, timer) ::
        match e.handleTimer timer with
        | (.error _, _) => []
        | (.ok _, e') => timersMet timers e'

/-- The idle timer sends a PING, and no other timer sends a frame of its own. -/
def timerEmissions (p : ConnectionEngine × TimerEvent) : List Emission :=
  match p.2.kind with
  | .idle =>
    let token := if p.1.nowMs = 0 then 1 else p.1.nowMs
    [{ p.1 with pendingPongToken := some token }.framed .ping {} (u64Bytes token)]
  | _ => []

/-- Everything that a call hands to `emit`, in that order. -/
def emissions (e : ConnectionEngine) : Call → List Emission
  | .start => e.startEmissions
  | .receive bytes eof =>
    (handled (e.decoded bytes eof).1 (e.decoded bytes eof).2).flatMap frameEmissions
  | .openChannel request => e.openEmissions request
  | .send id payload => e.sendEmissions id payload
  | .grantCredit id amount => [e.framed .credit id (u32Bytes (UInt32.ofNat amount))]
  | .acknowledge ranges => e.acknowledgeEmissions ranges
  | .ping token => [e.framed .ping {} (u64Bytes token)]
  | .resume request => [e.framed .resume {} (encodeResumePayload request)]
  | .advanceTime nowMs =>
    (timersMet (e.timers.expire nowMs).1 { e with nowMs, timers := (e.timers.expire nowMs).2 }).flatMap
      timerEmissions
  | .halfClose id direction => e.halfCloseEmissions id direction
  | .reset id => e.resetEmissions id
  | .goaway =>
    [({ e with state := .draining }.scheduleTimer .drain {} kDrainTimeoutMs).framed .goaway {} []]
  | .completePlugin _ | .flushOutbound _ | .loadReplaySnapshot _ | .submitTask _ _ | .cancelTask _
  | .drainOne | .drainAll => []

end ConnectionEngine

/-- Entries have only gone, or been counted up. -/
structure ReplayWindow.Shrinks (w w' : ReplayWindow) : Prop where
  capacity : w'.capacity = w.capacity
  epoch : w'.epoch = w.epoch
  sequences : (w'.entries.map (·.frameSeq)).Sublist (w.entries.map (·.frameSeq))

theorem ReplayWindow.Shrinks.refl (w : ReplayWindow) : Shrinks w w := ⟨rfl, rfl, .refl _⟩

theorem ReplayWindow.Shrinks.trans {w w' w'' : ReplayWindow} (h : Shrinks w w') (h' : Shrinks w' w'') :
    Shrinks w w'' :=
  ⟨h'.capacity.trans h.capacity, h'.epoch.trans h.epoch, h'.sequences.trans h.sequences⟩

theorem ReplayWindow.Shrinks.length_le {w w' : ReplayWindow} (h : Shrinks w w') :
    w'.entries.length ≤ w.entries.length := by
  simpa using h.sequences.length_le

theorem acknowledge_shrinks (w : ReplayWindow) (epoch : UInt16) (ranges : List AckRange) :
    w.Shrinks (w.acknowledge epoch ranges).2 := by
  obtain ⟨hentries, hepoch⟩ := acknowledge_entries w epoch ranges
  refine ⟨?_, hepoch, hentries.map _⟩
  unfold ReplayWindow.acknowledge
  repeat' split
  all_goals rfl

theorem dueForRetry_shrinks (w : ReplayWindow) (retryLimit : UInt8) :
    w.Shrinks (w.dueForRetry retryLimit).2 := by
  have hkeeps := congrArg (List.map (·.2.1)) (retryLoop_keeps retryLimit w.entries)
  rw [List.map_map, List.map_map] at hkeeps
  have hsame : (w.dueForRetry retryLimit).2.entries.map (·.frameSeq) = w.entries.map (·.frameSeq) :=
    hkeeps
  refine ⟨rfl, rfl, ?_⟩
  rw [hsame]

theorem OutboundScheduler.Idle.drain {s : OutboundScheduler} (h : s.Idle) (writableBytes : Nat) :
    (s.drain writableBytes).2 = s := by
  unfold OutboundScheduler.drain
  rw [drainControl_nil _ _ _ _ h.control]
  simp [h.data]

namespace ConnectionEngine

/-- A step that emits nothing. -/
structure Still (e e' : ConnectionEngine) : Prop where
  policy : e'.policy = e.policy
  registry : e'.registry = e.registry
  limits : e'.codec.limits = e.codec.limits
  nextFrameSeq : e'.nextFrameSeq = e.nextFrameSeq
  replay : e.replay.Shrinks e'.replay
  created : e'.state = .created → e.state = .created
  capabilities : e'.capabilities = e.capabilities ∨
    ∃ peer caps, negotiate e.localHello peer = .ok caps ∧ e'.capabilities = some caps
  idle : e.Idle → e'.Idle

theorem Still.refl (e : ConnectionEngine) : Still e e :=
  ⟨rfl, rfl, rfl, rfl, .refl _, fun h => h, .inl rfl, fun h => h⟩

theorem Still.localHello {e e' : ConnectionEngine} (h : Still e e') : e'.localHello = e.localHello := by
  unfold ConnectionEngine.localHello
  rw [h.policy, h.registry]

theorem Still.trans {e e' e'' : ConnectionEngine} (h : Still e e') (h' : Still e' e'') :
    Still e e'' where
  policy := h'.policy.trans h.policy
  registry := h'.registry.trans h.registry
  limits := h'.limits.trans h.limits
  nextFrameSeq := h'.nextFrameSeq.trans h.nextFrameSeq
  replay := h.replay.trans h'.replay
  created := h.created ∘ h'.created
  capabilities := by
    rcases h'.capabilities with hsame | ⟨peer, caps, hcaps, hsome⟩
    · rw [hsame]
      exact h.capabilities
    · rw [h.localHello] at hcaps
      exact .inr ⟨peer, caps, hcaps, hsome⟩
  idle := h'.idle ∘ h.idle

/-- Nothing that `Still` looks at has changed, but for the connection state that may have moved on. -/
theorem Still.of_eq {e e' : ConnectionEngine} (hpolicy : e'.policy = e.policy)
    (hregistry : e'.registry = e.registry) (hlimits : e'.codec.limits = e.codec.limits)
    (hframeSeq : e'.nextFrameSeq = e.nextFrameSeq) (hreplay : e'.replay = e.replay)
    (hcreated : e'.state = .created → e.state = .created)
    (hcapabilities : e'.capabilities = e.capabilities) (hscheduler : e'.scheduler = e.scheduler) :
    Still e e' where
  policy := hpolicy
  registry := hregistry
  limits := hlimits
  nextFrameSeq := hframeSeq
  replay := by rw [hreplay]; exact .refl _
  created := hcreated
  capabilities := .inl hcapabilities
  idle h := ⟨by rw [hscheduler]; exact h.scheduler, by rw [hscheduler, hpolicy]; exact h.limit⟩

theorem Still.window {e : ConnectionEngine} {replay : ReplayWindow} (h : e.replay.Shrinks replay) :
    Still e { e with replay } :=
  ⟨rfl, rfl, rfl, rfl, h, fun hcreated => hcreated, .inl rfl,
    fun hidle => ⟨hidle.scheduler, hidle.limit⟩⟩

theorem flushOutbound_still (e : ConnectionEngine) (writableBytes : Nat) :
    Still e (e.flushOutbound writableBytes).2 where
  policy := rfl
  registry := rfl
  limits := rfl
  nextFrameSeq := rfl
  replay := .refl _
  created h := h
  capabilities := .inl rfl
  idle h := by
    have hdrain := h.scheduler.drain writableBytes
    exact ⟨by unfold flushOutbound; simpa only [hdrain] using h.scheduler,
      by unfold flushOutbound; simpa only [hdrain] using h.limit⟩

/-- How an engine gets from one state to another, with what it hands to `emit` on the way. -/
inductive Trace : ConnectionEngine → List Emission → ConnectionEngine → Prop
  | still {e e'} : Still e e' → Trace e [] e'
  | emit {e e'} {frame : Frame} : frame.frameSeq = e.nextFrameSeq →
      (frame.type = .data → e.state = .active) →
      Still { e with nextFrameSeq := e.nextFrameSeq + 1 } e' →
      Trace e [(e', frame)] (e'.emit frame).2
  | append {e e' e'' ps qs} : Trace e ps e' → Trace e' qs e'' → Trace e (ps ++ qs) e''

theorem Trace.then_still {e e' e'' : ConnectionEngine} {ps : List Emission} (h : Trace e ps e')
    (h' : Still e' e'') : Trace e ps e'' := by
  have hboth := h.append (.still h')
  rwa [List.append_nil] at hboth

theorem Still.then_trace {e e' e'' : ConnectionEngine} {ps : List Emission} (h : Still e e')
    (h' : Trace e' ps e'') : Trace e ps e'' :=
  (Trace.still h).append h'

theorem emitFrame_trace (e : ConnectionEngine) {type : FrameType} (channel : ChannelId) (payload : Bytes)
    (extensions : List Extension) (hdata : type = .data → e.state = .active) :
    Trace e [e.framed type channel payload extensions]
      (e.emitFrame type channel payload extensions).2 :=
  .emit rfl hdata (.refl _)

theorem sendLoop_trace (id : ChannelId) (sequence : UInt32) (total : Nat) (rounds : List (Nat × Bytes))
    {e : ConnectionEngine} (hactive : e.state = .active) (out : List Bytes) :
    Trace e (loopEmissions id sequence total rounds e) (sendLoop id sequence total rounds e out).2 := by
  induction rounds generalizing e out with
  | nil => exact .still (.refl e)
  | cons round rounds ih =>
    obtain ⟨offset, fragment⟩ := round
    have hfirst := emitFrame_trace e id fragment (fragmentExtensions sequence offset total)
      (fun _ : FrameType.data = .data => hactive)
    have hstate := (emitFrame_sent e .data id fragment (fragmentExtensions sequence offset total)).state
    unfold loopEmissions sendLoop
    rcases hemit : e.emitFrame .data id fragment (fragmentExtensions sequence offset total) with
      ⟨error | produced, e'⟩
    · rw [hemit] at hfirst
      exact hfirst
    · rw [hemit] at hfirst hstate
      exact hfirst.append (ih (hstate.trans hactive) _)

theorem start_trace (e : ConnectionEngine) : Trace e e.startEmissions e.start.2 := by
  unfold startEmissions start
  by_cases hcreated : e.state ≠ .created
  · simp only [if_pos hcreated]
    exact .still (.refl e)
  · simp only [if_neg hcreated]
    cases encodeHelloPayload e.localHello with
    | error error => exact .still (.refl e)
    | ok payload =>
      have hstate : Still e ({ e with state := .negotiating }.scheduleTimer .handshake {}
          kHandshakeTimeoutMs) := .of_eq rfl rfl rfl rfl rfl (by rintro ⟨⟩) rfl rfl
      exact hstate.then_trace (emitFrame_trace _ _ _ _ (by simp))

theorem openChannel_trace (e : ConnectionEngine) (request : OpenRequest) :
    Trace e (e.openEmissions request) (e.openChannel request).2 := by
  unfold openEmissions openChannel
  rcases hchannels : e.channels with _ | t
  · exact .still (.refl e)
  rcases hcaps : e.capabilities with _ | capabilities
  · exact .still (.refl e)
  dsimp only
  by_cases hactive : e.state ≠ .active
  · simp only [if_pos hactive]
    exact .still (.refl e)
  simp only [if_neg hactive]
  by_cases hfamily : capabilities.plugins.all (·.familyId ≠ request.familyId) = true
  · simp only [if_pos hfamily]
    exact .still (.refl e)
  simp only [if_neg hfamily]
  rcases t.allocate with ⟨_ | id, t'⟩
  · exact .still (.of_eq rfl rfl rfl rfl rfl (fun h => h) hcaps.symm rfl)
  dsimp only
  rcases t'.activate id with ⟨_ | _, t''⟩
  · exact .still (.of_eq rfl rfl rfl rfl rfl (fun h => h) hcaps.symm rfl)
  dsimp only
  have htable : Still e { e with channels := some t'', capabilities := some capabilities } :=
    .of_eq rfl rfl rfl rfl rfl (fun h => h) hcaps.symm rfl
  have hemit := htable.then_trace (@emitFrame_trace
    { e with channels := some t'', capabilities := some capabilities } .open id
    (u32Bytes request.familyId ++ u32Bytes (UInt32.ofNat request.initialWindow)) [] (by simp))
  split
  next h =>
    rw [h] at hemit
    exact hemit
  next h =>
    rw [h] at hemit
    exact hemit.then_still (.of_eq rfl rfl rfl rfl rfl (fun h => h) rfl rfl)

theorem releaseFlow_still (e : ConnectionEngine) (number : UInt32) (amount : Nat) :
    Still e (e.releaseFlow number amount) := by
  unfold releaseFlow
  repeat' split
  all_goals exact .of_eq rfl rfl rfl rfl rfl (fun h => h) rfl rfl

theorem send_trace (e : ConnectionEngine) (id : ChannelId) (payload : Bytes) :
    Trace e (e.sendEmissions id payload) (e.send id payload).2 := by
  unfold sendEmissions send
  rcases hchannels : e.channels with _ | t
  · exact .still (.refl e)
  rcases hcaps : e.capabilities with _ | capabilities
  · exact .still (.refl e)
  dsimp only
  by_cases hactive : e.state ≠ .active
  · simp only [if_pos hactive]
    exact .still (.refl e)
  simp only [if_neg hactive]
  rcases t.find id with _ | slot
  · exact .still (.refl e)
  dsimp only
  by_cases hclosed : slot.localHalfClosed = true
  · simp only [if_pos hclosed]
    exact .still (.refl e)
  simp only [if_neg hclosed]
  by_cases hcap : payload.length > capabilities.maxMessage
  · simp only [if_pos hcap]
    exact .still (.refl e)
  simp only [if_neg hcap]
  rcases slot.flow.reserve payload.length with ⟨_ | _, flow⟩
  · exact .still (.of_eq rfl rfl rfl rfl rfl (fun h => h) rfl rfl)
  dsimp only
  rcases (t.setSlot id.number { slot with flow }).reserveSendSequence id with ⟨_ | sequence, t'⟩
  · have htable : Still e { e with channels := some t', capabilities := some capabilities } :=
      .of_eq rfl rfl rfl rfl rfl (fun h => h) hcaps.symm rfl
    exact .still (htable.trans (releaseFlow_still _ _ _))
  · have htable : Still e { e with channels := some t', capabilities := some capabilities } :=
      .of_eq rfl rfl rfl rfl rfl (fun h => h) hcaps.symm rfl
    have hactive' : { e with channels := some t', capabilities := some capabilities }.state = .active :=
      not_not.mp hactive
    exact htable.then_trace ((sendLoop_trace id sequence payload.length _ hactive' []).then_still
      (releaseFlow_still _ _ _))

theorem acknowledge_trace (e : ConnectionEngine) (ranges : List AckRange) :
    Trace e (e.acknowledgeEmissions ranges) (e.acknowledge ranges).2 := by
  unfold acknowledgeEmissions acknowledge
  cases encodeAckPayload 1 ranges with
  | error error => exact .still (.refl e)
  | ok payload => exact emitFrame_trace e _ _ _ (by simp)

/-- A call that changes the table, records it and emits a frame. -/
theorem announced_trace (e : ConnectionEngine) (t : ChannelTable) (kind : EventKind) (id : ChannelId)
    {frame : Frame} (hseq : frame.frameSeq = e.nextFrameSeq) (htype : frame.type ≠ .data) :
    Trace e [({ e with channels := some t, nextFrameSeq := e.nextFrameSeq + 1 }.record kind id, frame)]
      (({ e with channels := some t, nextFrameSeq := e.nextFrameSeq + 1 }.record kind id).emit frame).2 :=
  .emit hseq (fun h => absurd h htype) (.of_eq rfl rfl rfl rfl rfl (fun h => h) rfl rfl)

theorem halfClose_trace (e : ConnectionEngine) (id : ChannelId) (direction : Direction) :
    Trace e (e.halfCloseEmissions id direction) (e.halfClose id direction).2 := by
  unfold halfCloseEmissions halfClose
  rcases hchannels : e.channels with _ | t
  · exact .still (.refl e)
  dsimp only
  rcases t.halfClose id direction with ⟨_ | _, t'⟩
  · exact .still (.of_eq rfl rfl rfl rfl rfl (fun h => h) rfl rfl)
  · exact announced_trace e t' .halfClosed id rfl (by rintro ⟨⟩)

theorem reset_trace (e : ConnectionEngine) (id : ChannelId) :
    Trace e (e.resetEmissions id) (e.reset id).2 := by
  unfold resetEmissions reset
  rcases hchannels : e.channels with _ | t
  · exact .still (.refl e)
  dsimp only
  rcases t.reset id with ⟨_ | _, t'⟩
  · exact .still (.of_eq rfl rfl rfl rfl rfl (fun h => h) rfl rfl)
  · exact announced_trace e t' .channelReset id rfl (by rintro ⟨⟩)

theorem goaway_trace (e : ConnectionEngine) : Trace e (e.emissions .goaway) e.goaway.2 := by
  have hstate : Still e ({ e with state := .draining }.scheduleTimer .drain {} kDrainTimeoutMs) :=
    .of_eq rfl rfl rfl rfl rfl (by rintro ⟨⟩) rfl rfl
  exact hstate.then_trace (emitFrame_trace _ _ _ _ (by simp))

theorem completePlugin_still (e : ConnectionEngine) (completion : PluginCompletion) :
    Still e (e.completePlugin completion).2 := by
  obtain ⟨more, hrecords, _⟩ := completePlugin_records e completion
  rw [hrecords]
  exact .of_eq rfl rfl rfl rfl rfl (fun h => h) rfl rfl

theorem dispatch_still (e : ConnectionEngine) (channel : ChannelId) (family : UInt32)
    (completed : LogicalMessage) : Still e (e.dispatch channel family completed).2 := by
  obtain ⟨_, _, _, hmoves, _⟩ := dispatch_moves e channel family completed
  rw [hmoves]
  exact .of_eq rfl rfl rfl rfl rfl (fun h => h) rfl rfl

theorem handleData_still (e : ConnectionEngine) (frame : Frame) : Still e (e.handleData frame).2 := by
  unfold handleData
  dsimp only
  repeat' split
  all_goals first
    | exact .of_eq rfl rfl rfl rfl rfl (fun h => h) rfl rfl
    | refine Still.trans ?_ (dispatch_still _ _ _ _)
      exact .of_eq rfl rfl rfl rfl rfl (fun h => h) rfl rfl

/-- Handling a frame other than a PING emits nothing. -/
theorem handleFrame_still (e : ConnectionEngine) {frame : Frame} (hping : frame.type ≠ .ping) :
    Still e (e.handleFrame frame).2 := by
  unfold handleFrame
  cases htype : frame.type with
  | ping => exact absurd htype hping
  | hello =>
    dsimp only
    rcases handleHello_cases e frame with ⟨error, h⟩ | ⟨peer, caps, hstate, _, hcaps, h⟩
    · rw [h]
      exact .refl e
    · rw [h]
      exact ⟨rfl, rfl, rfl, rfl, .refl _, by rintro ⟨⟩, .inr ⟨peer, caps, hcaps, rfl⟩,
        fun hidle => ⟨hidle.scheduler, hidle.limit⟩⟩
  | «open» =>
    unfold handleOpen
    dsimp only
    repeat' split
    all_goals exact .of_eq rfl rfl rfl rfl rfl (fun h => h) rfl rfl
  | data => exact handleData_still e frame
  | ack =>
    unfold handleAck
    dsimp only
    split
    next => exact .refl e
    next =>
      split
      next => exact .refl e
      next epoch ranges _ =>
        have hshrinks := acknowledge_shrinks e.replay epoch ranges
        split
        next h =>
          rw [h] at hshrinks
          exact .window hshrinks
        next h =>
          rw [h] at hshrinks
          exact .window hshrinks
  | credit =>
    unfold handleCredit
    dsimp only
    repeat' split
    all_goals exact .of_eq rfl rfl rfl rfl rfl (fun h => h) rfl rfl
  | pong =>
    unfold handlePong
    dsimp only
    repeat' split
    all_goals exact .of_eq rfl rfl rfl rfl rfl (fun h => h) rfl rfl
  | resume =>
    dsimp only
    rcases handleResume_cases e frame with ⟨error, h⟩ | ⟨_, out, h⟩
    · rw [h]
      exact .refl e
    · rw [h]
      exact .of_eq rfl rfl rfl rfl rfl (by rintro ⟨⟩) rfl rfl
  | halfClose =>
    unfold handleHalfClose
    dsimp only
    repeat' split
    all_goals exact .of_eq rfl rfl rfl rfl rfl (fun h => h) rfl rfl
  | reset => exact .of_eq rfl rfl rfl rfl rfl (fun h => h) rfl rfl
  | goaway => exact .of_eq rfl rfl rfl rfl rfl (by rintro ⟨⟩) rfl rfl

theorem handleFrame_trace (e : ConnectionEngine) (frame : Frame) :
    Trace e (frameEmissions (e, frame)) (e.handleFrame frame).2 := by
  by_cases hping : frame.type = .ping
  · unfold frameEmissions handleFrame handlePing
    simp only [hping]
    by_cases hcontrol : frame.channel.isControl = false
    · simp only [if_pos hcontrol]
      exact .still (.refl e)
    · simp only [if_neg hcontrol]
      cases decodeU64Be frame.payload with
      | error error => exact .still (.refl e)
      | ok token => exact emitFrame_trace e _ _ _ (by simp)
  · have hnone : frameEmissions (e, frame) = [] := by
      unfold frameEmissions
      dsimp only
      split
      next h => exact absurd h hping
      next => rfl
    rw [hnone]
    exact .still (handleFrame_still e hping)

theorem handleEvent_trace (e : ConnectionEngine) (event : DecodeEvent) :
    Trace e ((match event with
      | .frame frame => [(e, frame)]
      | _ => []).flatMap frameEmissions) (e.handleEvent event).2 := by
  have hdiagnostic : ∀ (e : ConnectionEngine) (error : Error), Still e (e.diagnostic error) :=
    fun e error => .of_eq rfl rfl rfl rfl rfl (fun h => h) rfl rfl
  have hclosed : ∀ (e : ConnectionEngine) (error : Error),
      Still e { e.diagnostic error with state := .closed } :=
    fun e error => .of_eq rfl rfl rfl rfl rfl (by rintro ⟨⟩) rfl rfl
  cases event with
  | needMore => exact .still (.refl e)
  | error error => exact .still (hclosed e error)
  | frame frame =>
    have hframe := handleFrame_trace e frame
    rw [List.flatMap_singleton]
    unfold handleEvent
    dsimp only
    rcases hhandled : e.handleFrame frame with ⟨error | produced, e'⟩
    · rw [hhandled] at hframe
      dsimp only
      split
      next => exact hframe.then_still (hclosed e' error)
      next => exact hframe.then_still (hdiagnostic e' error)
    · rw [hhandled] at hframe
      exact hframe

theorem receiveLoop_trace (events : List DecodeEvent) (e : ConnectionEngine) (out : List Bytes) :
    Trace e ((handled events e).flatMap frameEmissions) (receiveLoop events e out).2 := by
  induction events generalizing e out with
  | nil => exact .still (.refl e)
  | cons event events ih =>
    have hevent := handleEvent_trace e event
    unfold handled receiveLoop
    rw [List.flatMap_append]
    rcases hhandled : e.handleEvent event with ⟨error | produced, e'⟩
    · rw [hhandled] at hevent
      simp only [List.flatMap_nil, List.append_nil]
      exact hevent
    · rw [hhandled] at hevent
      exact hevent.append (ih e' (out ++ produced))

theorem handleTimer_trace (e : ConnectionEngine) (timer : TimerEvent) :
    Trace e (timerEmissions (e, timer)) (e.handleTimer timer).2 := by
  unfold timerEmissions handleTimer
  cases timer.kind with
  | handshake =>
    dsimp only
    split
    next => exact .still (.of_eq rfl rfl rfl rfl rfl (by rintro ⟨⟩) rfl rfl)
    next => exact .still (.refl e)
  | retry =>
    have hshrinks := dueForRetry_shrinks e.replay 3
    dsimp only
    split
    next h =>
      rw [h] at hshrinks
      exact .still (.window hshrinks)
    next h =>
      rw [h] at hshrinks
      exact .still (.window hshrinks)
  | idle =>
    dsimp only
    generalize (if e.nowMs = 0 then (1 : UInt64) else e.nowMs) = token
    have htoken : Still e { e with pendingPongToken := some token } :=
      .of_eq rfl rfl rfl rfl rfl (fun h => h) rfl rfl
    have hping := htoken.then_trace (@emitFrame_trace { e with pendingPongToken := some token } .ping {}
      (u64Bytes token) [] (by simp))
    change Trace e _ ({ e with pendingPongToken := some token }.ping token).2 at hping
    split
    next h =>
      rw [h] at hping
      exact hping
    next h =>
      rw [h] at hping
      exact hping.then_still (.of_eq rfl rfl rfl rfl rfl (fun h => h) rfl rfl)
  | pongDeadline =>
    dsimp only
    split
    next => exact .still (.of_eq rfl rfl rfl rfl rfl (by rintro ⟨⟩) rfl rfl)
    next => exact .still (.refl e)
  | drain =>
    dsimp only
    split
    next => exact .still (.of_eq rfl rfl rfl rfl rfl (by rintro ⟨⟩) rfl rfl)
    next => exact .still (.refl e)
  | fragmentGap =>
    dsimp only
    split
    next => exact .still (.refl e)
    next => exact .still (.of_eq rfl rfl rfl rfl rfl (fun h => h) rfl rfl)

theorem advanceLoop_trace (timers : List TimerEvent) (e : ConnectionEngine) (out : List Bytes) :
    Trace e ((timersMet timers e).flatMap timerEmissions) (advanceLoop timers e out).2 := by
  induction timers generalizing e out with
  | nil => exact .still (.refl e)
  | cons timer timers ih =>
    have hrecord : Still e (e.record .timerExpired timer.channel) :=
      .of_eq rfl rfl rfl rfl rfl (fun h => h) rfl rfl
    have htimer := handleTimer_trace (e.record .timerExpired timer.channel) timer
    unfold timersMet advanceLoop
    dsimp only
    split
    next => exact hrecord.then_trace (ih _ _)
    next =>
      rw [List.flatMap_cons]
      rcases hmet : (e.record .timerExpired timer.channel).handleTimer timer with ⟨error | produced, e'⟩
      · rw [hmet] at htimer
        rw [List.flatMap_nil, List.append_nil]
        exact hrecord.then_trace htimer
      · rw [hmet] at htimer
        exact hrecord.then_trace (htimer.append (ih _ _))

theorem runTask_still (e : ConnectionEngine) (task : EngineTask) : Still e (e.runTask task).2 := by
  cases task with
  | foreign => exact .refl e
  | dispatch lease message completion =>
    unfold runTask
    dsimp only
    split
    next => exact .refl e
    next => exact completePlugin_still _ _

theorem drainOne_still (e : ConnectionEngine) : Still e e.drainOne.2 := by
  unfold drainOne
  split
  next => exact .refl e
  next executor _ =>
    split
    next => exact .refl e
    next task executor' _ =>
      have hpop : Still e { e with executor := some executor' } :=
        .of_eq rfl rfl rfl rfl rfl (fun h => h) rfl rfl
      exact hpop.trans (runTask_still _ _)

theorem drainAllLoop_still (fuel : Nat) (e : ConnectionEngine) : Still e (drainAllLoop fuel e).2 := by
  induction fuel generalizing e with
  | zero => exact .refl e
  | succ fuel ih =>
    have hone := drainOne_still e
    unfold drainAllLoop
    split
    next h => rw [h] at hone; exact hone
    next h => rw [h] at hone; exact hone.trans (ih _)

/-- The emissions of a call are all that it does to the counter, the window and the queue, unless it
loads a snapshot. -/
theorem call_trace (e : ConnectionEngine) {c : Call} (hload : ∀ text, c ≠ .loadReplaySnapshot text) :
    Trace e (e.emissions c) (e.call c) := by
  cases c with
  | start => exact start_trace e
  | receive bytes eof =>
    have hdecoded : Still e (e.decoded bytes eof).2 := .of_eq rfl rfl rfl rfl rfl (fun h => h) rfl rfl
    exact hdecoded.then_trace (receiveLoop_trace _ _ _)
  | openChannel request => exact openChannel_trace e request
  | send id payload => exact send_trace e id payload
  | grantCredit id amount => exact emitFrame_trace e _ _ _ (by simp)
  | acknowledge ranges => exact acknowledge_trace e ranges
  | ping token => exact emitFrame_trace e _ _ _ (by simp)
  | resume request => exact emitFrame_trace e _ _ _ (by simp)
  | completePlugin completion => exact .still (completePlugin_still e completion)
  | advanceTime nowMs =>
    have htimers : Still e { e with nowMs, timers := (e.timers.expire nowMs).2 } :=
      .of_eq rfl rfl rfl rfl rfl (fun h => h) rfl rfl
    exact htimers.then_trace (advanceLoop_trace _ _ _)
  | flushOutbound writableBytes => exact .still (flushOutbound_still e writableBytes)
  | loadReplaySnapshot text => exact absurd rfl (hload text)
  | halfClose id direction => exact halfClose_trace e id direction
  | reset id => exact reset_trace e id
  | goaway => exact goaway_trace e
  | submitTask shard result => exact .still (.of_eq rfl rfl rfl rfl rfl (fun h => h) rfl rfl)
  | cancelTask id => exact .still (.of_eq rfl rfl rfl rfl rfl (fun h => h) rfl rfl)
  | drainOne => exact .still (drainOne_still e)
  | drainAll => exact .still (drainAllLoop_still _ e)

theorem call_cases (e : ConnectionEngine) (c : Call) :
    (∃ text, c = .loadReplaySnapshot text) ∨ Trace e (e.emissions c) (e.call c) := by
  by_cases hload : ∃ text, c = .loadReplaySnapshot text
  · exact .inl hload
  · exact .inr (call_trace e fun text hc => hload ⟨text, hc⟩)

end ConnectionEngine

end LatticeGateway
