import LatticeGateway.ReceiveSteps

namespace LatticeGateway

namespace ConnectionEngine

/-- What timers are handled by is as it was. -/
structure Unclocked (e e' : ConnectionEngine) : Prop where
  state : e'.state = e.state
  timers : e'.timers = e.timers
  pendingPongToken : e'.pendingPongToken = e.pendingPongToken

theorem Unclocked.refl (e : ConnectionEngine) : Unclocked e e := ⟨rfl, rfl, rfl⟩

theorem Unclocked.trans {e e' e'' : ConnectionEngine} (h : Unclocked e e') (h' : Unclocked e' e'') :
    Unclocked e e'' :=
  ⟨h'.state.trans h.state, h'.timers.trans h.timers, h'.pendingPongToken.trans h.pendingPongToken⟩

theorem SentFrom.unclocked {e e' : ConnectionEngine} (h : SentFrom e e') : Unclocked e e' := by
  obtain ⟨_, _, _, rfl⟩ := h
  exact ⟨rfl, rfl, rfl⟩

theorem emitFrame_unclocked (e : ConnectionEngine) (type : FrameType) (channel : ChannelId)
    (payload : Bytes) (extensions : List Extension) :
    Unclocked e (e.emitFrame type channel payload extensions).2 :=
  (emitFrame_sent e type channel payload extensions).unclocked

section

variable (e : ConnectionEngine)

theorem openChannel_unclocked (request : OpenRequest) : Unclocked e (e.openChannel request).2 := by
  unfold openChannel
  dsimp only
  split
  next t capabilities _ _ =>
    split
    next => exact .refl e
    next =>
      split
      next => exact .refl e
      next =>
        split
        next => exact ⟨rfl, rfl, rfl⟩
        next id t' _ =>
          split
          next => exact ⟨rfl, rfl, rfl⟩
          next t'' _ =>
            have hemit := emitFrame_unclocked { e with channels := some t'' } .open id
              (u32Bytes request.familyId ++ u32Bytes (UInt32.ofNat request.initialWindow)) []
            split
            next h => rw [h] at hemit; exact ⟨hemit.state, hemit.timers, hemit.pendingPongToken⟩
            next h => rw [h] at hemit; exact ⟨hemit.state, hemit.timers, hemit.pendingPongToken⟩
  next => exact .refl e

theorem send_unclocked (id : ChannelId) (payload : Bytes) : Unclocked e (e.send id payload).2 := by
  rcases send_cases e id payload with
    ⟨error, h⟩ | ⟨capabilities, t, slot, flow, _, ⟨_, error, h⟩ | ⟨_, h⟩⟩
  · rw [h]
    exact .refl e
  · rw [h]
    exact ⟨rfl, rfl, rfl⟩
  · rw [h]
    have htable : Unclocked e { e with channels := some (t.setSlot id.number (sending slot flow)) } :=
      ⟨rfl, rfl, rfl⟩
    have hframes : Unclocked e (e.sendFrames capabilities t id slot flow payload).2 :=
      htable.trans (sendLoop_sent _ _ _ _ _ _).unclocked
    exact hframes.trans ⟨rfl, rfl, rfl⟩

theorem acknowledge_unclocked (ranges : List AckRange) : Unclocked e (e.acknowledge ranges).2 := by
  unfold acknowledge
  split
  next => exact .refl e
  next => exact emitFrame_unclocked _ _ _ _ _

theorem completePlugin_unclocked (completion : PluginCompletion) :
    Unclocked e (e.completePlugin completion).2 := by
  unfold completePlugin
  repeat' split
  all_goals exact ⟨rfl, rfl, rfl⟩

theorem loadReplaySnapshot_unclocked (text : Bytes) : Unclocked e (e.loadReplaySnapshot text).2 := by
  unfold loadReplaySnapshot
  repeat' split
  all_goals exact ⟨rfl, rfl, rfl⟩

theorem announced_unclocked (t : ChannelTable) (kind : EventKind) (id : ChannelId) (frame : Frame) :
    Unclocked e (({ e with channels := some t, nextFrameSeq := e.nextFrameSeq + 1 }.record kind
      id).emit frame).2 := by
  have hevent : Unclocked e ({ e with channels := some t, nextFrameSeq := e.nextFrameSeq + 1 }.record
      kind id) := ⟨rfl, rfl, rfl⟩
  exact hevent.trans (emit_sent _ _).unclocked

theorem halfClose_unclocked (id : ChannelId) (direction : Direction) :
    Unclocked e (e.halfClose id direction).2 := by
  unfold halfClose
  split
  next => exact .refl e
  next =>
    split
    next => exact ⟨rfl, rfl, rfl⟩
    next t' _ => exact announced_unclocked e t' .halfClosed id _

theorem reset_unclocked (id : ChannelId) : Unclocked e (e.reset id).2 := by
  unfold reset
  split
  next => exact .refl e
  next =>
    split
    next => exact ⟨rfl, rfl, rfl⟩
    next t' _ => exact announced_unclocked e t' .channelReset id _

theorem runTask_unclocked (task : EngineTask) : Unclocked e (e.runTask task).2 := by
  cases task with
  | foreign => exact .refl e
  | dispatch lease message completion =>
    unfold runTask
    dsimp only
    split
    next => exact .refl e
    next => exact completePlugin_unclocked _ _

theorem drainOne_unclocked : Unclocked e e.drainOne.2 := by
  unfold drainOne
  split
  next => exact .refl e
  next executor _ =>
    split
    next => exact .refl e
    next task executor' _ =>
      have hpop : Unclocked e { e with executor := some executor' } := ⟨rfl, rfl, rfl⟩
      exact hpop.trans (runTask_unclocked _ task)

theorem drainAllLoop_unclocked (fuel : Nat) : Unclocked e (drainAllLoop fuel e).2 := by
  induction fuel generalizing e with
  | zero => exact .refl e
  | succ fuel ih =>
    have hone := drainOne_unclocked e
    unfold drainAllLoop
    split
    next h => rw [h] at hone; exact hone
    next h => rw [h] at hone; exact hone.trans (ih _)

theorem dispatch_unclocked (channel : ChannelId) (family : UInt32) (completed : LogicalMessage) :
    Unclocked e (e.dispatch channel family completed).2 := by
  obtain ⟨_, _, _, hmoves, _⟩ := dispatch_moves e channel family completed
  rw [hmoves]
  exact ⟨rfl, rfl, rfl⟩

end

/-- One move of the connection state and the timers: neither a GOAWAY nor the passing of time. -/
inductive ClockMove (e e' : ConnectionEngine) : Prop
  | still (state : e'.state = e.state) (timers : e'.timers = e.timers)
  | started (dueMs : UInt64) (created : e.state = .created) (state : e'.state = .negotiating)
      (timers : e'.timers = (e.timers.schedule .handshake {} dueMs).2)
  | greeted (dueMs : UInt64) (negotiating : e.state = .negotiating) (state : e'.state = .active)
      (timers : e'.timers = (e.timers.schedule .idle {} dueMs).2)
  | gap (id : ChannelId) (dueMs : UInt64) (state : e'.state = e.state)
      (timers : e'.timers = (e.timers.schedule .fragmentGap id dueMs).2)
  | resumed (state : e'.state = .active) (timers : e'.timers = e.timers)

theorem Unclocked.move {e e' : ConnectionEngine} (h : Unclocked e e') : ClockMove e e' :=
  .still h.state h.timers

theorem handleData_clock (e : ConnectionEngine) (frame : Frame) :
    ClockMove e (e.handleData frame).2 ∧
      (e.handleData frame).2.pendingPongToken = e.pendingPongToken := by
  have hstill : ∀ {e' : ConnectionEngine}, Unclocked e e' →
      ClockMove e e' ∧ e'.pendingPongToken = e.pendingPongToken := fun h => ⟨h.move, h.pendingPongToken⟩
  unfold handleData
  split
  next => exact hstill (.refl e)
  next t _ =>
    split
    next => exact hstill (.refl e)
    next =>
      split
      next => exact hstill (.refl e)
      next slot _ =>
        split
        next => exact hstill (.refl e)
        next =>
          split
          next seq offset total family _ _ _ _ =>
            split
            next => exact hstill (.refl e)
            next =>
              split
              next => exact hstill ⟨rfl, rfl, rfl⟩
              next flow _ =>
                dsimp only
                split
                next => exact hstill ⟨rfl, rfl, rfl⟩
                next => exact ⟨.gap frame.channel (e.nowMs + kFragmentGapMs) rfl rfl, rfl⟩
                next =>
                  split
                  next => exact hstill ⟨rfl, rfl, rfl⟩
                  next =>
                    have hdispatch := fun e' => dispatch_unclocked e' frame.channel family
                    exact hstill ⟨(hdispatch _ _).state, (hdispatch _ _).timers,
                      (hdispatch _ _).pendingPongToken⟩
          next => exact hstill (.refl e)

/-- The token that a PONG frame answers with. -/
def pongTokens (frame : Frame) : List UInt64 :=
  if frame.type = .pong ∧ frame.channel.isControl = true then
    match decodeU64Be frame.payload with
    | .error _ => []
    | .ok token => [token]
  else []

/-- What is pending once these tokens have come back. -/
def settled (pending : Option UInt64) (tokens : List UInt64) : Option UInt64 :=
  pending.filter (· ∉ tokens)

theorem settled_nil (pending : Option UInt64) : settled pending [] = pending := by
  cases pending <;> simp [settled]

theorem settled_append (pending : Option UInt64) (tokens more : List UInt64) :
    settled pending (tokens ++ more) = settled (settled pending tokens) more := by
  cases pending with
  | none => rfl
  | some token => by_cases h : token ∈ tokens <;> simp [settled, Option.filter, h]

theorem handlePong_clock (e : ConnectionEngine) {frame : Frame} (htype : frame.type = .pong) :
    ClockMove e (e.handlePong frame).2 ∧
      (e.handlePong frame).2.pendingPongToken = settled e.pendingPongToken (pongTokens frame) := by
  unfold handlePong pongTokens
  split
  next hchannel =>
    rw [if_neg (by simp [hchannel]), settled_nil]
    exact ⟨.still rfl rfl, rfl⟩
  next hchannel =>
    rw [if_pos ⟨htype, by simpa using hchannel⟩]
    cases decodeU64Be frame.payload with
    | error error => exact ⟨.still rfl rfl, (settled_nil _).symm⟩
    | ok token =>
      refine ⟨.still rfl rfl, ?_⟩
      change (if e.pendingPongToken = some token then none else e.pendingPongToken) =
        settled e.pendingPongToken [token]
      cases e.pendingPongToken with
      | none => rfl
      | some pending => by_cases h : pending = token <;> simp [settled, Option.filter, h]

theorem pongTokens_other {frame : Frame} (htype : frame.type ≠ .pong) : pongTokens frame = [] :=
  if_neg fun h => htype h.1

/-- What a frame that is no GOAWAY does to the clockwork. -/
theorem handleFrame_clock (e : ConnectionEngine) {frame : Frame} (hgoaway : frame.type ≠ .goaway) :
    ClockMove e (e.handleFrame frame).2 ∧
      (e.handleFrame frame).2.pendingPongToken = settled e.pendingPongToken (pongTokens frame) := by
  have hstill : ∀ {e' : ConnectionEngine}, frame.type ≠ .pong → ClockMove e e' →
      e'.pendingPongToken = e.pendingPongToken → ClockMove e e' ∧
        e'.pendingPongToken = settled e.pendingPongToken (pongTokens frame) := by
    intro e' htype hmove hpending
    rw [pongTokens_other htype, settled_nil]
    exact ⟨hmove, hpending⟩
  unfold handleFrame
  cases htype : frame.type with
  | goaway => exact absurd htype hgoaway
  | pong => exact handlePong_clock e htype
  | hello =>
    rcases handleHello_cases e frame with ⟨error, h⟩ | ⟨peer, caps, hstate, _, _, h⟩
    · dsimp only
      rw [h]
      exact hstill (by simp [htype]) (.still rfl rfl) rfl
    · dsimp only
      rw [h]
      exact hstill (by simp [htype]) (.greeted (e.nowMs + kIdlePingMs) hstate rfl rfl) rfl
  | data =>
    obtain ⟨hmove, hpending⟩ := handleData_clock e frame
    exact hstill (by simp [htype]) hmove hpending
  | resume =>
    rcases handleResume_cases e frame with ⟨error, h⟩ | ⟨_, out, h⟩
    · dsimp only
      rw [h]
      exact hstill (by simp [htype]) (.still rfl rfl) rfl
    · dsimp only
      rw [h]
      exact hstill (by simp [htype]) (.resumed rfl rfl) rfl
  | ping =>
    have hping : Unclocked e (e.handlePing frame).2 := by
      unfold handlePing
      split
      next => exact .refl e
      next =>
        split
        next => exact .refl e
        next => exact emitFrame_unclocked _ _ _ _ _
    exact hstill (by simp [htype]) hping.move hping.pendingPongToken
  | «open» =>
    have hopen : Unclocked e (e.handleOpen frame).2 := by
      unfold handleOpen
      dsimp only
      repeat' split
      all_goals exact ⟨rfl, rfl, rfl⟩
    exact hstill (by simp [htype]) hopen.move hopen.pendingPongToken
  | credit =>
    have hcredit : Unclocked e (e.handleCredit frame).2 := by
      unfold handleCredit
      dsimp only
      repeat' split
      all_goals exact ⟨rfl, rfl, rfl⟩
    exact hstill (by simp [htype]) hcredit.move hcredit.pendingPongToken
  | ack =>
    have hack : Unclocked e (e.handleAck frame).2 := by
      unfold handleAck
      repeat' split
      all_goals exact ⟨rfl, rfl, rfl⟩
    exact hstill (by simp [htype]) hack.move hack.pendingPongToken
  | halfClose =>
    have hclose : Unclocked e (e.handleHalfClose frame).2 := by
      unfold handleHalfClose
      dsimp only
      repeat' split
      all_goals exact ⟨rfl, rfl, rfl⟩
    exact hstill (by simp [htype]) hclose.move hclose.pendingPongToken
  | reset => exact hstill (by simp [htype]) (.still rfl rfl) rfl

theorem start_clock (e : ConnectionEngine) :
    ClockMove e e.start.2 ∧ e.start.2.pendingPongToken = e.pendingPongToken := by
  unfold start
  split
  next => exact ⟨.still rfl rfl, rfl⟩
  next hcreated =>
    split
    next => exact ⟨.still rfl rfl, rfl⟩
    next payload _ =>
      have hemit := emitFrame_unclocked ({ e with state := .negotiating }.scheduleTimer .handshake {}
        kHandshakeTimeoutMs) .hello {} payload []
      exact ⟨.started (e.nowMs + kHandshakeTimeoutMs) (not_not.mp hcreated) hemit.state hemit.timers,
        hemit.pendingPongToken⟩

/-- What a call does to the clockwork that is neither `receive` nor `goaway` nor `advance_time`. -/
theorem call_clock (e : ConnectionEngine) {c : Call} (hreceive : ∀ bytes eof, c ≠ .receive bytes eof)
    (hgoaway : c ≠ .goaway) (hadvance : ∀ nowMs, c ≠ .advanceTime nowMs) :
    ClockMove e (e.call c) ∧ (e.call c).pendingPongToken = e.pendingPongToken := by
  have hstill : ∀ {e' : ConnectionEngine}, Unclocked e e' →
      ClockMove e e' ∧ e'.pendingPongToken = e.pendingPongToken := fun h => ⟨h.move, h.pendingPongToken⟩
  cases c with
  | receive bytes eof => exact absurd rfl (hreceive bytes eof)
  | goaway => exact absurd rfl hgoaway
  | advanceTime nowMs => exact absurd rfl (hadvance nowMs)
  | start => exact start_clock e
  | openChannel request => exact hstill (openChannel_unclocked e request)
  | send id payload => exact hstill (send_unclocked e id payload)
  | grantCredit id amount => exact hstill (emitFrame_unclocked e _ _ _ _)
  | acknowledge ranges => exact hstill (acknowledge_unclocked e ranges)
  | ping token => exact hstill (emitFrame_unclocked e _ _ _ _)
  | resume request => exact hstill (emitFrame_unclocked e _ _ _ _)
  | completePlugin completion => exact hstill (completePlugin_unclocked e completion)
  | flushOutbound writableBytes => exact hstill ⟨rfl, rfl, rfl⟩
  | loadReplaySnapshot text => exact hstill (loadReplaySnapshot_unclocked e text)
  | halfClose id direction => exact hstill (halfClose_unclocked e id direction)
  | reset id => exact hstill (reset_unclocked e id)
  | submitTask shard result => exact hstill ⟨rfl, rfl, rfl⟩
  | cancelTask id => exact hstill ⟨rfl, rfl, rfl⟩
  | drainOne => exact hstill (drainOne_unclocked e)
  | drainAll => exact hstill (drainAllLoop_unclocked e _)

end ConnectionEngine

end LatticeGateway
