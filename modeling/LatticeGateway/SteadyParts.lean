import LatticeGateway.ReceiveSteps

namespace LatticeGateway

namespace ConnectionEngine

/-- A step that leaves alone what plugins are taken from and run by. -/
structure Steady (e e' : ConnectionEngine) : Prop where
  registry : e'.registry = e.registry
  executor : e'.executor = e.executor
  capabilities : e'.capabilities = e.capabilities

theorem Steady.refl (e : ConnectionEngine) : Steady e e := ⟨rfl, rfl, rfl⟩

theorem Steady.trans {e e' e'' : ConnectionEngine} (h : Steady e e') (h' : Steady e' e'') :
    Steady e e'' :=
  ⟨h'.registry.trans h.registry, h'.executor.trans h.executor, h'.capabilities.trans h.capabilities⟩

theorem SentFrom.steady {e e' : ConnectionEngine} (h : SentFrom e e') : Steady e e' := by
  obtain ⟨_, _, _, rfl⟩ := h
  exact ⟨rfl, rfl, rfl⟩

theorem emitFrame_steady (e : ConnectionEngine) (type : FrameType) (channel : ChannelId)
    (payload : Bytes) (extensions : List Extension) :
    Steady e (e.emitFrame type channel payload extensions).2 :=
  (emitFrame_sent e type channel payload extensions).steady

theorem start_steady (e : ConnectionEngine) : Steady e e.start.2 := by
  unfold start
  split
  next => exact .refl e
  next =>
    split
    next => exact .refl e
    next payload _ =>
      have hstate : Steady e ({ e with state := .negotiating }.scheduleTimer .handshake {}
          kHandshakeTimeoutMs) := ⟨rfl, rfl, rfl⟩
      exact hstate.trans (emitFrame_steady _ _ _ _ _)

theorem openChannel_steady (e : ConnectionEngine) (request : OpenRequest) :
    Steady e (e.openChannel request).2 := by
  unfold openChannel
  dsimp only
  split
  next t capabilities _ _ =>
    split
    next => exact .refl e
    next =>
      split
      next => exact .refl e
      next =>
        split
        next => exact ⟨rfl, rfl, rfl⟩
        next id t' _ =>
          split
          next => exact ⟨rfl, rfl, rfl⟩
          next t'' _ =>
            have htable : Steady e { e with channels := some t'' } := ⟨rfl, rfl, rfl⟩
            have hemit := emitFrame_steady { e with channels := some t'' } .open id
              (u32Bytes request.familyId ++ u32Bytes (UInt32.ofNat request.initialWindow)) []
            split
            next h =>
              rw [h] at hemit
              exact htable.trans hemit
            next e' _ h =>
              rw [h] at hemit
              exact (htable.trans hemit).trans ⟨rfl, rfl, rfl⟩
  next => exact .refl e

theorem send_steady (e : ConnectionEngine) (id : ChannelId) (payload : Bytes) :
    Steady e (e.send id payload).2 := by
  rcases send_cases e id payload with
    ⟨error, h⟩ | ⟨capabilities, t, slot, flow, _, ⟨_, error, h⟩ | ⟨_, h⟩⟩
  · rw [h]
    exact .refl e
  · rw [h]
    exact ⟨rfl, rfl, rfl⟩
  · rw [h]
    have htable : Steady e { e with channels := some (t.setSlot id.number (sending slot flow)) } :=
      ⟨rfl, rfl, rfl⟩
    have hframes : Steady e (e.sendFrames capabilities t id slot flow payload).2 :=
      htable.trans (sendLoop_sent _ _ _ _ _ _).steady
    exact hframes.trans ⟨rfl, rfl, rfl⟩

theorem acknowledge_steady (e : ConnectionEngine) (ranges : List AckRange) :
    Steady e (e.acknowledge ranges).2 := by
  unfold acknowledge
  split
  next => exact .refl e
  next => exact emitFrame_steady _ _ _ _ _

theorem completePlugin_steady (e : ConnectionEngine) (completion : PluginCompletion) :
    Steady e (e.completePlugin completion).2 := by
  unfold completePlugin
  repeat' split
  all_goals exact ⟨rfl, rfl, rfl⟩

theorem loadReplaySnapshot_steady (e : ConnectionEngine) (text : Bytes) :
    Steady e (e.loadReplaySnapshot text).2 := by
  unfold loadReplaySnapshot
  repeat' split
  all_goals exact ⟨rfl, rfl, rfl⟩

theorem announced_steady (e : ConnectionEngine) (t : ChannelTable) (kind : EventKind) (id : ChannelId)
    (frame : Frame) : Steady e (({ e with channels := some t, nextFrameSeq := e.nextFrameSeq + 1 }.record
      kind id).emit frame).2 := by
  have hevent : Steady e ({ e with channels := some t, nextFrameSeq := e.nextFrameSeq + 1 }.record
      kind id) := ⟨rfl, rfl, rfl⟩
  exact hevent.trans (emit_sent _ _).steady

theorem halfClose_steady (e : ConnectionEngine) (id : ChannelId) (direction : Direction) :
    Steady e (e.halfClose id direction).2 := by
  unfold halfClose
  split
  next => exact .refl e
  next =>
    split
    next => exact ⟨rfl, rfl, rfl⟩
    next t' _ => exact announced_steady e t' .halfClosed id _

theorem reset_steady (e : ConnectionEngine) (id : ChannelId) : Steady e (e.reset id).2 := by
  unfold reset
  split
  next => exact .refl e
  next =>
    split
    next => exact ⟨rfl, rfl, rfl⟩
    next t' _ => exact announced_steady e t' .channelReset id _

theorem goaway_steady (e : ConnectionEngine) : Steady e e.goaway.2 := by
  have hstate : Steady e ({ e with state := .draining }.scheduleTimer .drain {} kDrainTimeoutMs) :=
    ⟨rfl, rfl, rfl⟩
  exact hstate.trans (emitFrame_steady _ _ _ _ _)

theorem handleTimer_steady (e : ConnectionEngine) (timer : TimerEvent) :
    Steady e (e.handleTimer timer).2 := by
  unfold handleTimer
  cases timer.kind with
  | handshake =>
    dsimp only
    split <;> exact ⟨rfl, rfl, rfl⟩
  | retry =>
    dsimp only
    split <;> exact ⟨rfl, rfl, rfl⟩
  | idle =>
    dsimp only
    generalize (if e.nowMs = 0 then (1 : UInt64) else e.nowMs) = token
    have htoken : Steady e { e with pendingPongToken := some token } := ⟨rfl, rfl, rfl⟩
    have hping : Steady { e with pendingPongToken := some token }
        ({ e with pendingPongToken := some token }.ping token).2 := emitFrame_steady _ _ _ _ _
    split
    next h =>
      rw [h] at hping
      exact htoken.trans hping
    next h =>
      rw [h] at hping
      exact (htoken.trans hping).trans ⟨rfl, rfl, rfl⟩
  | pongDeadline =>
    dsimp only
    split <;> exact ⟨rfl, rfl, rfl⟩
  | drain =>
    dsimp only
    split <;> exact ⟨rfl, rfl, rfl⟩
  | fragmentGap =>
    dsimp only
    split <;> exact ⟨rfl, rfl, rfl⟩

theorem advanceLoop_steady (timers : List TimerEvent) (e : ConnectionEngine) (out : List Bytes) :
    Steady e (advanceLoop timers e out).2 := by
  induction timers generalizing e out with
  | nil => exact .refl e
  | cons timer timers ih =>
    have hrecord : Steady e (e.record .timerExpired timer.channel) := ⟨rfl, rfl, rfl⟩
    unfold advanceLoop
    dsimp only
    split
    next => exact hrecord.trans (ih _ _)
    next =>
      have htimer := handleTimer_steady (e.record .timerExpired timer.channel) timer
      split
      next h =>
        rw [h] at htimer
        exact hrecord.trans htimer
      next h =>
        rw [h] at htimer
        exact (hrecord.trans htimer).trans (ih _ _)

theorem advanceTime_steady (e : ConnectionEngine) (nowMs : UInt64) :
    Steady e (e.advanceTime nowMs).2 := by
  have hexpire : Steady e { e with nowMs, timers := (e.timers.expire nowMs).2 } := ⟨rfl, rfl, rfl⟩
  exact hexpire.trans (advanceLoop_steady _ _ _)

theorem handleOpen_steady (e : ConnectionEngine) (frame : Frame) :
    Steady e (e.handleOpen frame).2 := by
  unfold handleOpen
  dsimp only
  repeat' split
  all_goals exact ⟨rfl, rfl, rfl⟩

theorem handleCredit_steady (e : ConnectionEngine) (frame : Frame) :
    Steady e (e.handleCredit frame).2 := by
  unfold handleCredit
  dsimp only
  repeat' split
  all_goals exact ⟨rfl, rfl, rfl⟩

theorem handleAck_steady (e : ConnectionEngine) (frame : Frame) : Steady e (e.handleAck frame).2 := by
  unfold handleAck
  repeat' split
  all_goals exact ⟨rfl, rfl, rfl⟩

theorem handlePing_steady (e : ConnectionEngine) (frame : Frame) :
    Steady e (e.handlePing frame).2 := by
  unfold handlePing
  split
  next => exact .refl e
  next =>
    split
    next => exact .refl e
    next => exact emitFrame_steady _ _ _ _ _

theorem handlePong_steady (e : ConnectionEngine) (frame : Frame) :
    Steady e (e.handlePong frame).2 := by
  unfold handlePong
  split
  next => exact .refl e
  next => split <;> exact ⟨rfl, rfl, rfl⟩

theorem handleHalfClose_steady (e : ConnectionEngine) (frame : Frame) :
    Steady e (e.handleHalfClose frame).2 := by
  unfold handleHalfClose
  dsimp only
  repeat' split
  all_goals exact ⟨rfl, rfl, rfl⟩

theorem handleFrame_silent (e : ConnectionEngine) {frame : Frame} (hhello : frame.type ≠ .hello)
    (hdata : frame.type ≠ .data) : Silent e (e.handleFrame frame).2 := by
  unfold handleFrame
  cases htype : frame.type with
  | hello => exact absurd htype hhello
  | data => exact absurd htype hdata
  | «open» => exact (handleOpen_quiet e frame).toSilent
  | ack => exact (handleAck_quiet e frame).toSilent
  | credit => exact (handleCredit_quiet e frame).toSilent
  | ping => exact (handlePing_quiet e frame).toSilent
  | pong => exact (handlePong_quiet e frame).toSilent
  | resume =>
    rcases handleResume_cases e frame with ⟨error, h⟩ | ⟨_, out, h⟩
    · dsimp only
      rw [h]
      exact .refl e
    · dsimp only
      rw [h]
      have hmoved : Silent e { e with state := .active } := .moved e (by decide) (by decide)
      exact hmoved.trans (Quiet.record _ (by decide) _ _ _).toSilent
  | halfClose => exact (handleHalfClose_quiet e frame).toSilent
  | reset => exact (handleReset_quiet e frame).toSilent
  | goaway => exact handleGoaway_silent e frame

theorem handleFrame_steady (e : ConnectionEngine) {frame : Frame} (hhello : frame.type ≠ .hello)
    (hdata : frame.type ≠ .data) : Steady e (e.handleFrame frame).2 := by
  unfold handleFrame
  cases htype : frame.type with
  | hello => exact absurd htype hhello
  | data => exact absurd htype hdata
  | «open» => exact handleOpen_steady e frame
  | ack => exact handleAck_steady e frame
  | credit => exact handleCredit_steady e frame
  | ping => exact handlePing_steady e frame
  | pong => exact handlePong_steady e frame
  | resume =>
    rcases handleResume_cases e frame with ⟨error, h⟩ | ⟨_, out, h⟩
    · dsimp only
      rw [h]
      exact .refl e
    · dsimp only
      rw [h]
      exact ⟨rfl, rfl, rfl⟩
  | halfClose => exact handleHalfClose_steady e frame
  | reset => exact ⟨rfl, rfl, rfl⟩
  | goaway => exact ⟨rfl, rfl, rfl⟩

end ConnectionEngine

end LatticeGateway
