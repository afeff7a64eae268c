import LatticeGateway.SteadyParts

namespace LatticeGateway

namespace ConnectionEngine

/-- The engine records neither deliveries nor responses. -/
def Mute (e e' : ConnectionEngine) : Prop :=
  ∃ more, e'.events = e.events ++ more ∧
    ∀ event ∈ more, event.kind ≠ .messageDelivered ∧ event.kind ≠ .pluginResponse

theorem Mute.of_eq {e e' : ConnectionEngine} (h : e'.events = e.events) : Mute e e' :=
  ⟨[], by rw [h, List.append_nil], fun _ hevent => absurd hevent List.not_mem_nil⟩

theorem Mute.refl (e : ConnectionEngine) : Mute e e := .of_eq rfl

theorem Mute.trans {e e' e'' : ConnectionEngine} (h : Mute e e') (h' : Mute e' e'') : Mute e e'' := by
  obtain ⟨more, hevents, hmute⟩ := h
  obtain ⟨more', hevents', hmute'⟩ := h'
  refine ⟨more ++ more', ?_, List.forall_mem_append.mpr ⟨hmute, hmute'⟩⟩
  rw [hevents', hevents, List.append_assoc]

theorem Mute.of_events {e e' : ConnectionEngine} {event : ConnectionEvent}
    (h : e'.events = e.events ++ [event])
    (hkind : event.kind ≠ .messageDelivered ∧ event.kind ≠ .pluginResponse) : Mute e e' :=
  ⟨[event], h, List.forall_mem_singleton.mpr hkind⟩

theorem Mute.record (e : ConnectionEngine) {kind : EventKind}
    (h : kind ≠ .messageDelivered ∧ kind ≠ .pluginResponse) (channel : ChannelId) (sequence : UInt32)
    (payload : Bytes) : Mute e (e.record kind channel sequence payload) := .of_events rfl h

theorem Mute.diagnostic (e : ConnectionEngine) (error : Error) : Mute e (e.diagnostic error) :=
  .of_events rfl (by simp)

theorem SentFrom.mute {e e' : ConnectionEngine} (h : SentFrom e e') : Mute e e' := .of_eq h.events

section

variable (e : ConnectionEngine)

theorem emitFrame_mute (type : FrameType) (channel : ChannelId) (payload : Bytes)
    (extensions : List Extension) : Mute e (e.emitFrame type channel payload extensions).2 :=
  (emitFrame_sent e type channel payload extensions).mute

theorem start_mute : Mute e e.start.2 := by
  unfold start
  split
  next => exact .refl e
  next =>
    split
    next => exact .refl e
    next =>
      exact emitFrame_mute ({ e with state := .negotiating }.scheduleTimer .handshake {}
        kHandshakeTimeoutMs) _ _ _ _

theorem openChannel_mute (request : OpenRequest) : Mute e (e.openChannel request).2 := by
  unfold openChannel
  dsimp only
  split
  next t capabilities _ _ =>
    split
    next => exact .refl e
    next =>
      split
      next => exact .refl e
      next =>
        split
        next => exact .of_eq rfl
        next id t' _ =>
          split
          next => exact .of_eq rfl
          next t'' _ =>
            have hemit := emitFrame_mute { e with channels := some t'' } .open id
              (u32Bytes request.familyId ++ u32Bytes (UInt32.ofNat request.initialWindow)) []
            split
            next h => rw [h] at hemit; exact hemit
            next h =>
              rw [h] at hemit
              exact hemit.trans (.record _ (by decide) _ _ _)
  next => exact .refl e

theorem send_mute (id : ChannelId) (payload : Bytes) : Mute e (e.send id payload).2 := by
  rcases send_cases e id payload with
    ⟨error, h⟩ | ⟨capabilities, t, slot, flow, _, ⟨_, error, h⟩ | ⟨_, h⟩⟩
  · rw [h]
    exact .refl e
  · rw [h]
    exact .of_eq rfl
  · rw [h]
    exact .of_eq (sendLoop_sent id slot.nextSendSeq payload.length
      (fragments (max 1 (capabilities.maxFrame / 2)) payload payload.length 0)
      { e with channels := some (t.setSlot id.number (sending slot flow)) } []).events

theorem acknowledge_mute (ranges : List AckRange) : Mute e (e.acknowledge ranges).2 := by
  unfold acknowledge
  split
  next => exact .refl e
  next => exact emitFrame_mute _ _ _ _ _

theorem loadReplaySnapshot_mute (text : Bytes) : Mute e (e.loadReplaySnapshot text).2 := by
  unfold loadReplaySnapshot
  repeat' split
  all_goals exact .of_eq rfl

theorem announced_mute (t : ChannelTable) {kind : EventKind}
    (hkind : kind ≠ .messageDelivered ∧ kind ≠ .pluginResponse) (id : ChannelId) (frame : Frame) :
    Mute e (({ e with channels := some t, nextFrameSeq := e.nextFrameSeq + 1 }.record kind id).emit
      frame).2 := by
  have hevent : Mute e ({ e with channels := some t, nextFrameSeq := e.nextFrameSeq + 1 }.record
      kind id) := .of_events rfl hkind
  exact hevent.trans (emit_sent _ _).mute

theorem halfClose_mute (id : ChannelId) (direction : Direction) :
    Mute e (e.halfClose id direction).2 := by
  unfold halfClose
  split
  next => exact .refl e
  next =>
    split
    next => exact .of_eq rfl
    next t' _ => exact announced_mute e t' (by decide) id _

theorem reset_mute (id : ChannelId) : Mute e (e.reset id).2 := by
  unfold reset
  split
  next => exact .refl e
  next =>
    split
    next => exact .of_eq rfl
    next t' _ => exact announced_mute e t' (by decide) id _

theorem goaway_mute : Mute e e.goaway.2 :=
  emitFrame_mute ({ e with state := .draining }.scheduleTimer .drain {} kDrainTimeoutMs) _ _ _ _

theorem handleTimer_mute (timer : TimerEvent) : Mute e (e.handleTimer timer).2 := by
  unfold handleTimer
  cases timer.kind with
  | handshake =>
    dsimp only
    split
    next => exact .diagnostic e _
    next => exact .refl e
  | retry =>
    dsimp only
    split <;> exact .of_eq rfl
  | idle =>
    dsimp only
    generalize (if e.nowMs = 0 then (1 : UInt64) else e.nowMs) = token
    have hping : Mute { e with pendingPongToken := some token }
        ({ e with pendingPongToken := some token }.ping token).2 := emitFrame_mute _ _ _ _ _
    split
    next h => rw [h] at hping; exact hping
    next h => rw [h] at hping; exact hping
  | pongDeadline =>
    dsimp only
    split
    next => exact (Mute.diagnostic e _).trans (.record _ (by decide) _ _ _)
    next => exact .refl e
  | drain =>
    dsimp only
    split
    next => exact .record _ (by decide) _ _ _
    next => exact .refl e
  | fragmentGap =>
    dsimp only
    split
    next => exact .refl e
    next => exact .of_events rfl (by simp)

theorem handleFrame_mute {frame : Frame} (hdata : frame.type ≠ .data) :
    Mute e (e.handleFrame frame).2 := by
  unfold handleFrame
  cases htype : frame.type with
  | data => exact absurd htype hdata
  | hello =>
    dsimp only
    rcases handleHello_cases e frame with ⟨error, h⟩ | ⟨peer, caps, _, _, _, h⟩
    · rw [h]
      exact .refl e
    · rw [h]
      exact .of_events rfl (by simp)
  | «open» =>
    dsimp only
    unfold handleOpen
    dsimp only
    repeat' split
    all_goals first
      | exact .of_eq rfl
      | exact .of_events rfl (by simp)
  | ack =>
    dsimp only
    unfold handleAck
    repeat' split
    all_goals exact .of_eq rfl
  | credit =>
    dsimp only
    unfold handleCredit
    dsimp only
    repeat' split
    all_goals exact .of_eq rfl
  | ping =>
    dsimp only
    unfold handlePing
    repeat' split
    all_goals first
      | exact .refl e
      | exact emitFrame_mute _ _ _ _ _
  | pong =>
    dsimp only
    unfold handlePong
    repeat' split
    all_goals first
      | exact .refl e
      | exact .of_events rfl (by simp)
  | resume =>
    dsimp only
    rcases handleResume_cases e frame with ⟨error, h⟩ | ⟨_, out, h⟩
    · rw [h]
      exact .refl e
    · rw [h]
      exact .of_events rfl (by simp)
  | halfClose =>
    dsimp only
    unfold handleHalfClose
    dsimp only
    repeat' split
    all_goals first
      | exact .of_eq rfl
      | exact .of_events rfl (by simp)
  | reset => exact .of_events rfl (by simp)
  | goaway => exact .of_events rfl (by simp)

end

theorem advanceLoop_mute (timers : List TimerEvent) (e : ConnectionEngine) (out : List Bytes) :
    Mute e (advanceLoop timers e out).2 := by
  induction timers generalizing e out with
  | nil => exact .refl e
  | cons timer timers ih =>
    have hrecord : Mute e (e.record .timerExpired timer.channel) := .record _ (by decide) _ _ _
    unfold advanceLoop
    dsimp only
    split
    next => exact hrecord.trans (ih _ _)
    next =>
      have htimer := handleTimer_mute (e.record .timerExpired timer.channel) timer
      split
      next h => rw [h] at htimer; exact hrecord.trans htimer
      next h =>
        rw [h] at htimer
        exact (hrecord.trans htimer).trans (ih _ _)

/-- A DATA frame records its message, if it completes one, and dispatches it. -/
theorem handleData_records (e : ConnectionEngine) (frame : Frame) :
    (Steady e (e.handleData frame).2 ∧ Mute e (e.handleData frame).2) ∨
      ∃ family completed e', Steady e e' ∧ e'.events = e.events ++ [{
          kind := .messageDelivered, channel := frame.channel, sequence := completed.sequence
          payload := completed.payload }] ∧
        e.handleData frame = e'.dispatch frame.channel family completed := by
  unfold handleData
  cases e.channels with
  | none => exact .inl ⟨.refl e, .refl e⟩
  | some t =>
    dsimp only
    split
    next => exact .inl ⟨.refl e, .refl e⟩
    next =>
      cases t.find frame.channel with
      | none => exact .inl ⟨.refl e, .refl e⟩
      | some slot =>
        dsimp only
        split
        next => exact .inl ⟨.refl e, .refl e⟩
        next =>
          split
          next seq offset total family _ _ _ _ =>
            split
            next => exact .inl ⟨.refl e, .refl e⟩
            next =>
              split
              next => exact .inl ⟨⟨rfl, rfl, rfl⟩, .of_eq rfl⟩
              next =>
                rcases slot.reassembler.insert frame.channel seq offset total frame.payload with
                  ⟨_ | _ | completed, reassembler⟩
                · exact .inl ⟨⟨rfl, rfl, rfl⟩, .of_eq rfl⟩
                · exact .inl ⟨⟨rfl, rfl, rfl⟩, .of_eq rfl⟩
                · dsimp only
                  split
                  next => exact .inl ⟨⟨rfl, rfl, rfl⟩, .of_eq rfl⟩
                  next =>
                    right
                    refine ⟨family, completed, _, ?_, ?_, rfl⟩
                    · exact ⟨rfl, rfl, rfl⟩
                    · rfl
          next => exact .inl ⟨.refl e, .refl e⟩

end ConnectionEngine

end LatticeGateway
