import LatticeGateway.EngineCalls

namespace LatticeGateway

namespace ConnectionEngine

/-- The two engines differ at most in what sending a frame touches. -/
def SentFrom (e e' : ConnectionEngine) : Prop :=
  ∃ replay scheduler nextFrameSeq, e' = { e with replay, scheduler, nextFrameSeq }

theorem SentFrom.refl (e : ConnectionEngine) : SentFrom e e :=
  ⟨e.replay, e.scheduler, e.nextFrameSeq, rfl⟩

theorem SentFrom.trans {e e' e'' : ConnectionEngine} (h : SentFrom e e') (h' : SentFrom e' e'') :
    SentFrom e e'' := by
  obtain ⟨_, _, _, rfl⟩ := h
  obtain ⟨replay, scheduler, nextFrameSeq, rfl⟩ := h'
  exact ⟨replay, scheduler, nextFrameSeq, rfl⟩

theorem emit_sent (e : ConnectionEngine) (frame : Frame) : SentFrom e (e.emit frame).2 := by
  unfold emit
  cases e.codec.encode frame with
  | error error => exact .refl e
  | ok encoded =>
    dsimp only
    split
    next replay _ => exact ⟨replay, e.scheduler, e.nextFrameSeq, rfl⟩
    next replay _ =>
      split
      next h =>
        obtain rfl := congrArg Prod.snd h
        exact ⟨replay, _, e.nextFrameSeq, rfl⟩
      next h =>
        obtain rfl := congrArg Prod.snd h
        exact ⟨replay, _, e.nextFrameSeq, rfl⟩

theorem emitFrame_sent (e : ConnectionEngine) (type : FrameType) (channel : ChannelId)
    (payload : Bytes) (extensions : List Extension) :
    SentFrom e (e.emitFrame type channel payload extensions).2 := by
  have hframe : SentFrom e (e.makeFrame type channel payload extensions).2 :=
    ⟨e.replay, e.scheduler, e.nextFrameSeq + 1, rfl⟩
  exact hframe.trans (emit_sent _ _)

theorem sendLoop_sent (id : ChannelId) (sequence : UInt32) (total : Nat)
    (rounds : List (Nat × Bytes)) (e : ConnectionEngine) (out : List Bytes) :
    SentFrom e (sendLoop id sequence total rounds e out).2 := by
  induction rounds generalizing e out with
  | nil => exact .refl e
  | cons round rounds ih =>
    obtain ⟨offset, fragment⟩ := round
    have hsent := emitFrame_sent e .data id fragment (fragmentExtensions sequence offset total)
    unfold sendLoop
    split
    next h => rw [h] at hsent; exact hsent
    next h => rw [h] at hsent; exact hsent.trans (ih _ _)

theorem SentFrom.state {e e' : ConnectionEngine} (h : SentFrom e e') : e'.state = e.state := by
  obtain ⟨_, _, _, rfl⟩ := h
  rfl

theorem SentFrom.channels {e e' : ConnectionEngine} (h : SentFrom e e') :
    e'.channels = e.channels := by
  obtain ⟨_, _, _, rfl⟩ := h
  rfl

theorem SentFrom.events {e e' : ConnectionEngine} (h : SentFrom e e') : e'.events = e.events := by
  obtain ⟨_, _, _, rfl⟩ := h
  rfl

theorem SentFrom.codec {e e' : ConnectionEngine} (h : SentFrom e e') : e'.codec = e.codec := by
  obtain ⟨_, _, _, rfl⟩ := h
  rfl

theorem SentFrom.policy {e e' : ConnectionEngine} (h : SentFrom e e') : e'.policy = e.policy := by
  obtain ⟨_, _, _, rfl⟩ := h
  rfl

theorem SentFrom.pendingPongToken {e e' : ConnectionEngine} (h : SentFrom e e') :
    e'.pendingPongToken = e.pendingPongToken := by
  obtain ⟨_, _, _, rfl⟩ := h
  rfl

theorem SentFrom.nowMs {e e' : ConnectionEngine} (h : SentFrom e e') : e'.nowMs = e.nowMs := by
  obtain ⟨_, _, _, rfl⟩ := h
  rfl

/-- Two engines that send every frame alike. -/
structure SendsAlike (e e' : ConnectionEngine) : Prop where
  policy : e'.policy = e.policy
  limits : e'.codec.limits = e.codec.limits
  replay : e'.replay = e.replay
  scheduler : e'.scheduler = e.scheduler
  nextFrameSeq : e'.nextFrameSeq = e.nextFrameSeq

theorem emit_alike {e e' : ConnectionEngine} (h : SendsAlike e e') (frame : Frame) :
    (e'.emit frame).1 = (e.emit frame).1 ∧ SendsAlike (e.emit frame).2 (e'.emit frame).2 := by
  obtain ⟨hpolicy, hlimits, hreplay, hscheduler, hframeSeq⟩ := h
  have hencode : e'.codec.encode frame = e.codec.encode frame := by
    unfold FrameCodec.encode
    rw [hlimits]
  unfold emit queueEncoded flushOutbound
  rw [hencode, hreplay]
  cases e.codec.encode frame with
  | error error => exact ⟨rfl, hpolicy, hlimits, hreplay, hscheduler, hframeSeq⟩
  | ok encoded =>
    dsimp only
    rcases e.replay.record 1 frame.frameSeq encoded with ⟨_ | _, replay⟩
    · exact ⟨rfl, hpolicy, hlimits, rfl, hscheduler, hframeSeq⟩
    · dsimp only
      rw [hscheduler, hpolicy]
      rcases e.scheduler.enqueue (outboundItem frame encoded) with ⟨_ | _, scheduler⟩
      · exact ⟨rfl, rfl, hlimits, rfl, rfl, hframeSeq⟩
      · exact ⟨rfl, rfl, hlimits, rfl, rfl, hframeSeq⟩

theorem emitFrame_alike {e e' : ConnectionEngine} (h : SendsAlike e e') (type : FrameType)
    (channel : ChannelId) (payload : Bytes) (extensions : List Extension) :
    (e'.emitFrame type channel payload extensions).1 =
        (e.emitFrame type channel payload extensions).1 ∧
      SendsAlike (e.emitFrame type channel payload extensions).2
        (e'.emitFrame type channel payload extensions).2 := by
  unfold emitFrame makeFrame
  dsimp only
  rw [h.nextFrameSeq]
  have hframe : SendsAlike { e with nextFrameSeq := e.nextFrameSeq + 1 }
      { e' with nextFrameSeq := e.nextFrameSeq + 1 } :=
    ⟨h.policy, h.limits, h.replay, h.scheduler, rfl⟩
  exact emit_alike hframe _

end ConnectionEngine

end LatticeGateway
