import LatticeGateway.FrameStream
import LatticeGateway.ReceiveSteps

namespace LatticeGateway

namespace ConnectionEngine

/-- The engine with other bytes waiting in its codec. -/
def withBuffer (e : ConnectionEngine) (buffer : Bytes) : ConnectionEngine :=
  { e with codec := { e.codec with buffer } }

/-- An answer and the engine behind it, with other bytes waiting in its codec. -/
def rebuffer {α : Type} (buffer : Bytes) (r : α × ConnectionEngine) : α × ConnectionEngine :=
  (r.1, r.2.withBuffer buffer)

theorem rebuffer_if {α : Type} {c : Prop} [Decidable c] {buffer : Bytes} {x x' y y' : α × ConnectionEngine}
    (hx : c → x' = rebuffer buffer x) (hy : ¬ c → y' = rebuffer buffer y) :
    (if c then x' else y') = rebuffer buffer (if c then x else y) := by
  split
  next h => exact hx h
  next h => exact hy h

theorem withBuffer_channels (e : ConnectionEngine) (buffer : Bytes) :
    (e.withBuffer buffer).channels = e.channels := rfl

theorem withBuffer_capabilities (e : ConnectionEngine) (buffer : Bytes) :
    (e.withBuffer buffer).capabilities = e.capabilities := rfl

theorem withBuffer_replay (e : ConnectionEngine) (buffer : Bytes) :
    (e.withBuffer buffer).replay = e.replay := rfl

theorem withBuffer_registry (e : ConnectionEngine) (buffer : Bytes) :
    (e.withBuffer buffer).registry = e.registry := rfl

theorem withBuffer_executor (e : ConnectionEngine) (buffer : Bytes) :
    (e.withBuffer buffer).executor = e.executor := rfl

theorem emitFrame_buffer (e : ConnectionEngine) (buffer : Bytes) (type : FrameType)
    (channel : ChannelId) (payload : Bytes) (extensions : List Extension) :
    (e.withBuffer buffer).emitFrame type channel payload extensions =
      rebuffer buffer (e.emitFrame type channel payload extensions) := by
  have halike : SendsAlike e (e.withBuffer buffer) := ⟨rfl, rfl, rfl, rfl, rfl⟩
  obtain ⟨hanswer, hsame⟩ := emitFrame_alike halike type channel payload extensions
  obtain ⟨replay, scheduler, nextFrameSeq, hsent⟩ := emitFrame_sent e type channel payload extensions
  obtain ⟨replay', scheduler', nextFrameSeq', hsent'⟩ :=
    emitFrame_sent (e.withBuffer buffer) type channel payload extensions
  rw [hsent, hsent'] at hsame
  obtain ⟨_, _, hreplay, hscheduler, hframeSeq⟩ := hsame
  obtain rfl : replay' = replay := hreplay
  obtain rfl : scheduler' = scheduler := hscheduler
  obtain rfl : nextFrameSeq' = nextFrameSeq := hframeSeq
  refine Prod.ext hanswer (hsent'.trans ?_)
  rw [rebuffer, hsent]
  rfl

theorem handleHello_buffer (e : ConnectionEngine) (buffer : Bytes) (frame : Frame) :
    (e.withBuffer buffer).handleHello frame = rebuffer buffer (e.handleHello frame) := by
  unfold handleHello
  refine rebuffer_if (fun _ => rfl) fun _ => ?_
  cases decodeHelloPayload frame.payload with
  | error error => rfl
  | ok peer =>
    have hlocal : (e.withBuffer buffer).localHello = e.localHello := rfl
    dsimp only
    rw [hlocal]
    cases negotiate e.localHello peer with
    | error error => rfl
    | ok capabilities => rfl

theorem handleOpen_buffer (e : ConnectionEngine) (buffer : Bytes) (frame : Frame) :
    (e.withBuffer buffer).handleOpen frame = rebuffer buffer (e.handleOpen frame) := by
  unfold handleOpen
  rw [withBuffer_channels, withBuffer_capabilities]
  dsimp only
  cases e.channels with
  | none => rfl
  | some t =>
    cases e.capabilities with
    | none => rfl
    | some capabilities =>
      refine rebuffer_if (fun _ => rfl) fun _ => ?_
      cases readU32Be frame.payload 0 with
      | error error => rfl
      | ok family =>
        refine rebuffer_if (fun _ => rfl) fun _ => ?_
        rcases t.acceptRemote frame.channel with ⟨_ | _, t'⟩
        · rfl
        · rfl

theorem completePlugin_buffer (e : ConnectionEngine) (buffer : Bytes) (completion : PluginCompletion) :
    (e.withBuffer buffer).completePlugin completion = rebuffer buffer (e.completePlugin completion) := by
  unfold completePlugin
  rw [withBuffer_channels]
  cases e.channels with
  | none => rfl
  | some t =>
    dsimp only
    cases t.find completion.channel with
    | none => rfl
    | some slot => exact rebuffer_if (fun _ => rfl) fun _ => rfl

theorem dispatch_buffer (e : ConnectionEngine) (buffer : Bytes) (channel : ChannelId) (family : UInt32)
    (completed : LogicalMessage) : (e.withBuffer buffer).dispatch channel family completed =
      rebuffer buffer (e.dispatch channel family completed) := by
  unfold dispatch
  rw [withBuffer_registry]
  cases e.registry.createLease family with
  | error error => rfl
  | ok lease =>
    dsimp only
    rw [withBuffer_executor]
    cases e.executor with
    | some executor =>
      have htoken : (e.withBuffer buffer).nextPluginToken = e.nextPluginToken := rfl
      dsimp only
      rw [htoken]
      generalize executor.submit _ _ = submitted
      rcases submitted with ⟨_ | _, executor'⟩
      · rfl
      · rfl
    | none =>
      dsimp only
      cases lease.handle completed with
      | error error => rfl
      | ok response =>
        have hcomplete := completePlugin_buffer
          { e with executor := none, nextPluginToken := e.nextPluginToken + 1 } buffer
          { token := e.nextPluginToken, channel, sequence := completed.sequence, familyId := family
            response }
        unfold withBuffer at hcomplete ⊢
        dsimp only at hcomplete ⊢
        rw [hcomplete]
        generalize completePlugin _ _ = done
        rcases done with ⟨_ | _, e'⟩
        · rfl
        · rfl

theorem handleData_buffer (e : ConnectionEngine) (buffer : Bytes) (frame : Frame) :
    (e.withBuffer buffer).handleData frame = rebuffer buffer (e.handleData frame) := by
  unfold handleData
  rw [withBuffer_channels]
  cases e.channels with
  | none => rfl
  | some t =>
    refine rebuffer_if (fun _ => rfl) fun _ => ?_
    cases t.find frame.channel with
    | none => rfl
    | some slot =>
      refine rebuffer_if (fun _ => rfl) fun _ => ?_
      split
      next seq offset total family _ _ _ _ =>
        refine rebuffer_if (fun _ => rfl) fun _ => ?_
        rcases slot.flow.reserve frame.payload.length with ⟨_ | _, flow⟩
        · rfl
        · dsimp only
          rcases slot.reassembler.insert frame.channel seq offset total frame.payload with
            ⟨_ | _ | completed, reassembler⟩
          · rfl
          · rfl
          · refine rebuffer_if (fun _ => rfl) fun _ => ?_
            refine Eq.trans ?_ (dispatch_buffer _ buffer frame.channel family completed)
            rfl
      next => rfl

theorem handleCredit_buffer (e : ConnectionEngine) (buffer : Bytes) (frame : Frame) :
    (e.withBuffer buffer).handleCredit frame = rebuffer buffer (e.handleCredit frame) := by
  unfold handleCredit
  rw [withBuffer_channels]
  dsimp only
  cases e.channels with
  | none => rfl
  | some t =>
    refine rebuffer_if (fun _ => rfl) fun _ => ?_
    cases readU32Be frame.payload 0 with
    | error error => rfl
    | ok amount =>
      dsimp only
      cases t.find frame.channel with
      | none => rfl
      | some slot =>
        dsimp only
        rcases slot.flow.grant amount.toNat with ⟨_ | _, flow⟩
        · rfl
        · rfl

theorem handleAck_buffer (e : ConnectionEngine) (buffer : Bytes) (frame : Frame) :
    (e.withBuffer buffer).handleAck frame = rebuffer buffer (e.handleAck frame) := by
  unfold handleAck
  refine rebuffer_if (fun _ => rfl) fun _ => ?_
  cases decodeAckPayload frame.payload with
  | error error => rfl
  | ok decoded =>
    obtain ⟨epoch, ranges⟩ := decoded
    dsimp only
    rw [withBuffer_replay]
    rcases e.replay.acknowledge epoch ranges with ⟨_ | _, replay⟩
    · rfl
    · rfl

theorem handlePing_buffer (e : ConnectionEngine) (buffer : Bytes) (frame : Frame) :
    (e.withBuffer buffer).handlePing frame = rebuffer buffer (e.handlePing frame) := by
  unfold handlePing
  refine rebuffer_if (fun _ => rfl) fun _ => ?_
  cases decodeU64Be frame.payload with
  | error error => rfl
  | ok token => exact emitFrame_buffer e buffer _ _ _ _

theorem handlePong_buffer (e : ConnectionEngine) (buffer : Bytes) (frame : Frame) :
    (e.withBuffer buffer).handlePong frame = rebuffer buffer (e.handlePong frame) := by
  unfold handlePong
  refine rebuffer_if (fun _ => rfl) fun _ => ?_
  cases decodeU64Be frame.payload with
  | error error => rfl
  | ok token => rfl

theorem handleResume_buffer (e : ConnectionEngine) (buffer : Bytes) (frame : Frame) :
    (e.withBuffer buffer).handleResume frame = rebuffer buffer (e.handleResume frame) := by
  unfold handleResume
  refine rebuffer_if (fun _ => rfl) fun _ => ?_
  cases decodeResumePayload frame.payload with
  | error error => rfl
  | ok request =>
    refine rebuffer_if (fun _ => rfl) fun _ => ?_
    rw [withBuffer_replay]
    cases e.replay.canResume { epoch := request.epoch, firstRequiredSeq := request.firstRequiredSeq } with
    | error error => rfl
    | ok _ =>
      dsimp only
      cases e.replay.retainedFrom request.epoch request.firstRequiredSeq with
      | error error => rfl
      | ok retained => rfl

theorem handleHalfClose_buffer (e : ConnectionEngine) (buffer : Bytes) (frame : Frame) :
    (e.withBuffer buffer).handleHalfClose frame = rebuffer buffer (e.handleHalfClose frame) := by
  unfold handleHalfClose
  rw [withBuffer_channels]
  dsimp only
  cases e.channels with
  | none => rfl
  | some t =>
    refine rebuffer_if (fun _ => rfl) fun _ => ?_
    generalize t.halfClose frame.channel _ = closed
    rcases closed with ⟨_ | _, t'⟩
    · rfl
    · rfl

theorem handleFrame_buffer (e : ConnectionEngine) (buffer : Bytes) (frame : Frame) :
    (e.withBuffer buffer).handleFrame frame = rebuffer buffer (e.handleFrame frame) := by
  unfold handleFrame
  cases frame.type with
  | hello => exact handleHello_buffer e buffer frame
  | «open» => exact handleOpen_buffer e buffer frame
  | data => exact handleData_buffer e buffer frame
  | ack => exact handleAck_buffer e buffer frame
  | credit => exact handleCredit_buffer e buffer frame
  | ping => exact handlePing_buffer e buffer frame
  | pong => exact handlePong_buffer e buffer frame
  | resume => exact handleResume_buffer e buffer frame
  | halfClose => exact handleHalfClose_buffer e buffer frame
  | reset => rfl
  | goaway => rfl

/-- What an event does, and how it is answered, does not depend on the bytes behind it. -/
theorem handleEvent_buffer (e : ConnectionEngine) (buffer : Bytes) (event : DecodeEvent) :
    (e.withBuffer buffer).handleEvent event = rebuffer buffer (e.handleEvent event) := by
  cases event with
  | needMore => rfl
  | error error => rfl
  | frame frame =>
    unfold handleEvent
    dsimp only
    rw [handleFrame_buffer]
    rcases e.handleFrame frame with ⟨error | out, e'⟩
    · by_cases hclose : error.action = .closeConnection
      · simp only [rebuffer, if_pos hclose]
        rfl
      · simp only [rebuffer, if_neg hclose]
        rfl
    · rfl

theorem receiveLoop_buffer (events : List DecodeEvent) (e : ConnectionEngine) (buffer : Bytes)
    (out : List Bytes) : receiveLoop events (e.withBuffer buffer) out =
      rebuffer buffer (receiveLoop events e out) := by
  induction events generalizing e out with
  | nil => rfl
  | cons event events ih =>
    unfold receiveLoop
    rw [handleEvent_buffer]
    rcases e.handleEvent event with ⟨_ | produced, e'⟩
    · rfl
    · exact ih e' (out ++ produced)

theorem handleFrame_codec (e : ConnectionEngine) (frame : Frame) :
    (e.handleFrame frame).2.codec = e.codec := by
  unfold handleFrame
  cases frame.type with
  | hello =>
    rcases handleHello_cases e frame with ⟨error, h⟩ | ⟨_, capabilities, _, _, _, h⟩
    · exact congrArg (fun r => r.2.codec) h
    · exact congrArg (fun r => r.2.codec) h
  | «open» => exact (handleOpen_quiet e frame).codec
  | data =>
    rcases handleData_effect e frame with h | ⟨_, _, h⟩
    · exact h.codec
    · exact h
  | ack => exact (handleAck_quiet e frame).codec
  | credit => exact (handleCredit_quiet e frame).codec
  | ping => exact (handlePing_quiet e frame).codec
  | pong => exact (handlePong_quiet e frame).codec
  | resume =>
    rcases handleResume_cases e frame with ⟨error, h⟩ | ⟨_, out, h⟩
    · exact congrArg (fun r => r.2.codec) h
    · exact congrArg (fun r => r.2.codec) h
  | halfClose => exact (handleHalfClose_quiet e frame).codec
  | reset => exact (handleReset_quiet e frame).codec
  | goaway => rfl

theorem handleEvent_codec (e : ConnectionEngine) (event : DecodeEvent) :
    (e.handleEvent event).2.codec = e.codec := by
  cases event with
  | needMore => rfl
  | error error => rfl
  | frame frame =>
    have hframe := handleFrame_codec e frame
    unfold handleEvent
    dsimp only
    split
    next h =>
      rw [h] at hframe
      dsimp only
      split
      next => exact hframe
      next => exact hframe
    next h =>
      rw [h] at hframe
      exact hframe

theorem receiveLoop_codec (events : List DecodeEvent) (e : ConnectionEngine) (out : List Bytes) :
    (receiveLoop events e out).2.codec = e.codec := by
  induction events generalizing e out with
  | nil => rfl
  | cons event events ih =>
    have hevent := handleEvent_codec e event
    unfold receiveLoop
    split
    next h => rw [h] at hevent; exact hevent
    next h => rw [h] at hevent; exact (ih _ _).trans hevent

theorem handleTimer_codec (e : ConnectionEngine) (timer : TimerEvent) :
    (e.handleTimer timer).2.codec = e.codec := by
  unfold handleTimer
  cases timer.kind with
  | handshake => dsimp only; split <;> rfl
  | retry => dsimp only; split <;> rfl
  | pongDeadline => dsimp only; split <;> rfl
  | drain => dsimp only; split <;> rfl
  | fragmentGap => dsimp only; split <;> rfl
  | idle =>
    dsimp only
    generalize (if e.nowMs = 0 then (1 : UInt64) else e.nowMs) = token
    have hsent : SentFrom { e with pendingPongToken := some token }
        ({ e with pendingPongToken := some token }.ping token).2 := emitFrame_sent _ _ _ _ _
    split
    next h => rw [h] at hsent; exact hsent.codec
    next h => rw [h] at hsent; exact hsent.codec

theorem advanceLoop_codec (timers : List TimerEvent) (e : ConnectionEngine) (out : List Bytes) :
    (advanceLoop timers e out).2.codec = e.codec := by
  induction timers generalizing e out with
  | nil => rfl
  | cons timer timers ih =>
    have htimer := handleTimer_codec (e.record .timerExpired timer.channel) timer
    unfold advanceLoop
    dsimp only
    split
    next => exact ih _ _
    next =>
      split
      next h => rw [h] at htimer; exact htimer
      next h => rw [h] at htimer; exact (ih _ _).trans htimer

theorem start_codec (e : ConnectionEngine) : e.start.2.codec = e.codec := by
  unfold start
  split
  next => rfl
  next =>
    split
    next => rfl
    next => exact (emitFrame_quiet _ _ _ _ _).codec

/-- The bytes that wait in the codec are not a whole frame. -/
def Hungry (e : ConnectionEngine) : Prop :=
  decodeFrame e.codec.limits false e.codec.buffer = .needMore

theorem Hungry.of_codec {e e' : ConnectionEngine} (hi : Hungry e) (h : e'.codec = e.codec) :
    Hungry e' := by
  unfold Hungry
  rw [h]
  exact hi

theorem feed_hungry (codec : FrameCodec) (bytes : Bytes) (eof : Bool) :
    decodeFrame (codec.feed bytes eof).2.limits false (codec.feed bytes eof).2.buffer = .needMore := by
  obtain ⟨frames, tail, h⟩ := (decodeFrame_stable codec.limits).exists_decodes (codec.buffer ++ bytes)
  cases eof with
  | false =>
    rw [FrameCodec.feed_more h]
    cases tail with
    | rest rest => exact h.rest_needMore
    | failed error => exact decodeFrame_nil _ _
  | true =>
    rw [FrameCodec.feed_eof h]
    cases tail with
    | rest rest => cases rest <;> exact decodeFrame_nil _ _
    | failed error => exact decodeFrame_nil _ _

theorem Hungry.call {e : ConnectionEngine} (hi : Hungry e) (c : Call) : Hungry (e.call c) := by
  cases c with
  | start => exact hi.of_codec (start_codec e)
  | receive bytes eof =>
    have hcodec : (e.receive bytes eof).2.codec = (e.codec.feed bytes eof).2 :=
      receiveLoop_codec _ _ _
    show decodeFrame (e.receive bytes eof).2.codec.limits false (e.receive bytes eof).2.codec.buffer = _
    rw [hcodec]
    exact feed_hungry _ _ _
  | openChannel request => exact hi.of_codec (openChannel_quiet e request).codec
  | send id payload => exact hi.of_codec (send_quiet e id payload).codec
  | grantCredit id amount => exact hi.of_codec (emitFrame_quiet e _ _ _ _).codec
  | acknowledge ranges => exact hi.of_codec (acknowledge_quiet e ranges).codec
  | ping token => exact hi.of_codec (emitFrame_quiet e _ _ _ _).codec
  | resume request => exact hi.of_codec (emitFrame_quiet e _ _ _ _).codec
  | completePlugin completion => exact hi.of_codec (completePlugin_quiet e completion).codec
  | advanceTime nowMs => exact hi.of_codec (advanceLoop_codec _ _ _)
  | flushOutbound writableBytes => exact hi
  | loadReplaySnapshot text => exact hi.of_codec (loadReplaySnapshot_quiet e text).codec
  | halfClose id direction => exact hi.of_codec (halfClose_quiet e id direction).codec
  | reset id => exact hi.of_codec (reset_quiet e id).codec
  | goaway => exact hi.of_codec (emitFrame_quiet _ _ _ _ _).codec
  | submitTask shard result => exact hi
  | cancelTask id => exact hi
  | drainOne => exact hi.of_codec (drainOne_quiet e).codec
  | drainAll => exact hi.of_codec (drainAllLoop_quiet _ e).codec

end ConnectionEngine

end LatticeGateway
