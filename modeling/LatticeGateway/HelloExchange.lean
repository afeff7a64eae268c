import LatticeGateway.IdleOutbound
import LatticeGateway.Negotiation
import LatticeGateway.ReceiveSteps

namespace LatticeGateway

open Runs StreamDecoder

/-- What one codec writes another writes too, as far as its own limits go. -/
theorem FrameCodec.encode_relimit {codec codec' : FrameCodec} {frame : Frame} {encoded : Bytes}
    (h : codec.encode frame = .ok encoded) (hheader : codec.limits.maxHeader ≤ codec'.limits.maxHeader)
    (hsize : encoded.length ≤ codec'.limits.maxFrame) : codec'.encode frame = .ok encoded := by
  obtain ⟨ext, hencodes⟩ := FrameCodec.encode_ok h
  have hext := hencodes.header
  rw [hencodes.length_eq] at hsize
  rw [hencodes.bytes]
  exact FrameCodec.encode_of_fits hencodes.flags hencodes.number hencodes.extensions (by omega)
    hencodes.payload hsize hencodes.small

/-- A frame above the limit of the reader is an error to it. -/
theorem decodeFrame_large {limits limits' : FrameLimits} {frame : Frame} {ext encoded : Bytes}
    (h : Encodes limits frame ext encoded) (hheader : limits.maxHeader ≤ 65535)
    (hsame : limits'.maxHeader = limits.maxHeader) (hlarge : limits'.maxFrame < encoded.length)
    (eof : Bool) : ∃ error, decodeFrame limits' eof encoded = .fail error := by
  have hlayout := h.wireLayout hheader
  have hreader : WireLayout limits' frame.canonical (sizeBytes frame) ext encoded :=
    { hlayout with header := by rw [hsame]; exact hlayout.header }
  exact hreader.decodeFrame_large h.payload hlarge eof

/-- The codec has read everything that it was fed. -/
structure FrameCodec.Clear (codec : FrameCodec) : Prop where
  buffer : codec.buffer = []
  header : codec.limits.maxHeader = 4096

theorem FrameCodec.Clear.feed_one {codec : FrameCodec} (h : codec.Clear) {frame : Frame} {encoded : Bytes}
    (hencode : codec.encode frame = .ok encoded) (hknown : frame.KnownRequired) :
    codec.feed encoded false = ([.frame frame.canonical], codec) := by
  obtain ⟨limits, buffer⟩ := codec
  obtain ⟨rfl, hheader⟩ := h
  have hfeed := @FrameCodec.feed_encodings limits (by dsimp only at hheader; omega) [frame] [encoded]
    (by simpa using hknown) (.cons hencode .nil) false
  simpa using hfeed

theorem FrameCodec.Clear.feed_large {codec codec' : FrameCodec} (h : codec.Clear) (h' : codec'.Clear)
    {frame : Frame} {encoded : Bytes} (hencode : codec'.encode frame = .ok encoded)
    (hlarge : codec.limits.maxFrame < encoded.length) :
    ∃ error, (codec.feed encoded false).1 = [.error error] := by
  obtain ⟨ext, hencodes⟩ := FrameCodec.encode_ok hencode
  have hheader := h'.header
  obtain ⟨error, hfail⟩ := decodeFrame_large hencodes (by omega) (h.header.trans hheader.symm) hlarge
    false
  have hdecodes : Decodes (decodeFrame codec.limits false) (codec.buffer ++ encoded) [] (.failed error) := by
    rw [h.buffer]
    exact .failed hfail
  rw [FrameCodec.feed_eq hdecodes (by simp)]
  exact ⟨error, rfl⟩

namespace ConnectionEngine

/-- An engine that has not started, though it may have loaded replay snapshots. -/
def Fresh (e : ConnectionEngine) : Prop :=
  ∃ policy registry executor, ∃ texts : List Bytes,
    e = run call (make policy registry executor) (texts.map Call.loadReplaySnapshot)

/-- What an engine keeps from its making until it negotiates. -/
structure Unused (e : ConnectionEngine) : Prop extends Idle e where
  codec : e.codec.Clear
  maxFrame : e.codec.limits.maxFrame = e.policy.maxFrame
  channels : e.channels = none
  events : e.events = []

theorem Unused.loaded {e : ConnectionEngine} (h : Unused e) (text : Bytes) :
    Unused (e.loadReplaySnapshot text).2 := by
  unfold loadReplaySnapshot
  repeat' split
  all_goals exact ⟨⟨h.scheduler, h.limit⟩, h.codec, h.maxFrame, h.channels, h.events⟩

theorem Fresh.unused {e : ConnectionEngine} (h : Fresh e) : Unused e := by
  obtain ⟨policy, registry, executor, texts, rfl⟩ := h
  have hmake : Unused (make policy registry executor) :=
    ⟨⟨⟨rfl, rfl, rfl⟩, rfl⟩, ⟨rfl, rfl⟩, rfl, rfl, rfl⟩
  generalize make policy registry executor = e at hmake
  induction texts generalizing e with
  | nil => exact hmake
  | cons text texts ih => exact ih _ (hmake.loaded text)

/-- The frame of `emitFrame`, and its engine once the frame has been recorded. -/
theorem Idle.control_sent {e : ConnectionEngine} (h : Idle e) {type : FrameType} {channel : ChannelId}
    {payload : Bytes} {out : List Bytes} (htype : type ≠ .data)
    (hok : (e.emitFrame type channel payload).1 = .ok out) : ∃ encoded,
      e.codec.encode { type, channel, frameSeq := e.nextFrameSeq, payload } = .ok encoded ∧
      e.replay.epoch = 1 ∧ e.emitFrame type channel payload = (.ok [encoded],
        { e with nextFrameSeq := e.nextFrameSeq + 1
                 replay := e.replay.recorded e.nextFrameSeq encoded }) := by
  obtain ⟨encoded, hencode, hreplay, hfits⟩ := emit_ok hok
  have hnext : Idle { e with nextFrameSeq := e.nextFrameSeq + 1 } := ⟨h.scheduler, h.limit⟩
  refine ⟨encoded, hencode, hreplay.1, hnext.emit_control hencode hreplay ?_ htype⟩
  have hlimit : e.scheduler.queuedBytes + encoded.length ≤ e.scheduler.byteLimit := hfits
  rw [h.limit] at hlimit
  exact Nat.le_trans (Nat.le_add_left _ _) hlimit

/-- The HELLO frame of a started engine, and the engine that waits for its peer's. -/
theorem Unused.started {e e' : ConnectionEngine} (h : Unused e) {out : List Bytes}
    (hstart : e.start = (.ok out, e')) : ∃ payload encoded,
      encodeHelloPayload e.localHello = .ok payload ∧
      e.codec.encode { type := .hello, frameSeq := e.nextFrameSeq, payload } = .ok encoded ∧
      out = [encoded] ∧ e'.localHello = e.localHello ∧ e'.codec = e.codec ∧ Unused e' ∧
      e'.replay.epoch = 1 ∧ e'.replay = e.replay.recorded e.nextFrameSeq encoded ∧
      e'.nextFrameSeq = e.nextFrameSeq + 1 := by
  unfold start at hstart
  split at hstart
  next => cases hstart
  next =>
    split at hstart
    next => cases hstart
    next payload hpayload =>
      have hwaits : Idle ({ e with state := .negotiating }.scheduleTimer .handshake {}
          kHandshakeTimeoutMs) := ⟨h.scheduler, h.limit⟩
      obtain ⟨encoded, hencode, hepoch, hsent⟩ :=
        hwaits.control_sent (by decide) (congrArg Prod.fst hstart)
      rw [hsent] at hstart
      cases hstart
      exact ⟨payload, encoded, hpayload, hencode, rfl, rfl, rfl,
        ⟨⟨h.scheduler, h.limit⟩, h.codec, h.maxFrame, h.channels, h.events⟩, hepoch, rfl, rfl⟩

/-- An engine that has negotiated and waits for nothing. -/
structure Ready (e : ConnectionEngine) (caps : CapabilitySet) : Prop extends Idle e where
  codec : e.codec.Clear
  frames : e.codec.limits.maxFrame = e.policy.maxFrame
  maxFrame : 128 ≤ e.codec.limits.maxFrame
  window : 128 ≤ e.policy.connectionWindow
  active : e.state = .active
  capabilities : e.capabilities = some caps
  epoch : e.replay.epoch = 1

/-- A ready engine stays so when nothing changes of what readiness looks at. -/
theorem Ready.of_same {e e' : ConnectionEngine} {caps : CapabilitySet} (h : Ready e caps)
    (hscheduler : e'.scheduler = e.scheduler) (hcodec : e'.codec = e.codec) (hpolicy : e'.policy = e.policy)
    (hstate : e'.state = e.state) (hcapabilities : e'.capabilities = e.capabilities)
    (hepoch : e'.replay.epoch = e.replay.epoch) : Ready e' caps := by
  have hidle : Idle e' :=
    ⟨by rw [hscheduler]; exact h.scheduler, by rw [hscheduler, hpolicy]; exact h.limit⟩
  refine ⟨hidle, ?_, ?_, ?_, ?_, hstate.trans h.active, hcapabilities.trans h.capabilities,
    hepoch.trans h.epoch⟩
  · rw [hcodec]
    exact h.codec
  · rw [hcodec, hpolicy]
    exact h.frames
  · rw [hcodec]
    exact h.maxFrame
  · rw [hpolicy]
    exact h.window

theorem Unused.ready {e : ConnectionEngine} (h : Unused e) (hepoch : e.replay.epoch = 1)
    {peer : HelloMessage} {caps : CapabilitySet} (hagreed : Agreed e.localHello peer caps) :
    Ready (e.negotiated caps) caps := by
  have hframe : caps.maxFrame ≤ e.policy.maxFrame := by
    rw [hagreed.maxFrame]
    exact Nat.min_le_left _ _
  have hwindow : caps.connectionWindow ≤ e.policy.connectionWindow := by
    rw [hagreed.connectionWindow]
    exact Nat.min_le_left _ _
  have hge := hagreed.frame_ge
  have hframes := hagreed.window_ge
  have hlimit : 128 ≤ e.codec.limits.maxFrame := by
    rw [h.maxFrame]
    omega
  have hroom : 128 ≤ e.policy.connectionWindow := by omega
  exact ⟨⟨h.scheduler, h.limit⟩, h.codec, h.maxFrame, hlimit, hroom, rfl, rfl, hepoch⟩

theorem handleEvent_ok {e e' : ConnectionEngine} {frame : Frame} {out : List Bytes}
    (h : e.handleFrame frame = (.ok out, e')) : e.handleEvent (.frame frame) = (.ok out, e') := by
  unfold handleEvent
  dsimp only
  rw [h]

theorem handleEvent_refused {e e' : ConnectionEngine} {frame : Frame} {error : Error}
    (h : e.handleFrame frame = (.error error, e')) (haction : error.action ≠ .closeConnection) :
    e.handleEvent (.frame frame) = (.error error, e'.diagnostic error) := by
  unfold handleEvent
  dsimp only
  rw [h]
  dsimp only
  rw [if_neg haction]

/-- One frame in one chunk. -/
theorem receive_one {e : ConnectionEngine} (h : e.codec.Clear) {frame : Frame} {encoded : Bytes}
    (hencode : e.codec.encode frame = .ok encoded) (hknown : frame.KnownRequired) :
    e.receive encoded false = e.handleEvent (.frame frame.canonical) := by
  unfold receive
  rw [h.feed_one hencode hknown]
  change receiveLoop [.frame frame.canonical] e [] = _
  unfold receiveLoop
  rcases e.handleEvent (.frame frame.canonical) with ⟨_ | produced, e'⟩
  · rfl
  · rfl

/-- An engine that takes the HELLO of another has negotiated with what that one offers. -/
theorem Unused.negotiates {e e' peer : ConnectionEngine} (h : Unused e) (hpeer : peer.codec.Clear)
    {hello : HelloMessage} {payload encoded : Bytes} {frameSeq : UInt32} {out : List Bytes}
    (hpayload : encodeHelloPayload hello = .ok payload)
    (hencode : peer.codec.encode { type := .hello, frameSeq, payload } = .ok encoded)
    (hreceive : e.receive encoded false = (.ok out, e')) :
    ∃ caps, Agreed e.localHello hello.onWire caps ∧ e' = e.negotiated caps := by
  by_cases hsize : encoded.length ≤ e.codec.limits.maxFrame
  · have hsame := FrameCodec.encode_relimit hencode (by rw [hpeer.header, h.codec.header]) hsize
    rw [receive_one h.codec hsame (by simp [Frame.KnownRequired])] at hreceive
    have hframe : e.handleFrame (Frame.canonical { type := .hello, frameSeq, payload }) =
        e.handleHello { type := .hello, frameSeq, payload } := rfl
    rcases handleHello_cases e { type := .hello, frameSeq, payload } with
      ⟨error, herror⟩ | ⟨read, caps, _, hread, hcaps, hhandled⟩
    · unfold handleEvent at hreceive
      dsimp only at hreceive
      rw [hframe, herror] at hreceive
      cases hreceive
    · rw [decode_encode_hello hpayload hread] at hcaps
      rw [handleEvent_ok (hframe.trans hhandled)] at hreceive
      cases hreceive
      exact ⟨caps, negotiate_ok hcaps, rfl⟩
  · obtain ⟨error, hfeed⟩ := h.codec.feed_large hpeer hencode (by omega)
    unfold receive at hreceive
    rcases hevents : e.codec.feed encoded false with ⟨events, codec⟩
    rw [hevents] at hfeed hreceive
    obtain rfl : events = [.error error] := hfeed
    cases hreceive

/-- Two engines start, and each receives what the other has sent. -/
def helloExchange (a b : ConnectionEngine) : Option (ConnectionEngine × ConnectionEngine) :=
  match a.start, b.start with
  | (.ok toB, a), (.ok toA, b) =>
    match a.receive toA.flatten false, b.receive toB.flatten false with
    | (.ok _, a), (.ok _, b) => some (a, b)
    | _, _ => none
  | _, _ => none

/-- What the HELLO exchange leaves: both ends ready, each with what it agreed to. -/
structure Paired (a b : ConnectionEngine) (capsA capsB : CapabilitySet) : Prop where
  readyA : Ready a capsA
  readyB : Ready b capsB
  agreedA : Agreed a.localHello b.localHello.onWire capsA
  agreedB : Agreed b.localHello a.localHello.onWire capsB

theorem Paired.serves {a b : ConnectionEngine} {capsA capsB : CapabilitySet}
    (h : Paired a b capsA capsB) (family : UInt32) :
    Serves capsA.plugins family ↔ Serves capsB.plugins family := by
  rw [h.agreedA.serves, h.agreedB.serves]
  change _ ∧ Serves (sortPlugins _) family ↔ _ ∧ Serves (sortPlugins _) family
  rw [serves_sort, serves_sort]
  exact and_comm

theorem Paired.maxChannels {a b : ConnectionEngine} {capsA capsB : CapabilitySet}
    (h : Paired a b capsA capsB) : capsA.maxChannels = capsB.maxChannels := by
  rw [h.agreedA.maxChannels, h.agreedB.maxChannels]
  exact uint16_min_comm _ _

theorem helloExchange_ok {a b a' b' : ConnectionEngine} (ha : Fresh a) (hb : Fresh b)
    (h : helloExchange a b = some (a', b')) : ∃ toA toB startedA startedB capsA capsB,
      a.start = (.ok toB, startedA) ∧ b.start = (.ok toA, startedB) ∧ Unused startedA ∧
      Unused startedB ∧ a' = startedA.negotiated capsA ∧ b' = startedB.negotiated capsB ∧
      Paired a' b' capsA capsB := by
  unfold helloExchange at h
  rcases hstartA : a.start with ⟨_ | toB, startedA⟩
  · rw [hstartA] at h
    cases h
  rcases hstartB : b.start with ⟨_ | toA, startedB⟩
  · rw [hstartA, hstartB] at h
    cases h
  obtain ⟨payloadA, encodedA, hpayloadA, hencodeA, rfl, hhelloA, hcodecA, hunusedA, hepochA, _⟩ :=
    ha.unused.started hstartA
  obtain ⟨payloadB, encodedB, hpayloadB, hencodeB, rfl, hhelloB, hcodecB, hunusedB, hepochB, _⟩ :=
    hb.unused.started hstartB
  rw [hstartA, hstartB] at h
  dsimp only at h
  rw [List.flatten_singleton, List.flatten_singleton] at h
  rcases hreceiveA : startedA.receive encodedB false with ⟨_ | outA, endA⟩
  · rw [hreceiveA] at h
    cases h
  rcases hreceiveB : startedB.receive encodedA false with ⟨_ | outB, endB⟩
  · rw [hreceiveA, hreceiveB] at h
    cases h
  rw [hreceiveA, hreceiveB] at h
  cases h
  obtain ⟨capsA, hagreedA, rfl⟩ :=
    hunusedA.negotiates hb.unused.codec hpayloadB hencodeB hreceiveA
  obtain ⟨capsB, hagreedB, rfl⟩ :=
    hunusedB.negotiates ha.unused.codec hpayloadA hencodeA hreceiveB
  rw [← hhelloB] at hagreedA
  rw [← hhelloA] at hagreedB
  exact ⟨_, _, startedA, startedB, capsA, capsB, rfl, rfl, hunusedA, hunusedB, rfl, rfl,
    hunusedA.ready hepochA hagreedA, hunusedB.ready hepochB hagreedB, hagreedA, hagreedB⟩

end ConnectionEngine

end LatticeGateway
