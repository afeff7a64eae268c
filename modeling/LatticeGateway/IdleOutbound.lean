import LatticeGateway.EngineOutbound
import LatticeGateway.FrameRoundTrip
import LatticeGateway.SchedulerFraming

namespace LatticeGateway

/-- Nothing is queued. -/
structure OutboundScheduler.Idle (s : OutboundScheduler) : Prop where
  control : s.control = []
  data : s.data = ∅
  queued : s.queuedBytes = 0

/-- The scheduler after a data item has gone out whole. -/
def OutboundScheduler.passed (s : OutboundScheduler) (channelNo sequence : UInt32) : OutboundScheduler :=
  { s with rrCursor := channelNo + 1
           expectedSequence := s.expectedSequence.insert channelNo (sequence + 1) }

theorem lookup_singleton {β : Type} (channelNo : UInt32) (value : β) :
    (AList.singleton channelNo value : AList fun _ : UInt32 => β).lookup channelNo = some value := by
  rw [← AList.insert_empty]
  exact AList.lookup_insert _

theorem erase_singleton {β : Type} (channelNo : UInt32) (value : β) :
    (AList.singleton channelNo value : AList fun _ : UInt32 => β).erase channelNo = ∅ :=
  AList.ext (List.kerase_cons_eq rfl)

theorem rotation_only (byteLimit queuedBytes : Nat) (channelNo rrCursor : UInt32)
    (expectedSequence : AList fun _ : UInt32 => UInt32) {queue : List OutboundItem} (hne : queue ≠ []) :
    OutboundScheduler.rotation ⟨byteLimit, queuedBytes, [], AList.insert channelNo queue ∅,
      expectedSequence, rrCursor⟩ = [channelNo] := by
  unfold OutboundScheduler.rotation
  have hkeys : ((AList.insert channelNo queue (∅ : AList fun _ : UInt32 => List OutboundItem)).keys.filter
      fun c => ((AList.insert channelNo queue ∅ : AList fun _ : UInt32 => List OutboundItem).lookup
        c).getD [] ≠ []) = [channelNo] := by
    simp [lookup_singleton, hne]
  simp only [hkeys]
  by_cases hcursor : rrCursor ≤ channelNo <;> simp [List.findIdx_cons, hcursor]

/-- An idle scheduler passes a control item on at once. -/
theorem OutboundScheduler.Idle.pass_control {s : OutboundScheduler} (h : s.Idle) {channel : ChannelId}
    {sequence : UInt32} {encoded : Bytes} {writableBytes : Nat} (hne : encoded ≠ [])
    (hsmall : encoded.length < 2 ^ 64) (hlimit : encoded.length ≤ s.byteLimit)
    (hwritable : encoded.length ≤ writableBytes) :
    (s.enqueue ⟨.control, channel, sequence, encoded⟩).1 = .ok () ∧
      (s.enqueue ⟨.control, channel, sequence, encoded⟩).2.drain writableBytes =
        ([⟨.control, channel, sequence, encoded⟩], s) := by
  obtain ⟨byteLimit, _, _, _, expectedSequence, rrCursor⟩ := s
  obtain ⟨rfl, rfl, rfl⟩ := h
  have hpos : 0 < encoded.length := List.length_pos_iff.mpr hne
  have hwhole : min (writableBytes - 0) encoded.length = encoded.length := by omega
  have hadd : checkedAdd 0 encoded.length = some encoded.length := by
    rw [checkedAdd_of_lt (by omega), Nat.zero_add]
  have hcontrol : OutboundScheduler.drainControl writableBytes 1
      ⟨byteLimit, encoded.length, [⟨.control, channel, sequence, encoded⟩], ∅, expectedSequence,
        rrCursor⟩ 0 [] = ([⟨.control, channel, sequence, encoded⟩], encoded.length,
      ⟨byteLimit, 0, [], ∅, expectedSequence, rrCursor⟩) := by
    unfold OutboundScheduler.drainControl
    simp only [if_pos (show 0 < writableBytes by omega), hwhole, if_true]
    rw [drainControl_nil _ _ _ _ rfl]
    simp
  unfold OutboundScheduler.enqueue
  simp only [if_neg hne, hadd, if_neg (Nat.not_lt.mpr hlimit)]
  refine ⟨trivial, ?_⟩
  unfold OutboundScheduler.drain
  simp only [List.nil_append, List.length_singleton, hcontrol, AList.keys_empty, or_true, if_true]

/-- An idle scheduler passes a data item on at once, unless its channel expects another one. -/
theorem OutboundScheduler.Idle.pass_data {s : OutboundScheduler} (h : s.Idle) {channel : ChannelId}
    {sequence : UInt32} {encoded : Bytes} {writableBytes : Nat} (hne : encoded ≠ [])
    (hsmall : encoded.length < 2 ^ 64) (hlimit : encoded.length ≤ s.byteLimit)
    (hwritable : encoded.length ≤ writableBytes)
    (hexpected : s.expected channel.number = 0 ∨ s.expected channel.number = sequence) :
    (s.enqueue ⟨.data, channel, sequence, encoded⟩).1 = .ok () ∧
      (s.enqueue ⟨.data, channel, sequence, encoded⟩).2.drain writableBytes =
        ([⟨.data, channel, sequence, encoded⟩], s.passed channel.number sequence) := by
  obtain ⟨byteLimit, _, _, _, expectedSequence, rrCursor⟩ := s
  obtain ⟨rfl, rfl, rfl⟩ := h
  have hpos : 0 < encoded.length := List.length_pos_iff.mpr hne
  have hwhole : min (writableBytes - 0) encoded.length = encoded.length := by omega
  have hadd : checkedAdd 0 encoded.length = some encoded.length := by
    rw [checkedAdd_of_lt (by omega), Nat.zero_add]
  unfold OutboundScheduler.enqueue
  simp only [if_neg hne, hadd, if_neg (Nat.not_lt.mpr hlimit), AList.lookup_empty, Option.getD_none,
    List.getLast?_nil, List.nil_append]
  refine ⟨trivial, ?_⟩
  have hserved : ¬ ((expectedSequence.lookup channel.number).getD 0 ≠ 0 ∧
      sequence ≠ (expectedSequence.lookup channel.number).getD 0) := by
    rintro ⟨hzero, hother⟩
    rcases hexpected with h | h
    · exact hzero h
    · exact hother h.symm
  unfold OutboundScheduler.drain
  simp only [List.length_nil, OutboundScheduler.drainControl, rotation_only _ _ _ _ _
    (List.cons_ne_nil _ _), OutboundScheduler.drainData, AList.lookup_insert, Option.getD_some,
    if_neg hserved, hwhole, if_neg (Nat.ne_of_gt hpos), if_true, List.take_length]
  rw [if_neg (by simp; omega), if_neg (by simp)]
  simp [OutboundScheduler.eraseEmpty, OutboundScheduler.passed, lookup_singleton, erase_singleton]

/-- The window after a frame has been recorded. -/
def ReplayWindow.recorded (w : ReplayWindow) (frameSeq : UInt32) (encoded : Bytes) : ReplayWindow :=
  { w with entries := (if w.entries.length ≥ w.capacity then w.entries.tail else w.entries) ++
      [{ epoch := 1, frameSeq, encoded, retries := 0 }] }

/-- The window can record a frame of that number. -/
def ReplayWindow.Accepts (w : ReplayWindow) (frameSeq : UInt32) : Prop :=
  w.epoch = 1 ∧ w.contains frameSeq = false

theorem ReplayWindow.Accepts.record {w : ReplayWindow} {frameSeq : UInt32} (h : w.Accepts frameSeq)
    (encoded : Bytes) : w.record 1 frameSeq encoded = (.ok (), w.recorded frameSeq encoded) := by
  unfold ReplayWindow.record ReplayWindow.recorded
  rw [if_neg (by simp [h.1]), if_neg (by simp [h.2])]

theorem record_ok {w : ReplayWindow} {frameSeq : UInt32} {encoded : Bytes}
    (h : (w.record 1 frameSeq encoded).1 = .ok ()) : w.Accepts frameSeq := by
  unfold ReplayWindow.record at h
  split at h
  next => cases h
  next hepoch =>
    split at h
    next => cases h
    next hcontains => exact ⟨(not_not.mp hepoch).symm, by simpa using hcontains⟩

/-- Every frame that the window retains was numbered before `next`. -/
def ReplayWindow.Below (w : ReplayWindow) (next : UInt32) : Prop :=
  ∀ entry ∈ w.entries, entry.frameSeq < next

theorem ReplayWindow.Below.not_contains {w : ReplayWindow} {next : UInt32} (h : w.Below next) :
    w.contains next = false := by
  unfold ReplayWindow.contains
  rw [List.any_eq_false]
  intro entry hmem hsame
  have hlt := h entry hmem
  rw [beq_iff_eq.mp hsame] at hlt
  exact UInt32.lt_irrefl next hlt

theorem ReplayWindow.Below.recorded {w : ReplayWindow} {next : UInt32} (h : w.Below next)
    (hroom : next.toNat + 1 < 2 ^ 32) (encoded : Bytes) :
    (w.recorded next encoded).Below (next + 1) := by
  have hsucc : (next + 1).toNat = next.toNat + 1 := by
    rw [UInt32.toNat_add, UInt32.toNat_one, Nat.mod_eq_of_lt hroom]
  have hkept : ∀ entry ∈ (if w.entries.length ≥ w.capacity then w.entries.tail else w.entries),
      entry ∈ w.entries := by
    intro entry hentry
    split at hentry
    next => exact List.mem_of_mem_tail hentry
    next => exact hentry
  intro entry hmem
  refine UInt32.lt_iff_toNat_lt.mpr ?_
  rcases List.mem_append.mp hmem with hold | hnew
  · have hlt := UInt32.lt_iff_toNat_lt.mp (h entry (hkept entry hold))
    omega
  · rw [List.mem_singleton.mp hnew]
    change next.toNat < (next + 1).toNat
    omega

namespace ConnectionEngine

/-- Nothing waits to be sent, and what is sent may take the connection window. -/
structure Idle (e : ConnectionEngine) : Prop where
  scheduler : e.scheduler.Idle
  limit : e.scheduler.byteLimit = e.policy.connectionWindow

theorem encode_nonempty {codec : FrameCodec} {frame : Frame} {encoded : Bytes}
    (h : codec.encode frame = .ok encoded) : encoded ≠ [] ∧ encoded.length < 2 ^ 64 := by
  obtain ⟨ext, hencodes⟩ := FrameCodec.encode_ok h
  have hlength := hencodes.length_eq
  have hsmall := hencodes.small
  refine ⟨?_, by omega⟩
  rintro rfl
  simp at hlength

/-- A frame that the scheduler passes on at once is sent whole. -/
theorem emit_passes {e : ConnectionEngine} {frame : Frame} {encoded : Bytes}
    {scheduler : OutboundScheduler} (hencode : e.codec.encode frame = .ok encoded)
    (hreplay : e.replay.Accepts frame.frameSeq)
    (hqueued : (e.scheduler.enqueue (outboundItem frame encoded)).1 = .ok ())
    (hdrained : (e.scheduler.enqueue (outboundItem frame encoded)).2.drain e.policy.connectionWindow =
      ([outboundItem frame encoded], scheduler)) :
    e.emit frame = (.ok [encoded],
      { e with replay := e.replay.recorded frame.frameSeq encoded, scheduler }) := by
  unfold emit queueEncoded flushOutbound
  simp only [hencode, hreplay.record]
  rcases henqueue : e.scheduler.enqueue (outboundItem frame encoded) with ⟨queued, waiting⟩
  rw [henqueue] at hqueued hdrained
  dsimp only at hqueued hdrained
  simp only [hqueued, hdrained, List.map_cons, List.map_nil, outboundItem]

theorem Idle.emit_control {e : ConnectionEngine} (h : Idle e) {frame : Frame} {encoded : Bytes}
    (hencode : e.codec.encode frame = .ok encoded) (hreplay : e.replay.Accepts frame.frameSeq)
    (hfits : encoded.length ≤ e.policy.connectionWindow) (htype : frame.type ≠ .data) :
    e.emit frame = (.ok [encoded], { e with replay := e.replay.recorded frame.frameSeq encoded }) := by
  obtain ⟨hne, hsmall⟩ := encode_nonempty hencode
  have hitem : outboundItem frame encoded = ⟨.control, frame.channel, frame.frameSeq, encoded⟩ := by
    simp [outboundItem, isControlFrame, htype]
  obtain ⟨hqueued, hdrained⟩ := @OutboundScheduler.Idle.pass_control _ h.scheduler frame.channel
    frame.frameSeq encoded e.policy.connectionWindow hne hsmall (by rwa [h.limit]) hfits
  rw [← hitem] at hqueued hdrained
  exact emit_passes hencode hreplay hqueued hdrained

theorem Idle.emit_data {e : ConnectionEngine} (h : Idle e) {frame : Frame} {encoded : Bytes}
    (hencode : e.codec.encode frame = .ok encoded) (hreplay : e.replay.Accepts frame.frameSeq)
    (hfits : encoded.length ≤ e.policy.connectionWindow) (htype : frame.type = .data)
    (hexpected : e.scheduler.expected frame.channel.number = 0 ∨
      e.scheduler.expected frame.channel.number = frame.frameSeq) :
    e.emit frame = (.ok [encoded],
      { e with replay := e.replay.recorded frame.frameSeq encoded
               scheduler := e.scheduler.passed frame.channel.number frame.frameSeq }) := by
  obtain ⟨hne, hsmall⟩ := encode_nonempty hencode
  have hitem : outboundItem frame encoded = ⟨.data, frame.channel, frame.frameSeq, encoded⟩ := by
    simp [outboundItem, isControlFrame, htype]
  obtain ⟨hqueued, hdrained⟩ := OutboundScheduler.Idle.pass_data h.scheduler hne hsmall
    (by rwa [h.limit]) hfits hexpected
  rw [← hitem] at hqueued hdrained
  exact emit_passes hencode hreplay hqueued hdrained

/-- What a frame that was sent has passed. -/
theorem emit_ok {e : ConnectionEngine} {frame : Frame} {out : List Bytes}
    (h : (e.emit frame).1 = .ok out) : ∃ encoded, e.codec.encode frame = .ok encoded ∧
      e.replay.Accepts frame.frameSeq ∧
      e.scheduler.queuedBytes + encoded.length ≤ e.scheduler.byteLimit := by
  unfold emit queueEncoded at h
  split at h
  next => cases h
  next encoded hencode =>
    split at h
    next => cases h
    next hrecord =>
      dsimp only at h
      split at h
      next => cases h
      next hqueued =>
        have hrecord := record_ok (congrArg Prod.fst hrecord)
        have hok := congrArg Prod.fst hqueued
        have haccepted : e.scheduler.enqueue (outboundItem frame encoded) =
            (.ok (), (e.scheduler.enqueue (outboundItem frame encoded)).2) := Prod.ext hok rfl
        obtain ⟨_, hfits, _⟩ := enqueue_cases haccepted
        exact ⟨encoded, hencode, hrecord, hfits⟩

end ConnectionEngine

end LatticeGateway
