import LatticeGateway.DataSending
import LatticeGateway.SnapshotLoading

namespace LatticeGateway

open Runs

namespace ConnectionEngine

/-- The encoded frame keeps to the limit, and a reader of that limit takes it. -/
structure Emission.Within (limit : Nat) (p : Emission) (encoded : Bytes) : Prop where
  length : encoded.length ≤ limit
  read : ∀ reader : FrameCodec, reader.Clear → reader.limits.maxFrame = limit →
    reader.feed encoded false = ([.frame p.2.canonical], reader)

/-- The size of an ACK of `count` ranges: 24 bytes, 8 more for each range, and the size of its payload
in one to three. -/
def ackFrameBytes (count : Nat) : Nat :=
  24 + 8 * count + (if 4 + 8 * count < 128 then 1 else if 4 + 8 * count < 16384 then 2 else 3)

/-- An ACK of the ranges goes out. -/
structure AckGoes (e : ConnectionEngine) (ranges : List AckRange) : Prop where
  ordered : checkRanges none none (sortRanges ranges) = .ok ()
  count : ranges.length ≤ 0xFFFF
  frame : ackFrameBytes ranges.length ≤ e.codec.limits.maxFrame
  replay : e.replay.Accepts e.nextFrameSeq
  room : ∃ total ∈ checkedAdd e.scheduler.queuedBytes (ackFrameBytes ranges.length),
    total ≤ e.scheduler.byteLimit

theorem within_of_encodes {limits : FrameLimits} {p : Emission} {ext encoded : Bytes} {limit : Nat}
    (h : Encodes limits p.2 ext encoded) (hext : ext.length ≤ 4096) (hknown : p.2.KnownRequired)
    (hle : encoded.length ≤ limit) : Emission.Within limit p encoded where
  length := hle
  read reader hreader hlimit := by
    refine hreader.feed_one ?_ hknown
    have hheader := hreader.header
    rw [h.length_eq] at hle
    rw [h.bytes]
    exact FrameCodec.encode_of_fits h.flags h.number h.extensions (by omega) h.payload (by omega) h.small

/-- A frame that keeps to the limit for what it carries. -/
structure Emission.Short (limit : Nat) (p : Emission) (ext : Bytes) : Prop where
  extensions : writeExtensions p.2.extensions = .ok ext
  header : ext.length ≤ 4096
  known : p.2.KnownRequired
  fits : 25 + ext.length + p.2.payload.length ≤ limit

theorem Emission.Short.within {limit : Nat} {p : Emission} {ext encoded : Bytes}
    (h : Emission.Short limit p ext) (hencode : p.1.codec.encode p.2 = .ok encoded) :
    Emission.Within limit p encoded := by
  obtain ⟨written, hencodes⟩ := FrameCodec.encode_ok hencode
  obtain rfl : written = ext := by
    have hsame := hencodes.extensions.symm.trans h.extensions
    injection hsame
  refine within_of_encodes hencodes h.header h.known ?_
  have hsize := length_sizeBytes_le p.2
  have hlength := length_checkedBytes p.2 written
  have hfits := h.fits
  rw [hencodes.length_eq]
  omega

theorem plain_short {limit : Nat} {p : Emission} (hplain : p.2.extensions = [])
    (hfits : 25 + p.2.payload.length ≤ limit) : Emission.Short limit p [] where
  extensions := by rw [hplain]; rfl
  header := Nat.zero_le _
  known := by
    unfold Frame.KnownRequired
    rw [hplain]
    exact fun _ h => absurd h List.not_mem_nil
  fits := hfits

theorem loop_short {id : ChannelId} {sequence : UInt32} {total limit : Nat} (hge : 128 ≤ limit)
    {rounds : List (Nat × Bytes)} (hrounds : ∀ round ∈ rounds, round.2.length ≤ limit / 2)
    {e : ConnectionEngine} {p : Emission} (h : p ∈ loopEmissions id sequence total rounds e) :
    ∃ ext, Emission.Short limit p ext := by
  induction rounds generalizing e with
  | nil => cases h
  | cons round rest ih =>
    obtain ⟨offset, fragment⟩ := round
    have hfragment : fragment.length ≤ limit / 2 := hrounds (offset, fragment) (by simp)
    have hlength : (fragmentHeader sequence offset total).length = 28 := rfl
    unfold loopEmissions at h
    rcases List.mem_cons.mp h with rfl | hrest
    · refine ⟨fragmentHeader sequence offset total, writeExtensions_fragment _ _ _, by omega,
        dataFrame_known id sequence total e.nextFrameSeq (offset, fragment), ?_⟩
      change 25 + _ + fragment.length ≤ limit
      omega
    · split at hrest
      next => cases hrest
      next => exact ih (fun other hother => hrounds other (List.mem_cons_of_mem _ hother)) hrest

theorem send_short {e : ConnectionEngine} {caps : CapabilitySet} (hcaps : e.capabilities = some caps)
    (hge : 128 ≤ caps.maxFrame) {id : ChannelId} {payload : Bytes} {p : Emission}
    (h : p ∈ e.sendEmissions id payload) : ∃ ext, Emission.Short caps.maxFrame p ext := by
  unfold sendEmissions at h
  rw [hcaps] at h
  split at h
  next channels capabilities _ hsome =>
    obtain rfl : caps = capabilities := by injection hsome
    split at h
    next => cases h
    next =>
      split at h
      next => cases h
      next =>
        split at h
        next => cases h
        next =>
          split at h
          next => cases h
          next =>
            split at h
            next => cases h
            next =>
              split at h
              next => cases h
              next =>
                refine loop_short hge (fun round hround => ?_) h
                have hlength := (fragments_round (by omega) _ hround).2
                omega
  next => cases h

theorem open_short {e : ConnectionEngine} {request : OpenRequest} {limit : Nat} (hge : 128 ≤ limit)
    {p : Emission} (h : p ∈ e.openEmissions request) : ∃ ext, Emission.Short limit p ext := by
  unfold openEmissions at h
  split at h
  next =>
    split at h
    next => cases h
    next =>
      split at h
      next => cases h
      next =>
        split at h
        next => cases h
        next =>
          split at h
          next => cases h
          next =>
            rw [List.mem_singleton.mp h]
            exact ⟨[], plain_short rfl (hge.trans' (show 25 + 8 ≤ 128 by omega))⟩
  next => cases h

/-- But for ACK, no call sends a frame above the limit. -/
theorem emissions_short {e : ConnectionEngine} {caps : CapabilitySet} (hactive : e.state = .active)
    (hcaps : e.capabilities = some caps) (hge : 128 ≤ caps.maxFrame) {c : Call}
    (hother : ∀ ranges, c ≠ .acknowledge ranges) {p : Emission} (h : p ∈ e.emissions c) :
    ∃ ext, Emission.Short caps.maxFrame p ext := by
  have hplain : ∀ q : Emission, p ∈ [q] → q.2.extensions = [] → q.2.payload.length ≤ 22 →
      ∃ ext, Emission.Short caps.maxFrame p ext := by
    intro q hmem hextensions hpayload
    rw [List.mem_singleton.mp hmem]
    exact ⟨[], plain_short hextensions (by omega)⟩
  cases c with
  | start =>
    have hnone : e.startEmissions = [] := if_pos (by rw [hactive]; rintro ⟨⟩)
    have h : p ∈ e.startEmissions := h
    rw [hnone] at h
    cases h
  | receive bytes eof =>
    obtain ⟨⟨e', frame⟩, _, hp⟩ := List.mem_flatMap.mp h
    unfold frameEmissions at hp
    split at hp
    next =>
      split at hp
      next => cases hp
      next =>
        split at hp
        next => cases hp
        next => exact hplain _ hp rfl (show 8 ≤ 22 by omega)
    next => cases hp
  | openChannel request => exact open_short hge h
  | send id payload => exact send_short hcaps hge h
  | grantCredit id amount => exact hplain _ h rfl (show 4 ≤ 22 by omega)
  | acknowledge ranges => exact absurd rfl (hother ranges)
  | ping token => exact hplain _ h rfl (show 8 ≤ 22 by omega)
  | resume request =>
    have hsize : (encodeResumePayload request).length = 22 := by
      simp [encodeResumePayload, request.transcriptHash.size_eq]
    exact hplain _ h rfl hsize.le
  | advanceTime nowMs =>
    obtain ⟨⟨e', timer⟩, _, hp⟩ := List.mem_flatMap.mp h
    unfold timerEmissions at hp
    split at hp
    next => exact hplain _ hp rfl (show 8 ≤ 22 by omega)
    next => cases hp
  | halfClose id direction =>
    have h : p ∈ e.halfCloseEmissions id direction := h
    unfold halfCloseEmissions at h
    split at h
    next => cases h
    next =>
      split at h
      next => cases h
      next => exact hplain _ h rfl (show 1 ≤ 22 by omega)
  | reset id =>
    have h : p ∈ e.resetEmissions id := h
    unfold resetEmissions at h
    split at h
    next => cases h
    next =>
      split at h
      next => cases h
      next => exact hplain _ h rfl (show 0 ≤ 22 by omega)
  | goaway => exact hplain _ h rfl (show 0 ≤ 22 by omega)
  | _ => cases h

/-- The codec writes the frame, the replay window does not hold its number, and the scheduler takes it. -/
def Emission.Admitted (p : Emission) : Prop :=
  ∃ encoded, p.1.codec.encode p.2 = .ok encoded ∧ p.1.replay.Accepts p.2.frameSeq ∧
    p.1.scheduler.Takes (outboundItem p.2 encoded)

theorem Emission.sent_iff {p : Emission} : p.Sent ↔ p.Admitted := by
  obtain ⟨e, frame⟩ := p
  constructor
  · rintro ⟨out, hsent⟩
    obtain ⟨encoded, hencode, haccepts, _⟩ := emit_ok hsent
    refine ⟨encoded, hencode, haccepts, (enqueue_ok_iff (encode_nonempty hencode).1).mp ?_⟩
    dsimp only at hencode haccepts hsent
    unfold emit queueEncoded at hsent
    simp only [hencode, haccepts.record] at hsent
    rcases hqueued : e.scheduler.enqueue (outboundItem frame encoded) with ⟨_ | _, scheduler⟩
    · simp [hqueued] at hsent
    · rfl
  · rintro ⟨encoded, hencode, haccepts, htakes⟩
    have hok := (enqueue_ok_iff (encode_nonempty hencode).1).mpr htakes
    dsimp only at hencode haccepts hok
    unfold Emission.Sent emit queueEncoded
    simp only [hencode, haccepts.record]
    rcases hqueued : e.scheduler.enqueue (outboundItem frame encoded) with ⟨_ | _, scheduler⟩
    · rw [hqueued] at hok
      cases hok
    · exact ⟨_, rfl⟩

/-- What decides whether a control frame goes out. -/
theorem control_sent_iff {p : Emission} (htype : p.2.type ≠ .data) : p.Sent ↔
    ∃ encoded, p.1.codec.encode p.2 = .ok encoded ∧ p.1.replay.Accepts p.2.frameSeq ∧
      ∃ total ∈ checkedAdd p.1.scheduler.queuedBytes encoded.length, total ≤ p.1.scheduler.byteLimit := by
  have hcontrol : ∀ encoded, (outboundItem p.2 encoded).priority = .control := by
    intro encoded
    simp [outboundItem, isControlFrame, htype]
  rw [Emission.sent_iff]
  constructor
  · rintro ⟨encoded, hencode, haccepts, htakes⟩
    exact ⟨encoded, hencode, haccepts, htakes.room⟩
  · rintro ⟨encoded, hencode, haccepts, hroom⟩
    refine ⟨encoded, hencode, haccepts, hroom, fun hdata => ?_⟩
    rw [hcontrol] at hdata
    cases hdata

theorem encodeAckPayload_ok {epoch : UInt16} {ranges : List AckRange} {payload : Bytes}
    (h : encodeAckPayload epoch ranges = .ok payload) :
    checkRanges none none (sortRanges ranges) = .ok () ∧ ranges.length ≤ 0xFFFF ∧
      payload.length = 4 + 8 * ranges.length := by
  have hcount : (sortRanges ranges).length = ranges.length := List.length_insertionSort _ ranges
  unfold encodeAckPayload at h
  dsimp only at h
  split at h
  next => cases h
  next hordered =>
    split at h
    next => cases h
    next hmany =>
      cases h
      refine ⟨hordered, by omega, ?_⟩
      have hranges : ((sortRanges ranges).flatMap ackRangeBytes).length = 8 * ranges.length := by
        rw [List.length_flatMap, ← hcount]
        simp [ackRangeBytes, List.map_const', Nat.mul_comm]
      simp only [List.length_append, length_u16Bytes, hranges]

theorem encodeAckPayload_of {epoch : UInt16} {ranges : List AckRange}
    (hordered : checkRanges none none (sortRanges ranges) = .ok ()) (hcount : ranges.length ≤ 0xFFFF) :
    ∃ payload, encodeAckPayload epoch ranges = .ok payload := by
  have hsorted : (sortRanges ranges).length = ranges.length := List.length_insertionSort _ ranges
  unfold encodeAckPayload
  dsimp only
  rw [hordered]
  dsimp only
  rw [if_neg (by omega)]
  exact ⟨_, rfl⟩

theorem length_ack {frame : Frame} {count : Nat} (hcount : count ≤ 0xFFFF)
    (hpayload : frame.payload.length = 4 + 8 * count) :
    (checkedBytes frame []).length + 4 = ackFrameBytes count := by
  have hsize : (sizeBytes frame).length =
      if 4 + 8 * count < 128 then 1 else if 4 + 8 * count < 16384 then 2 else 3 := by
    have hvalue : (UInt32.ofNat frame.payload.length).toNat = 4 + 8 * count := by
      rw [hpayload, UInt32.toNat_ofNat', Nat.mod_eq_of_lt (by omega)]
    have hone := @length_encodeUleb128Loop_iff (UInt32.ofNat frame.payload.length) 0
    have htwo := @length_encodeUleb128Loop_iff (UInt32.ofNat frame.payload.length) 1
    have hthree := @length_encodeUleb128Loop_iff (UInt32.ofNat frame.payload.length) 2
    have hpos := (encodeUleb128Loop_minimal (UInt32.ofNat frame.payload.length)).1.length_pos
    rw [hvalue] at hone htwo hthree
    unfold sizeBytes
    split_ifs <;> omega
  rw [length_checkedBytes, hsize, hpayload]
  unfold ackFrameBytes
  simp only [List.length_nil]
  omega

theorem ack_encodes {e : ConnectionEngine} {ranges : List AckRange} {payload encoded : Bytes}
    (hpayload : encodeAckPayload 1 ranges = .ok payload)
    (hencode : (e.framed .ack {} payload).1.codec.encode (e.framed .ack {} payload).2 = .ok encoded) :
    Encodes e.codec.limits (e.framed .ack {} payload).2 [] encoded ∧
      encoded.length = ackFrameBytes ranges.length := by
  obtain ⟨_, hcount, hlength⟩ := encodeAckPayload_ok hpayload
  obtain ⟨ext, hencodes⟩ := FrameCodec.encode_ok hencode
  obtain rfl : ext = [] := by
    have hnone : writeExtensions [] = .ok ext := hencodes.extensions
    cases hnone
    rfl
  refine ⟨hencodes, ?_⟩
  rw [hencodes.length_eq]
  exact length_ack hcount hlength

theorem acknowledge_sent {e : ConnectionEngine} {ranges : List AckRange} {p : Emission}
    (h : p ∈ e.acknowledgeEmissions ranges) (hsent : p.Sent) : AckGoes e ranges := by
  unfold acknowledgeEmissions at h
  split at h
  next => cases h
  next payload hpayload =>
    rw [List.mem_singleton.mp h] at hsent
    obtain ⟨hordered, hcount, _⟩ := encodeAckPayload_ok hpayload
    obtain ⟨encoded, hencode, haccepts, hroom⟩ := (control_sent_iff (by rintro ⟨⟩)).mp hsent
    obtain ⟨hencodes, hlength⟩ := ack_encodes hpayload hencode
    have hsize := hencodes.size
    rw [← hencodes.length_eq, hlength] at hsize
    rw [hlength] at hroom
    exact ⟨hordered, hcount, hsize, haccepts, hroom⟩

theorem AckGoes.sent {e : ConnectionEngine} {ranges : List AckRange} (h : AckGoes e ranges) :
    ∃ p ∈ e.acknowledgeEmissions ranges, p.Sent ∧ ∃ encoded,
      p.1.codec.encode p.2 = .ok encoded ∧ encoded.length = ackFrameBytes ranges.length := by
  obtain ⟨payload, hpayload⟩ := @encodeAckPayload_of 1 ranges h.ordered h.count
  obtain ⟨_, hcount, hlength⟩ := encodeAckPayload_ok hpayload
  have hsize := @length_ack (e.framed .ack {} payload).2 ranges.length hcount hlength
  have hframe := h.frame
  have hsmall : ackFrameBytes ranges.length < 2 ^ 20 := by
    unfold ackFrameBytes
    split_ifs <;> omega
  have hfits := @FrameCodec.encode_of_fits e.codec (e.framed .ack {} payload).2 [] rfl
    (show (0 : UInt32) ≤ kMaxChannelNo by decide) rfl (Nat.zero_le _)
    (show payload.length < 2 ^ 32 by omega) (by omega) (by omega)
  have hencoded := (ack_encodes hpayload hfits).2
  refine ⟨e.framed .ack {} payload, ?_, ?_, _, hfits, hencoded⟩
  · unfold acknowledgeEmissions
    rw [hpayload]
    exact List.mem_singleton.mpr rfl
  · refine (control_sent_iff (by rintro ⟨⟩)).mpr ⟨_, hfits, h.replay, ?_⟩
    rw [hencoded]
    exact h.room

/-- Whatever has been negotiated lets a frame of 128 bytes through. -/
def LimitFloor (e : ConnectionEngine) : Prop := ∀ caps ∈ e.capabilities, 128 ≤ caps.maxFrame

theorem Trace.limitFloor {e e' : ConnectionEngine} {ps : List Emission} (htrace : Trace e ps e')
    (h : LimitFloor e) : LimitFloor e' := by
  have hstill : ∀ {e e' : ConnectionEngine}, Still e e' → LimitFloor e → LimitFloor e' := by
    intro e e' hstill h caps hcaps
    rcases hstill.capabilities with hsame | ⟨peer, agreed, hagreed, hsome⟩
    · rw [hsame] at hcaps
      exact h caps hcaps
    · rw [hsome] at hcaps
      obtain rfl : agreed = caps := by injection hcaps
      exact (negotiate_ok hagreed).frame_ge
  induction htrace with
  | still hsame => exact hstill hsame h
  | @emit e e' frame _ _ hsame =>
    have hkept : LimitFloor e' := hstill hsame h
    obtain ⟨replay, scheduler, nextFrameSeq, hsent⟩ := emit_sent e' frame
    rw [hsent]
    exact hkept
  | append _ _ ih ih' => exact ih' (ih h)

theorem LimitFloor.call {e : ConnectionEngine} (h : LimitFloor e) (c : Call) : LimitFloor (e.call c) := by
  rcases call_cases e c with ⟨text, rfl⟩ | htrace
  · change LimitFloor (e.loadReplaySnapshot text).2
    rcases loadReplaySnapshot_cases e text with
      ⟨error, hcase, _⟩ | ⟨w, _, _, ⟨_, hcase⟩ | ⟨_, hcase⟩⟩
    all_goals
      rw [hcase]
      exact h
  · exact htrace.limitFloor h

/-- What an active engine emits keeps to the negotiated limit, but for an ACK of too many ranges. -/
theorem sent_iff_ack {e : ConnectionEngine} {caps : CapabilitySet} (hactive : e.state = .active)
    (hcaps : e.capabilities = some caps) (hge : 128 ≤ caps.maxFrame) {c : Call} :
    (∀ p ∈ e.emissions c, p.Sent → ∀ encoded, p.1.codec.encode p.2 = .ok encoded →
        Emission.Within caps.maxFrame p encoded) ↔
      ∀ ranges, c = .acknowledge ranges → AckGoes e ranges → ackFrameBytes ranges.length ≤ caps.maxFrame := by
  constructor
  · rintro hwithin ranges rfl hgoes
    obtain ⟨p, hp, hsent, encoded, hencode, hlength⟩ := hgoes.sent
    rw [← hlength]
    exact (hwithin p hp hsent encoded hencode).length
  · intro hack p hp hsent encoded hencode
    by_cases hacks : ∃ ranges, c = .acknowledge ranges
    · obtain ⟨ranges, rfl⟩ := hacks
      have hle := hack ranges rfl (acknowledge_sent hp hsent)
      have hp : p ∈ e.acknowledgeEmissions ranges := hp
      unfold acknowledgeEmissions at hp
      split at hp
      next => cases hp
      next payload hpayload =>
        obtain rfl := List.mem_singleton.mp hp
        obtain ⟨hencodes, hlength⟩ := ack_encodes hpayload hencode
        exact within_of_encodes hencodes (Nat.zero_le _) (fun _ h => absurd h List.not_mem_nil)
          (by rw [hlength]; exact hle)
    · obtain ⟨ext, hshort⟩ := emissions_short hactive hcaps hge
        (fun ranges hc => hacks ⟨ranges, hc⟩) hp
      exact hshort.within hencode

end ConnectionEngine

end LatticeGateway
