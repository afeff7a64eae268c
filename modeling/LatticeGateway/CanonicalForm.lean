import LatticeGateway.FrameRoundTrip

namespace LatticeGateway

open StreamDecoder

/-- What a decoded frame is made of, when the input held it and nothing else. -/
theorem feed_one_form {limits : FrameLimits} {bytes : Bytes} {frame : Frame} {eof : Bool}
    (h : FrameCodec.feed { limits } bytes eof = ([.frame frame], { limits })) :
    Decodes (decodeFrame limits false) bytes [frame] (.rest []) := by
  cases eof with
  | true => exact (feed_eof_frames (by simp)).mp (by rw [h]; rfl)
  | false =>
    obtain ⟨found, tail, hdecodes⟩ := (decodeFrame_stable limits).exists_decodes bytes
    have hfeed := @FrameCodec.feed_more { limits } bytes found tail hdecodes
    rw [h, Prod.mk.injEq] at hfeed
    obtain ⟨hevents, hcodec⟩ := hfeed
    match tail, hdecodes, hevents, hcodec with
    | .rest rest, hdecodes, hevents, hcodec =>
      simp only [feedResult] at hevents hcodec
      obtain rfl : rest = [] := (congrArg FrameCodec.buffer hcodec).symm
      split at hevents
      next => cases hevents
      next =>
        obtain rfl : [frame] = found :=
          List.map_injective_iff.mpr (fun _ _ => DecodeEvent.frame.inj) hevents
        exact hdecodes
    | .failed error, _, hevents, _ =>
      exact absurd hevents.symm (map_frame_ne_append_error [frame] found error)

/-- A decoded frame in extension order is encoded to the bytes it was decoded from. -/
theorem WireForm.encode {limits : FrameLimits} {frame : Frame} {size block bytes : Bytes}
    (h : WireForm limits frame size block bytes) (hpayload : frame.payload.length < 2 ^ 32)
    (hsorted : sortExtensions frame.extensions = frame.extensions) :
    FrameCodec.encode { limits } frame = .ok bytes := by
  have hlength := length_coveredBytes frame size block
  have hfits := h.fits
  have hblock := h.blockLength
  have hsize := h.sizeLength hpayload
  rw [h.length_eq] at hfits
  have hnumber : frame.channel.number ≤ kMaxChannelNo := by
    have := h.number
    rw [UInt32.le_iff_toNat_le, show kMaxChannelNo.toNat = 2 ^ 24 - 1 from rfl]
    omega
  have hwritten : writeExtensions frame.extensions = .ok block := by
    rw [writeExtensions, hsorted]
    exact h.extensions.written (h.blockLength.trans (by omega))
  have hshortest : sizeBytes frame = size := by
    have hminimal := encodeUleb128Loop_minimal (UInt32.ofNat frame.payload.length)
    rw [payloadSize_toNat hpayload] at hminimal
    exact hminimal.unique h.shortest
  have hcovered : checkedBytes frame block = coveredBytes frame size block := by
    unfold checkedBytes prefixBytes coveredBytes
    rw [u32Bytes_eq_digits, u16Bytes_eq_digits, u24Bytes_eq_digits, u32Bytes_eq_digits,
      h.extLen_toNat, h.flags, hshortest]
    rfl
  rw [h.layout, ← u32Bytes_eq_digits, ← hcovered]
  rw [← hcovered] at hfits hlength
  exact FrameCodec.encode_of_fits h.flags hnumber hwritten h.header hpayload hfits (by omega)

theorem encode_undoes_decode (limits : FrameLimits) (hheader : limits.maxHeader ≤ 65535) (bytes : Bytes)
    (frame : Frame) (eof : Bool)
    (h : FrameCodec.feed { limits } bytes eof = ([.frame frame], { limits })) :
    FrameCodec.encode { limits } frame = .ok bytes ↔
      frame.extensions.Pairwise
        (fun a b => a.type = b.type → b.required = true → a.required = true) := by
  have hdecodes := feed_one_form h
  cases hdecodes with
  | @item _ _ n _ _ hv hrest =>
    have hn := (decodeFrame_item hv).2.1
    generalize hdrop : bytes.drop n = rest at hrest
    have hall : n = bytes.length := by
      cases hrest
      have := congrArg List.length hdrop
      rw [List.length_drop, List.length_nil] at this
      omega
    obtain ⟨⟨size, block, hwire⟩, hpayload⟩ := decodeFrame_sound hv
    rw [hall, List.take_length] at hwire
    rw [← sortExtensions_eq_self_iff hwire.extensions.types_sorted]
    constructor
    · intro hencode
      obtain ⟨ext, hencodes⟩ := FrameCodec.encode_ok hencode
      have hitem := hencodes.decodeFrame hheader hwire.extensions.knownRequired false []
      rw [List.append_nil, hv] at hitem
      have hcanonical := congrArg Frame.extensions (Verdict.item.inj hitem).1
      exact hcanonical.symm
    · exact hwire.encode hpayload

/-- A PING with a required and an optional extension of one type, in the order in which `encode`
writes them. -/
theorem encode_undoes_decode_ping :
    FrameCodec.encode {}
        { type := .ping, frameSeq := 9, extensions := [⟨1, true, []⟩, ⟨1, false, []⟩], payload := [5] } =
      .ok [76, 84, 88, 49, 32, 0, 0, 6, 0, 0, 0, 0, 0, 0, 0, 9, 1, 128, 1, 0, 0, 1, 0, 5, 135, 42, 48, 202] :=
  (encode_undoes_decode {} (by decide) _ _ true (by decide +kernel)).mpr (by decide)

/-- The other way round the decoder takes them too, but they are not encoded as they came. -/
theorem encode_reorders_ping :
    ∃ frame, FrameCodec.feed {}
        [76, 84, 88, 49, 32, 0, 0, 6, 0, 0, 0, 0, 0, 0, 0, 9, 1, 0, 1, 0, 128, 1, 0, 5, 32, 228, 247, 1]
        true = ([.frame frame], {}) ∧
      FrameCodec.encode {} frame ≠
        .ok [76, 84, 88, 49, 32, 0, 0, 6, 0, 0, 0, 0, 0, 0, 0, 9, 1, 0, 1, 0, 128, 1, 0, 5, 32, 228, 247, 1] :=
  ⟨{ type := .ping, frameSeq := 9, payload := [5], extensions := [⟨1, false, []⟩, ⟨1, true, []⟩] },
    by decide +kernel⟩

end LatticeGateway
