import LatticeGateway.ExtensionRoundTrip
import LatticeGateway.FrameGrammar

namespace LatticeGateway

open StreamDecoder

/-- The fixed prefix that `encode` writes. -/
def prefixBytes (frame : Frame) (extLen : UInt16) : Bytes :=
  u32Bytes kLtxMagic ++ [frame.type.code, frame.flags] ++ u16Bytes extLen ++
    u24Bytes frame.channel.number ++ [frame.channel.generation] ++ u32Bytes frame.frameSeq

/-- The encoded payload length. -/
def sizeBytes (frame : Frame) : Bytes :=
  encodeUleb128Loop (kMaxVarintBytes + 1) (UInt32.ofNat frame.payload.length)

theorem length_sizeBytes_le (frame : Frame) : (sizeBytes frame).length ≤ 5 := by
  have hlt := (UInt32.ofNat frame.payload.length).toNat_lt
  exact length_encodeUleb128Loop_le (show _ < 128 ^ 5 by omega)

/-- The bytes of a frame up to its CRC, the extension block being `ext`. -/
def checkedBytes (frame : Frame) (ext : Bytes) : Bytes :=
  prefixBytes frame (UInt16.ofNat ext.length) ++ sizeBytes frame ++ ext ++ frame.payload

/-- What a successful `encode` has checked and produced. -/
structure Encodes (limits : FrameLimits) (frame : Frame) (ext encoding : Bytes) : Prop where
  flags : frame.flags = 0
  number : frame.channel.number ≤ kMaxChannelNo
  extensions : writeExtensions frame.extensions = .ok ext
  header : ext.length ≤ limits.maxHeader
  payload : frame.payload.length < 2 ^ 32
  size : (checkedBytes frame ext).length + 4 ≤ limits.maxFrame
  small : (checkedBytes frame ext).length + 4 < 2 ^ 64
  bytes : encoding = checkedBytes frame ext ++ u32Bytes (crc32c (checkedBytes frame ext))

theorem FrameCodec.encode_ok {codec : FrameCodec} {frame : Frame} {encoding : Bytes}
    (h : codec.encode frame = .ok encoding) : ∃ ext, Encodes codec.limits frame ext encoding := by
  unfold FrameCodec.encode at h
  split at h
  next => cases h
  next hflags =>
    split at h
    next => cases h
    next hnumber =>
      cases hext : writeExtensions frame.extensions with
      | error error => simp [hext] at h
      | ok ext =>
        simp only [hext, encodeUleb128_eq] at h
        split at h
        next => cases h
        next hheader =>
          split at h
          next => cases h
          next hpayload =>
            split at h
            next => cases h
            next total hadd =>
              split at h
              next => cases h
              next hsize =>
                have hchecked : checkedAdd (checkedBytes frame ext).length 4 = some total := hadd
                have htotal := checkedAdd_eq_some hchecked
                have hsmall := checkedAdd_le hchecked
                exact ⟨ext, not_not.mp hflags, UInt32.not_lt.mp hnumber, hext, by omega, by omega,
                  by omega, by omega, (Except.ok.inj h).symm⟩

/-- A frame that fits is encoded. -/
theorem FrameCodec.encode_of_fits {codec : FrameCodec} {frame : Frame} {ext : Bytes}
    (hflags : frame.flags = 0) (hnumber : frame.channel.number ≤ kMaxChannelNo)
    (hext : writeExtensions frame.extensions = .ok ext) (hheader : ext.length ≤ codec.limits.maxHeader)
    (hpayload : frame.payload.length < 2 ^ 32)
    (hsize : (checkedBytes frame ext).length + 4 ≤ codec.limits.maxFrame)
    (hsmall : (checkedBytes frame ext).length + 4 < 2 ^ 64) :
    codec.encode frame = .ok (checkedBytes frame ext ++ u32Bytes (crc32c (checkedBytes frame ext))) := by
  unfold FrameCodec.encode
  rw [if_neg (not_not.mpr hflags), if_neg (UInt32.not_lt.mpr hnumber), hext]
  dsimp only
  rw [if_neg (by omega), if_neg (by omega), encodeUleb128_eq]
  dsimp only
  rw [checkedAdd_of_lt]
  · dsimp only
    rw [if_neg]
    · rfl
    · exact Nat.not_lt.mpr hsize
  · exact hsmall

theorem Encodes.length_eq {limits : FrameLimits} {frame : Frame} {ext encoding : Bytes}
    (h : Encodes limits frame ext encoding) :
    encoding.length = (checkedBytes frame ext).length + 4 := by
  rw [h.bytes]; simp

@[simp] theorem length_prefixBytes (frame : Frame) (extLen : UInt16) :
    (prefixBytes frame extLen).length = kFixedPrefixBytes := rfl

theorem length_checkedBytes (frame : Frame) (ext : Bytes) :
    (checkedBytes frame ext).length =
      16 + (sizeBytes frame).length + ext.length + frame.payload.length := by
  simp only [checkedBytes, List.length_append, length_prefixBytes, kFixedPrefixBytes]

/-- The frame a decoder makes of a frame: the same with its extensions in wire order. -/
def Frame.canonical (frame : Frame) : Frame :=
  { frame with extensions := sortExtensions frame.extensions }

def Frame.KnownRequired (frame : Frame) : Prop :=
  ∀ e ∈ frame.extensions, e.required = true → knownRequiredExtension e.type = true

section

variable {limits : FrameLimits} {frame : Frame} {ext encoding : Bytes}

theorem Encodes.checkedBytes_eq (h : Encodes limits frame ext encoding)
    (hheader : limits.maxHeader ≤ 65535) :
    checkedBytes frame ext = coveredBytes frame.canonical (sizeBytes frame) ext := by
  have hext := h.header
  have hextLen : (UInt16.ofNat ext.length).toNat = ext.length := by
    rw [UInt16.toNat_ofNat']
    exact Nat.mod_eq_of_lt (by omega)
  unfold checkedBytes prefixBytes coveredBytes
  rw [u32Bytes_eq_digits, u16Bytes_eq_digits, u24Bytes_eq_digits, u32Bytes_eq_digits, hextLen, h.flags]
  rfl

theorem Encodes.wireLayout (h : Encodes limits frame ext encoding) (hheader : limits.maxHeader ≤ 65535) :
    WireLayout limits frame.canonical (sizeBytes frame) ext encoding := by
  have hext := h.header
  have hnumber := UInt32.le_iff_toNat_le.mp h.number
  rw [show kMaxChannelNo.toNat = 2 ^ 24 - 1 from rfl] at hnumber
  have hshortest := encodeUleb128Loop_minimal (UInt32.ofNat frame.payload.length)
  rw [payloadSize_toNat h.payload] at hshortest
  exact {
    flags := h.flags
    number := show frame.channel.number.toNat < 2 ^ 24 by omega
    shortest := hshortest
    blockLength := by omega
    header := hext
    layout := by rw [h.bytes, ← h.checkedBytes_eq hheader, u32Bytes_eq_digits] }

/-- What `encode` writes is a frame of the grammar. -/
theorem Encodes.wireForm (h : Encodes limits frame ext encoding) (hheader : limits.maxHeader ≤ 65535)
    (hknown : frame.KnownRequired) :
    WireForm limits frame.canonical (sizeBytes frame) ext encoding where
  toWireLayout := h.wireLayout hheader
  extensions := by
    have hext := h.header
    exact writeExtensions_block h.extensions (by omega) hknown
  fits := by rw [h.length_eq]; exact h.size

theorem Encodes.decodeFrame (h : Encodes limits frame ext encoding)
    (hheader : limits.maxHeader ≤ 65535) (hknown : frame.KnownRequired) (eof : Bool)
    (rest : Bytes) :
    decodeFrame limits eof (encoding ++ rest) = .item frame.canonical encoding.length :=
  (h.wireForm hheader hknown).decodeFrame h.payload eof rest

end

/-- Frames encoded back to back decode to the same frames and leave nothing over. -/
theorem decodes_encodings {limits : FrameLimits} (hheader : limits.maxHeader ≤ 65535)
    {frames : List Frame} {encodings : List Bytes}
    (hknown : ∀ frame ∈ frames, frame.KnownRequired)
    (hencode : List.Forall₂ (fun frame bytes => FrameCodec.encode { limits } frame = .ok bytes)
      frames encodings) (eof : Bool) :
    Decodes (decodeFrame limits eof) encodings.flatten (frames.map Frame.canonical) (.rest []) := by
  induction hencode with
  | nil => exact .rest (decodeFrame_nil limits eof)
  | @cons frame encoding frames encodings hfirst _ ih =>
    obtain ⟨ext, hencodes⟩ := FrameCodec.encode_ok hfirst
    have hitem := hencodes.decodeFrame hheader (hknown frame (by simp)) eof encodings.flatten
    have hrest := ih (fun frame' h => hknown frame' (by simp [h]))
    rw [List.flatten_cons, List.map_cons]
    refine .item hitem ?_
    rwa [List.drop_left]

theorem FrameCodec.feed_encodings {limits : FrameLimits} (hheader : limits.maxHeader ≤ 65535)
    {frames : List Frame} {encodings : List Bytes}
    (hknown : ∀ frame ∈ frames, frame.KnownRequired)
    (hencode : List.Forall₂ (fun frame bytes => FrameCodec.encode { limits } frame = .ok bytes)
      frames encodings) (eof : Bool) :
    FrameCodec.feed { limits } encodings.flatten eof =
      (if frames.isEmpty then [.needMore] else frames.map (fun frame => .frame frame.canonical),
        { limits }) := by
  have hdecodes := decodes_encodings hheader hknown hencode eof
  have hlen : (frames.map Frame.canonical).length ≤ ([] ++ encodings.flatten).length :=
    (decodes_encodings hheader hknown hencode false).length_le (decodeFrame_stable limits)
  rw [@FrameCodec.feed_eq { limits } encodings.flatten eof _ _ hdecodes hlen]
  cases frames <;> simp [feedResult]

/-- `received` is `sent` after the wire: the extensions come back stably sorted. -/
structure SameFrame (sent received : Frame) : Prop where
  type : received.type = sent.type
  flags : received.flags = sent.flags
  channel : received.channel = sent.channel
  frameSeq : received.frameSeq = sent.frameSeq
  payload : received.payload = sent.payload
  extensions : StablySorted sent.extensions received.extensions

theorem sameFrame_canonical (frame : Frame) : SameFrame frame frame.canonical :=
  ⟨rfl, rfl, rfl, rfl, rfl, sortExtensions_stablySorted frame.extensions⟩

/-- Decoding undoes encoding on whole streams. -/
theorem decode_undoes_encode (limits : FrameLimits) (hheader : limits.maxHeader ≤ 65535)
    (frames : List Frame) (encodings : List Bytes)
    (hknown : ∀ frame ∈ frames, ∀ e ∈ frame.extensions, e.required = true → 1 ≤ e.type ∧ e.type ≤ 4)
    (hencode : List.Forall₂ (fun frame bytes => FrameCodec.encode { limits } frame = .ok bytes)
      frames encodings) (eof : Bool) :
    ∃ received, List.Forall₂ SameFrame frames received ∧
      (FrameCodec.feed { limits } encodings.flatten eof).1 =
        (if frames.isEmpty then [.needMore] else received.map .frame) ∧
      (FrameCodec.feed { limits } encodings.flatten eof).2.buffer = [] := by
  have hfeed := FrameCodec.feed_encodings hheader
    (fun frame hf e he hreq => (knownRequiredExtension_iff _).mpr (hknown frame hf e he hreq))
    hencode eof
  refine ⟨frames.map Frame.canonical, ?_, ?_, ?_⟩
  · rw [List.forall₂_map_right_iff]
    exact List.forall₂_same.mpr fun frame _ => sameFrame_canonical frame
  · rw [hfeed, List.map_map]
    rfl
  · rw [hfeed]

/-- Two frames back to back, the first with its extensions out of order. -/
theorem decode_undoes_encode_two :
    ∃ received, List.Forall₂ SameFrame
        [{ type := .data, channel := ⟨7, 1⟩, frameSeq := 9, payload := [1, 2, 3],
           extensions := [⟨5, false, [8]⟩, ⟨1, true, []⟩] }, { type := .ping }] received ∧
      (FrameCodec.feed {}
        [76, 84, 88, 49, 17, 0, 0, 7, 0, 0, 7, 1, 0, 0, 0, 9, 3, 128, 1, 0, 0, 5, 1, 8, 1, 2, 3, 215,
          149, 72, 69, 76, 84, 88, 49, 32, 0, 0, 0, 0, 0, 0, 0, 0, 0, 0, 0, 0, 7, 193, 170, 234]
        true).1 = received.map .frame := by
  obtain ⟨received, hsame, hevents, _⟩ := decode_undoes_encode {} (by decide)
    [{ type := .data, channel := ⟨7, 1⟩, frameSeq := 9, payload := [1, 2, 3],
       extensions := [⟨5, false, [8]⟩, ⟨1, true, []⟩] }, { type := .ping }]
    [[76, 84, 88, 49, 17, 0, 0, 7, 0, 0, 7, 1, 0, 0, 0, 9, 3, 128, 1, 0, 0, 5, 1, 8, 1, 2, 3, 215,
        149, 72, 69],
      [76, 84, 88, 49, 32, 0, 0, 0, 0, 0, 0, 0, 0, 0, 0, 0, 0, 7, 193, 170, 234]]
    (by decide) (.cons (by decide +kernel) (.cons (by decide +kernel) .nil)) true
  exact ⟨received, hsame, hevents⟩

end LatticeGateway
