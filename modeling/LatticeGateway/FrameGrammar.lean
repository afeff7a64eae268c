import LatticeGateway.ExtensionGrammar
import LatticeGateway.FrameStream

namespace LatticeGateway

open StreamDecoder

/-- The bytes of a frame that its CRC covers, with `size` spelling the payload length and `block` its
extensions. -/
def coveredBytes (frame : Frame) (size block : Bytes) : Bytes :=
  BigEndian.digits 4 0x4C545831 ++ [frame.type.code, 0] ++ BigEndian.digits 2 block.length ++
    BigEndian.digits 3 frame.channel.number.toNat ++ [frame.channel.generation] ++
    BigEndian.digits 4 frame.frameSeq.toNat ++ size ++ block ++ frame.payload

/-- `bytes` has the layout of an LTX/1 frame around the extension block `block`. -/
structure WireLayout (limits : FrameLimits) (frame : Frame) (size block bytes : Bytes) : Prop where
  flags : frame.flags = 0
  number : frame.channel.number.toNat < 2 ^ 24
  shortest : Leb128.Minimal frame.payload.length size
  blockLength : block.length < 2 ^ 16
  header : block.length ≤ limits.maxHeader
  layout : bytes = coveredBytes frame size block ++
    BigEndian.digits 4 (crc32c (coveredBytes frame size block)).toNat

/-- The LTX/1 grammar of one frame. -/
structure WireForm (limits : FrameLimits) (frame : Frame) (size block bytes : Bytes) : Prop
    extends WireLayout limits frame size block bytes where
  extensions : ExtensionBlock frame.extensions block
  fits : bytes.length ≤ limits.maxFrame

/-- `bytes` is the wire form of `frame`. -/
def FrameForm (limits : FrameLimits) (bytes : Bytes) (frame : Frame) : Prop :=
  ∃ size block, WireForm limits frame size block bytes

@[simp] theorem ofCode_code (type : FrameType) : FrameType.ofCode? type.code = some type := by
  cases type <;> rfl

theorem code_of_ofCode {raw : UInt8} {type : FrameType} (h : FrameType.ofCode? raw = some type) :
    type.code = raw := by
  have key : ∀ n : Fin 256, (FrameType.ofCode? (UInt8.ofNat n.val)).all (·.code = UInt8.ofNat n.val) := by
    decide +kernel
  have hcode := key ⟨raw.toNat, raw.toNat_lt⟩
  rw [UInt8.ofNat_toNat, h] at hcode
  exact of_decide_eq_true hcode

theorem length_coveredBytes (frame : Frame) (size block : Bytes) :
    (coveredBytes frame size block).length = 16 + size.length + block.length + frame.payload.length := by
  simp only [coveredBytes, List.length_append, BigEndian.length_digits, List.length_cons,
    List.length_nil]

theorem prefix_reads (magic frameSeq : UInt32) (type flags generation : UInt8) (extLen : UInt16)
    {number : UInt32} (hnumber : number ≤ kMaxChannelNo) (tail : Bytes) {view : Bytes}
    (hview : view = u32Bytes magic ++ ([type, flags] ++ (u16Bytes extLen ++
        (u24Bytes number ++ ([generation] ++ (u32Bytes frameSeq ++ tail)))))) :
    u32At view 0 = magic ∧ byteAt view 4 = type ∧ byteAt view 5 = flags ∧ u16At view 6 = extLen ∧
      u24At view 8 = number ∧ byteAt view 11 = generation ∧ u32At view 12 = frameSeq := by
  subst hview
  let front := u32Bytes magic ++ [type, flags]
  let number' := front ++ u16Bytes extLen ++ u24Bytes number
  refine ⟨u32At_u32Bytes _ _, ?_, ?_, ?_, ?_, ?_, ?_⟩
  · exact @byteAt_behind (u32Bytes magic) 4 rfl _ _
  · exact @byteAt_behind (u32Bytes magic ++ [type]) 5 rfl _ _
  · simpa only [front, List.append_assoc] using @u16At_behind front 6 rfl _ _
  · simpa only [front, List.append_assoc] using
      @u24At_behind (front ++ u16Bytes extLen) 8 rfl _ hnumber _
  · simpa only [front, number', List.append_assoc] using @byteAt_behind number' 11 rfl _ _
  · simpa only [front, number', List.append_assoc] using @u32At_behind (number' ++ [generation]) 12 rfl _ _

section

variable {limits : FrameLimits} {frame : Frame} {size block bytes : Bytes}

theorem WireLayout.length_eq (h : WireLayout limits frame size block bytes) :
    bytes.length = (coveredBytes frame size block).length + 4 := by
  rw [h.layout, List.length_append, BigEndian.length_digits]

theorem WireLayout.extLen_toNat (h : WireLayout limits frame size block bytes) :
    (UInt16.ofNat block.length).toNat = block.length := by
  rw [UInt16.toNat_ofNat']
  exact Nat.mod_eq_of_lt h.blockLength

theorem WireLayout.readPrefix (h : WireLayout limits frame size block bytes) (rest : Bytes) :
    readPrefix limits (bytes ++ rest) =
      .ok { type := frame.type, extLen := UInt16.ofNat block.length, channel := frame.channel,
            frameSeq := frame.frameSeq } := by
  have hheader := h.header
  have hnumber : frame.channel.number ≤ kMaxChannelNo := by
    have := h.number
    rw [UInt32.le_iff_toNat_le, show kMaxChannelNo.toNat = 2 ^ 24 - 1 from rfl]
    omega
  obtain ⟨hmagic, htype, hflags, hlen, hread, hgeneration, hseq⟩ :=
    prefix_reads kLtxMagic frame.frameSeq frame.type.code 0 frame.channel.generation
      (UInt16.ofNat block.length) hnumber (size ++ (block ++ (frame.payload ++
        (BigEndian.digits 4 (crc32c (coveredBytes frame size block)).toNat ++ rest))))
      (show bytes ++ rest = _ by
        rw [u32Bytes_eq_digits, u16Bytes_eq_digits, u24Bytes_eq_digits, u32Bytes_eq_digits,
          h.extLen_toNat, h.layout]
        simp only [coveredBytes, List.append_assoc]
        rfl)
  unfold LatticeGateway.readPrefix
  rw [hmagic, htype, hflags, hlen, hread, hgeneration, hseq, ofCode_code, h.extLen_toNat,
    if_neg (by simp)]
  dsimp only
  rw [if_neg (by simp), if_neg (by omega)]

/-- The payload length as the decoder holds it. -/
theorem payloadSize_toNat (hpayload : frame.payload.length < 2 ^ 32) :
    (UInt32.ofNat frame.payload.length).toNat = frame.payload.length := by
  rw [UInt32.toNat_ofNat']
  exact Nat.mod_eq_of_lt hpayload

theorem WireLayout.decodeUleb128 (h : WireLayout limits frame size block bytes)
    (hpayload : frame.payload.length < 2 ^ 32) (rest : Bytes) :
    decodeUleb128 (bytes ++ rest) 16 = .ok (UInt32.ofNat frame.payload.length, size.length) := by
  have hsize := h.shortest
  rw [← payloadSize_toNat hpayload] at hsize
  have key := decodeUleb128_complete hsize
    (BigEndian.digits 4 0x4C545831 ++ [frame.type.code, 0] ++ BigEndian.digits 2 block.length ++
      BigEndian.digits 3 frame.channel.number.toNat ++ [frame.channel.generation] ++
      BigEndian.digits 4 frame.frameSeq.toNat) (block ++ (frame.payload ++
        (BigEndian.digits 4 (crc32c (coveredBytes frame size block)).toNat ++ rest)))
  rw [h.layout]
  simpa only [coveredBytes, List.append_assoc, List.length_append, BigEndian.length_digits,
    List.length_cons, List.length_nil, Nat.reduceAdd, Nat.zero_add] using key

theorem WireLayout.sizeLength (h : WireLayout limits frame size block bytes)
    (hpayload : frame.payload.length < 2 ^ 32) : size.length ≤ 5 := by
  have hsize := h.shortest
  have hv := (UInt32.ofNat frame.payload.length).toNat_lt
  rw [← payloadSize_toNat hpayload] at hsize
  rw [hsize.unique (encodeUleb128Loop_minimal _)]
  exact length_encodeUleb128Loop_le (hv.trans_le (by omega))

theorem WireLayout.frameExtent (h : WireLayout limits frame size block bytes)
    (hpayload : frame.payload.length < 2 ^ 32) (hfits : bytes.length ≤ limits.maxFrame) :
    frameExtent limits size.length (UInt16.ofNat block.length) (UInt32.ofNat frame.payload.length) =
      .ok { headerTotal := 16 + size.length + block.length,
            withoutCrc := (coveredBytes frame size block).length, total := bytes.length } := by
  have hblock := h.blockLength
  have hlength := length_coveredBytes frame size block
  rw [h.length_eq] at hfits
  have hsize := h.sizeLength hpayload
  unfold LatticeGateway.frameExtent
  rw [h.length_eq, h.extLen_toNat, payloadSize_toNat hpayload, checkedAdd_of_lt (by omega)]
  dsimp only
  rw [checkedAdd_of_lt (by omega)]
  dsimp only
  rw [checkedAdd_of_lt (by omega)]
  dsimp only
  rw [if_neg (by omega), hlength]

/-- A frame above the limit is an error. -/
theorem WireLayout.decodeFrame_large (h : WireLayout limits frame size block bytes)
    (hpayload : frame.payload.length < 2 ^ 32) (hlarge : limits.maxFrame < bytes.length) (eof : Bool) :
    ∃ error, decodeFrame limits eof bytes = .fail error := by
  have hlength := length_coveredBytes frame size block
  have hlen := h.length_eq
  have hprefix := h.readPrefix []
  have hread := h.decodeUleb128 hpayload []
  have hblock := h.blockLength
  have hsize := h.sizeLength hpayload
  rw [List.append_nil] at hprefix hread
  have hextent : ∃ error, LatticeGateway.frameExtent limits size.length (UInt16.ofNat block.length)
      (UInt32.ofNat frame.payload.length) = .error error := by
    unfold LatticeGateway.frameExtent
    rw [h.extLen_toNat, payloadSize_toNat hpayload, checkedAdd_of_lt (by omega)]
    dsimp only
    rw [checkedAdd_of_lt (by omega)]
    dsimp only
    rw [checkedAdd_of_lt (by omega)]
    dsimp only
    rw [if_pos (by omega)]
    exact ⟨_, rfl⟩
  obtain ⟨error, hextent⟩ := hextent
  refine ⟨error, ?_⟩
  unfold LatticeGateway.decodeFrame
  rw [if_neg (by simp only [kFixedPrefixBytes]; omega), hprefix]
  simp only [hread, hextent]

theorem WireForm.parseExtensions (h : WireForm limits frame size block bytes) :
    (if UInt16.ofNat block.length > 0 then parseExtensions block else .ok []) =
      .ok frame.extensions := by
  have hparse := (parseExtensions_iff (h.blockLength.trans (by omega))).mpr h.extensions
  split
  next => exact hparse
  next hzero =>
    have hnil : block = [] := by
      rw [gt_iff_lt, UInt16.lt_iff_toNat_lt, h.extLen_toNat] at hzero
      exact List.eq_nil_of_length_eq_zero (by simpa using hzero)
    rw [← hparse, hnil]
    rfl

theorem WireForm.readBody (h : WireForm limits frame size block bytes)
    (hpayload : frame.payload.length < 2 ^ 32) (rest : Bytes) :
    readBody (bytes ++ rest)
        { type := frame.type, extLen := UInt16.ofNat block.length, channel := frame.channel,
          frameSeq := frame.frameSeq }
        size.length (UInt32.ofNat frame.payload.length)
        { headerTotal := 16 + size.length + block.length,
          withoutCrc := (coveredBytes frame size block).length, total := bytes.length } =
      .ok frame := by
  have hcrc : crc32c ((bytes ++ rest).take (coveredBytes frame size block).length) =
      u32At (bytes ++ rest) (coveredBytes frame size block).length := by
    have hread := u32At_append_right (coveredBytes frame size block)
      (u32Bytes (crc32c (coveredBytes frame size block)) ++ rest) 0
    rw [Nat.add_zero, u32At_u32Bytes, u32Bytes_eq_digits] at hread
    rw [h.layout, List.append_assoc, List.take_left, hread]
  have hblock : ((bytes ++ rest).drop (16 + size.length)).take block.length = block := by
    rw [h.layout, coveredBytes, List.append_assoc, List.append_assoc, List.append_assoc,
      List.drop_left' (by simp; omega), List.take_left]
  have hdata : ((bytes ++ rest).drop (16 + size.length + block.length)).take frame.payload.length =
      frame.payload := by
    rw [h.layout, coveredBytes, List.append_assoc, List.append_assoc,
      List.drop_left' (by simp; omega), List.take_left]
  have hflags := h.flags
  unfold LatticeGateway.readBody
  rw [h.extLen_toNat, payloadSize_toNat hpayload, hcrc, if_neg (by simp), hblock, hdata,
    h.parseExtensions]
  cases frame
  dsimp only at hflags ⊢
  rw [hflags]

/-- Every frame of the grammar is decoded, whatever follows it. -/
theorem WireForm.decodeFrame (h : WireForm limits frame size block bytes)
    (hpayload : frame.payload.length < 2 ^ 32) (eof : Bool) (rest : Bytes) :
    decodeFrame limits eof (bytes ++ rest) = .item frame bytes.length := by
  have hlength := length_coveredBytes frame size block
  have hlen := h.length_eq
  unfold LatticeGateway.decodeFrame
  rw [if_neg (by simp only [List.length_append, kFixedPrefixBytes]; omega), h.readPrefix rest]
  simp only [h.decodeUleb128 hpayload rest, h.toWireLayout.frameExtent hpayload h.fits]
  rw [if_neg (by rw [List.length_append]; omega), h.readBody hpayload rest]

end

theorem readPrefix_ok {limits : FrameLimits} {view : Bytes} {fields : FramePrefix}
    (h : readPrefix limits view = .ok fields) :
    u32At view 0 = kLtxMagic ∧ fields.type.code = byteAt view 4 ∧ byteAt view 5 = 0 ∧
      fields.extLen = u16At view 6 ∧ fields.channel = ⟨u24At view 8, byteAt view 11⟩ ∧
      fields.frameSeq = u32At view 12 ∧ fields.extLen.toNat ≤ limits.maxHeader := by
  unfold readPrefix at h
  split at h
  next => cases h
  next hmagic =>
    split at h
    next => cases h
    next type htype =>
      split at h
      next => cases h
      next hflags =>
        split at h
        next => cases h
        next hheader =>
          cases h
          exact ⟨not_not.mp hmagic, code_of_ofCode htype, not_not.mp hflags, rfl, rfl, rfl,
            Nat.not_lt.mp hheader⟩

theorem take_one_drop {bs : Bytes} {i : Nat} (h : i < bs.length) :
    (bs.drop i).take 1 = [byteAt bs i] := by
  rw [drop_eq_byteAt_cons h, List.take_succ_cons, List.take_zero]

/-- The fixed prefix, read field by field. -/
theorem take_fixedPart {view : Bytes} (h : 16 ≤ view.length) :
    view.take 16 = BigEndian.digits 4 (u32At view 0).toNat ++ [byteAt view 4, byteAt view 5] ++
      BigEndian.digits 2 (u16At view 6).toNat ++ BigEndian.digits 3 (u24At view 8).toNat ++
      [byteAt view 11] ++ BigEndian.digits 4 (u32At view 12).toNat := by
  have htwo : [byteAt view 4, byteAt view 5] = (view.drop 4).take 2 := by
    rw [drop_eq_byteAt_cons (by omega), drop_eq_byteAt_cons (by omega)]
    rfl
  rw [digits_u32At (by omega), digits_u16At (by omega), digits_u24At (by omega),
    digits_u32At (by omega), htwo, ← take_one_drop (by omega), List.drop_zero]
  rw [← @List.take_add _ view 4 2, ← @List.take_add _ view 6 2, ← @List.take_add _ view 8 3,
    ← @List.take_add _ view 11 1, ← @List.take_add _ view 12 4]

/-- The parts of a frame, cut out of the bytes before its CRC, are all of these bytes. -/
theorem coveredBytes_of_reads {view : Bytes} {frame : Frame} {varintBytes payloadBytes : Nat}
    (hmagic : u32At view 0 = kLtxMagic) (htype : frame.type.code = byteAt view 4)
    (hflags : byteAt view 5 = 0) (hnumber : frame.channel.number = u24At view 8)
    (hgeneration : frame.channel.generation = byteAt view 11) (hseq : frame.frameSeq = u32At view 12)
    (hpayload : frame.payload =
      (view.drop (16 + varintBytes + (u16At view 6).toNat)).take payloadBytes)
    (hlen : 16 + varintBytes + (u16At view 6).toNat ≤ view.length) :
    coveredBytes frame ((view.drop 16).take varintBytes)
        ((view.drop (16 + varintBytes)).take (u16At view 6).toNat) =
      view.take (16 + varintBytes + (u16At view 6).toNat + payloadBytes) := by
  have hblock : ((view.drop (16 + varintBytes)).take (u16At view 6).toNat).length =
      (u16At view 6).toNat := by
    rw [List.length_take, List.length_drop]
    omega
  have hprefix := @take_fixedPart view (by omega)
  rw [hmagic, hflags, ← htype, ← hnumber, ← hgeneration, ← hseq] at hprefix
  unfold coveredBytes
  rw [hblock, hpayload, show (0x4C545831 : Nat) = kLtxMagic.toNat from rfl, ← hprefix,
    ← List.take_add, ← List.take_add, ← List.take_add]

/-- What the decoder reads as a frame is a frame of the grammar. -/
theorem decodeFrame_sound {limits : FrameLimits} {eof : Bool} {view : Bytes} {frame : Frame} {n : Nat}
    (h : decodeFrame limits eof view = .item frame n) :
    FrameForm limits (view.take n) frame ∧ frame.payload.length < 2 ^ 32 := by
  obtain ⟨fields, payloadSize, varintBytes, extent, hfields, hread, hextent, rfl, hfull, hbody⟩ :=
    decodeFrame_parts h
  obtain ⟨hmagic, htype, hflags, hextLen, hchannel, hseq, hheader⟩ := readPrefix_ok hfields
  obtain ⟨hheaderTotal, hwithoutCrc, htotal, hfits⟩ := frameExtent_spec hextent
  obtain ⟨hused, hminimal⟩ := decodeUleb128_sound hread
  have hsize := payloadSize.toNat_lt
  have hext := fields.extLen.toNat_lt
  unfold readBody at hbody
  split at hbody
  next => cases hbody
  next hcrc =>
    split at hbody
    next => cases hbody
    next extensions hextensions =>
      cases hbody
      have hpayload : ((view.drop extent.headerTotal).take payloadSize.toNat).length =
          payloadSize.toNat := by
        rw [List.length_take, List.length_drop]
        omega
      have hblockLength : ((view.drop (16 + varintBytes)).take fields.extLen.toNat).length =
          fields.extLen.toNat := by
        rw [List.length_take, List.length_drop]
        omega
      have hblock : ExtensionBlock extensions
          ((view.drop (16 + varintBytes)).take fields.extLen.toNat) := by
        split at hextensions
        next => exact (parseExtensions_iff (by omega)).mp hextensions
        next hzero =>
          cases hextensions
          rw [gt_iff_lt, UInt16.lt_iff_toNat_lt, UInt16.toNat_zero, Nat.not_lt] at hzero
          rw [Nat.le_zero.mp hzero, List.take_zero]
          exact .nil
      have hcovered := @coveredBytes_of_reads view
        { type := fields.type, flags := 0, channel := fields.channel, frameSeq := fields.frameSeq,
          extensions, payload := (view.drop extent.headerTotal).take payloadSize.toNat }
        varintBytes payloadSize.toNat hmagic htype hflags (by rw [hchannel]) (by rw [hchannel]) hseq
        (by rw [hheaderTotal, hextLen]) (by rw [← hextLen]; omega)
      rw [← hextLen, ← hheaderTotal, ← hwithoutCrc] at hcovered
      refine ⟨⟨(view.drop 16).take varintBytes, _, ⟨rfl, ?_, ?_, by omega, by omega, ?_⟩, hblock, ?_⟩,
        by dsimp only; omega⟩
      · rw [hchannel]
        exact toNat_u24At_lt view 8
      · dsimp only
        rwa [hpayload]
      · rw [hcovered, not_not.mp hcrc, digits_u32At (by omega), ← List.take_add, htotal]
      · rw [List.length_take]
        omega

/-- `bytes` is the wire forms of `frames`, one behind the other. -/
def StreamForm (limits : FrameLimits) (bytes : Bytes) (frames : List Frame) : Prop :=
  ∃ parts : List Bytes, parts.flatten = bytes ∧ List.Forall₂ (FrameForm limits) parts frames

theorem decodes_streamForm {limits : FrameLimits} {eof : Bool} {bytes : Bytes} {frames : List Frame}
    (h : Decodes (decodeFrame limits eof) bytes frames (.rest [])) :
    StreamForm limits bytes frames ∧ ∀ frame ∈ frames, frame.payload.length < 2 ^ 32 := by
  generalize ht : Tail.rest [] = t at h
  induction h with
  | rest =>
    cases ht
    exact ⟨⟨[], rfl, .nil⟩, by simp⟩
  | failed => cases ht
  | @item bytes frame n frames _ hv _ ih =>
    obtain ⟨hform, hpayload⟩ := decodeFrame_sound hv
    obtain ⟨⟨parts, hparts, hforms⟩, hpayloads⟩ := ih ht
    refine ⟨⟨bytes.take n :: parts, ?_, .cons hform hforms⟩, ?_⟩
    · rw [List.flatten_cons, hparts, List.take_append_drop]
    · rintro frame' (_ | ⟨_, hlater⟩)
      · exact hpayload
      · exact hpayloads frame' hlater

theorem StreamForm.decodes {limits : FrameLimits} {bytes : Bytes} {frames : List Frame}
    (h : StreamForm limits bytes frames) (hpayload : ∀ frame ∈ frames, frame.payload.length < 2 ^ 32)
    (eof : Bool) : Decodes (decodeFrame limits eof) bytes frames (.rest []) := by
  obtain ⟨parts, rfl, hforms⟩ := h
  induction hforms with
  | nil => exact .rest (decodeFrame_nil limits eof)
  | @cons part frame parts frames hform _ ih =>
    obtain ⟨size, block, hwire⟩ := hform
    have hrest := ih (fun later hlater => hpayload later (List.mem_cons_of_mem _ hlater))
    rw [List.flatten_cons]
    refine .item (hwire.decodeFrame (hpayload frame (by simp)) eof parts.flatten) ?_
    rwa [List.drop_left]

theorem map_frame_ne_append_error (frames more : List Frame) (error : Error) :
    more.map DecodeEvent.frame ++ [.error error] ≠ frames.map .frame := by
  intro h
  have hmem : DecodeEvent.error error ∈ frames.map DecodeEvent.frame := by
    rw [← h]
    simp
  simp at hmem

/-- At the end of the input only frames come out when the frames are all there is. -/
theorem feed_eof_frames {limits : FrameLimits} {bytes : Bytes} {frames : List Frame} (hne : frames ≠ []) :
    (FrameCodec.feed { limits } bytes true).1 = frames.map .frame ↔
      Decodes (decodeFrame limits false) bytes frames (.rest []) := by
  obtain ⟨found, tail, hdecodes⟩ := (decodeFrame_stable limits).exists_decodes bytes
  have hfeed := @FrameCodec.feed_eof { limits } bytes found tail hdecodes
  constructor
  · intro h
    rw [hfeed] at h
    match tail, hdecodes, h with
    | .rest [], hdecodes, h =>
      simp only [Tail.atEnd, feedResult] at h
      split at h
      next => cases frames with
        | nil => exact absurd rfl hne
        | cons frame frames => cases h
      next =>
        rw [← List.map_injective_iff.mpr (fun _ _ => DecodeEvent.frame.inj) h]
        exact hdecodes
    | .rest (b :: bs), _, h => exact absurd h (map_frame_ne_append_error frames found _)
    | .failed error, _, h => exact absurd h (map_frame_ne_append_error frames found _)
  · intro h
    obtain ⟨rfl, rfl⟩ := hdecodes.unique h
    rw [hfeed]
    simp [Tail.atEnd, feedResult, hne]

/-- The decoder accepts the grammar, with payload lengths that fit its 32 bits, and nothing else. -/
theorem feed_accepts_grammar (limits : FrameLimits) (bytes : Bytes) (frames : List Frame) :
    ((FrameCodec.feed { limits } bytes true).1 = frames.map .frame ∧ frames ≠ []) ↔
      frames ≠ [] ∧ StreamForm limits bytes frames ∧ ∀ frame ∈ frames, frame.payload.length < 2 ^ 32 := by
  constructor
  · rintro ⟨hfeed, hne⟩
    exact ⟨hne, decodes_streamForm ((feed_eof_frames hne).mp hfeed)⟩
  · rintro ⟨hne, hform, hpayload⟩
    exact ⟨(feed_eof_frames hne).mpr (hform.decodes hpayload false), hne⟩

/-- A PING with one byte more than a 32-bit payload length can say. -/
def hugePing : Frame := { type := .ping, payload := List.replicate (2 ^ 32) 0 }

def hugePingBytes : Bytes :=
  coveredBytes hugePing [0x80, 0x80, 0x80, 0x80, 0x10] [] ++
    BigEndian.digits 4 (crc32c (coveredBytes hugePing [0x80, 0x80, 0x80, 0x80, 0x10] [])).toNat

theorem hugePing_payload : hugePing.payload.length = 2 ^ 32 := List.length_replicate

theorem hugePing_size : Leb128.Minimal (2 ^ 32) [0x80, 0x80, 0x80, 0x80, 0x10] := by
  have hform : Leb128.Form (0x80 - 128 + 128 * (0x80 - 128 + 128 * (0x80 - 128 + 128 *
      (0x80 - 128 + 128 * 0x10)))) [0x80, 0x80, 0x80, 0x80, 0x10] :=
    @Leb128.Form.more 0x80 _ _ (by decide) (@Leb128.Form.more 0x80 _ _ (by decide)
      (@Leb128.Form.more 0x80 _ _ (by decide) (@Leb128.Form.more 0x80 _ _ (by decide)
        (@Leb128.Form.last 0x10 (by decide)))))
  exact hform.minimal (.inr (by decide))

theorem hugePing_form : FrameForm { maxFrame := 2 ^ 33 } hugePingBytes hugePing := by
  refine ⟨_, _, ⟨rfl, by decide, ?_, by decide, by simp, rfl⟩, .nil, ?_⟩
  · rw [hugePing_payload]
    exact hugePing_size
  · rw [hugePingBytes, List.length_append, length_coveredBytes, hugePing_payload, BigEndian.length_digits]
    simp

/-- Without the bound on the payload the grammar is wider than the decoder. -/
theorem feed_refuses_hugePing :
    ¬ (((FrameCodec.feed { limits := { maxFrame := 2 ^ 33 } } hugePingBytes true).1 =
        [hugePing].map .frame ∧ [hugePing] ≠ []) ↔
      [hugePing] ≠ [] ∧ StreamForm { maxFrame := 2 ^ 33 } hugePingBytes [hugePing]) := by
  intro h
  have hstream : StreamForm { maxFrame := 2 ^ 33 } hugePingBytes [hugePing] :=
    ⟨[hugePingBytes], by simp, .cons hugePing_form .nil⟩
  have hfeed := (h.mpr ⟨by simp, hstream⟩).1
  have hdecodes := (feed_eof_frames (by simp)).mp hfeed
  have hsmall := (decodes_streamForm hdecodes).2 hugePing (by simp)
  rw [hugePing_payload] at hsmall
  omega

end LatticeGateway
