import LatticeGateway.CrcSlicing
import LatticeGateway.FrameRoundTrip

namespace LatticeGateway

open ShiftRegister

/-- `changed` differs from `bytes`, and only within the `count` bytes from `start` on. -/
structure ChangedWithin (start count : Nat) (bytes changed : Bytes) : Prop where
  length : changed.length = bytes.length
  confined : ∀ i, i < start ∨ start + count ≤ i → changed[i]? = bytes[i]?
  differs : changed ≠ bytes

/-- The window is part of the CRC, or lies before it and off the bytes that place the parts of the frame. -/
def SafeWindow (frame : Frame) (bytes : Bytes) (start count : Nat) : Prop :=
  start + count ≤ bytes.length ∧ bytes.length - 4 ≤ start ∨
  start + count ≤ bytes.length - 4 ∧ (start + count ≤ 6 ∨ 8 ≤ start) ∧
    (start + count ≤ 16 ∨ 16 + (sizeBytes frame).length ≤ start)

section

variable {start count : Nat} {bytes changed : Bytes}

theorem ChangedWithin.slice (h : ChangedWithin start count bytes changed) {i n : Nat}
    (houtside : i + n ≤ start ∨ start + count ≤ i) : (changed.drop i).take n = (bytes.drop i).take n := by
  apply List.ext_getElem?
  intro j
  rw [List.getElem?_take, List.getElem?_take, List.getElem?_drop, List.getElem?_drop]
  split
  next hj => exact h.confined (i + j) (by omega)
  next => rfl

theorem ChangedWithin.take (h : ChangedWithin start count bytes changed) {n : Nat} (hle : n ≤ start) :
    changed.take n = bytes.take n := by
  have hslice := @ChangedWithin.slice _ _ _ _ h 0 n (.inl (by omega))
  rwa [List.drop_zero, List.drop_zero] at hslice

theorem ChangedWithin.drop (h : ChangedWithin start count bytes changed) {n : Nat} (hge : start + count ≤ n) :
    changed.drop n = bytes.drop n := by
  have hslice := @ChangedWithin.slice _ _ _ _ h n bytes.length (.inr hge)
  rwa [List.take_of_length_le (by rw [List.length_drop, h.length]; omega),
    List.take_of_length_le (by rw [List.length_drop]; omega)] at hslice

theorem ChangedWithin.byteAt (h : ChangedWithin start count bytes changed) {i : Nat}
    (houtside : i < start ∨ start + count ≤ i) : byteAt changed i = byteAt bytes i := by
  unfold LatticeGateway.byteAt
  rw [List.getD_eq_getElem?_getD, List.getD_eq_getElem?_getD, h.confined i houtside]

theorem crc32c_run (bytes : Bytes) :
    (~~~ crc32c bytes).toBitVec = run polynomial (UInt32.toBitVec 0xFFFFFFFF) (bits bytes) := by
  rw [← foldl_byteUpdate, crc32c, crcLoop_eq, UInt32.not_not]

/-- A change within four bytes changes the CRC. -/
theorem ChangedWithin.crc32c_ne (h : ChangedWithin start count bytes changed) (hcount : count ≤ 4) :
    crc32c changed ≠ crc32c bytes := by
  have hsplit : ∀ all : Bytes,
      all.take start ++ (all.drop start).take count ++ all.drop (start + count) = all := by
    intro all
    rw [List.append_assoc, drop_take_append, List.take_append_drop]
  have hfront := h.take (Nat.le_refl start)
  have hback := h.drop (Nat.le_refl (start + count))
  have hlength := h.length
  intro hcrc
  have hrun := (crc32c_run changed).symm.trans ((congrArg (fun crc => (~~~ crc).toBitVec) hcrc).trans
    (crc32c_run bytes))
  rw [← hsplit changed, ← hsplit bytes, hfront, hback] at hrun
  unfold bits at hrun
  simp only [List.map_append] at hrun
  have hburst := run_burst polynomial (by decide) _ _ _ (by simp [hlength]) (by simp; omega) hrun
  have hsame := List.map_injective_iff.mpr (fun _ _ h => UInt8.toBitVec_inj.mp h) hburst
  exact h.differs (by rw [← hsplit changed, ← hsplit bytes, hfront, hback, hsame])

end

/-- A frame whose parts are where its header says is refused when its CRC does not match. -/
theorem decodeFrame_crc {limits : FrameLimits} {view : Bytes} (eof : Bool) {payloadSize : UInt32}
    {varintBytes : Nat} {extent : FrameExtent} (hfixed : kFixedPrefixBytes ≤ view.length)
    (hread : decodeUleb128 view 16 = .ok (payloadSize, varintBytes))
    (hextent : frameExtent limits varintBytes (u16At view 6) payloadSize = .ok extent)
    (hfull : extent.total ≤ view.length)
    (hcrc : crc32c (view.take extent.withoutCrc) ≠ u32At view extent.withoutCrc) :
    ∃ error, decodeFrame limits eof view = .fail error := by
  unfold decodeFrame
  rw [if_neg (Nat.not_lt.mpr hfixed)]
  cases hfields : readPrefix limits view with
  | error error => exact ⟨error, rfl⟩
  | ok fields =>
    obtain ⟨_, _, _, hextLen, _⟩ := readPrefix_ok hfields
    rw [← hextLen] at hextent
    simp only [hread, hextent]
    rw [if_neg (Nat.not_lt.mpr hfull)]
    unfold readBody
    rw [if_pos hcrc]
    exact ⟨_, rfl⟩

theorem feed_fail {limits : FrameLimits} {eof : Bool} {bytes : Bytes} {error : Error}
    (h : decodeFrame limits eof bytes = .fail error) :
    (FrameCodec.feed { limits } bytes eof).1 = [.error error] := by
  unfold FrameCodec.feed
  simp only [List.nil_append]
  unfold feedLoop
  rw [h]
  rfl

section

variable {limits : FrameLimits} {frame : Frame} {block bytes changed : Bytes} {start count : Nat}

/-- A safe window leaves the two lengths alone. -/
theorem SafeWindow.lengths (h : Encodes limits frame block bytes)
    (hwindow : SafeWindow frame bytes start count) :
    (start + count ≤ 6 ∨ 8 ≤ start) ∧ (start + count ≤ 16 ∨ 16 + (sizeBytes frame).length ≤ start) := by
  have hlength := h.length_eq
  have hchecked := length_checkedBytes frame block
  rcases hwindow with ⟨_, hcrc⟩ | ⟨_, hsizes, hvarint⟩
  · omega
  · exact ⟨hsizes, hvarint⟩

theorem Encodes.changed_extLen (h : Encodes limits frame block bytes) (hheader : limits.maxHeader ≤ 65535)
    (hchanged : ChangedWithin start count bytes changed) (hsizes : start + count ≤ 6 ∨ 8 ≤ start) :
    u16At changed 6 = UInt16.ofNat block.length := by
  obtain ⟨_, _, _, hextLen, _⟩ := readPrefix_ok ((h.wireLayout hheader).readPrefix [])
  rw [List.append_nil] at hextLen
  refine Eq.trans ?_ hextLen.symm
  unfold u16At
  rw [hchanged.byteAt (by omega), hchanged.byteAt (by omega)]

theorem Encodes.changed_size (h : Encodes limits frame block bytes)
    (hchanged : ChangedWithin start count bytes changed)
    (hvarint : start + count ≤ 16 ∨ 16 + (sizeBytes frame).length ≤ start) :
    decodeUleb128 changed 16 = .ok (UInt32.ofNat frame.payload.length, (sizeBytes frame).length) := by
  have hlength := h.length_eq
  have hchecked := length_checkedBytes frame block
  have hsame := hchanged.length
  have hsize : (bytes.drop 16).take (sizeBytes frame).length = sizeBytes frame := by
    have hfixed : (prefixBytes frame (UInt16.ofNat block.length)).length = 16 := length_prefixBytes _ _
    rw [h.bytes, checkedBytes, List.append_assoc, List.append_assoc, List.append_assoc,
      List.drop_left' hfixed, List.take_left]
  have hslice : (changed.drop 16).take (sizeBytes frame).length = sizeBytes frame :=
    (hchanged.slice (by omega)).trans hsize
  have hshortest := encodeUleb128Loop_minimal (UInt32.ofNat frame.payload.length)
  have hread : decodeUleb128
      (changed.take 16 ++ (sizeBytes frame ++ changed.drop (16 + (sizeBytes frame).length)))
      (changed.take 16).length = .ok (UInt32.ofNat frame.payload.length, (sizeBytes frame).length) :=
    decodeUleb128_complete hshortest _ _
  have hparts := drop_take_append changed 16 (sizeBytes frame).length
  rw [hslice] at hparts
  rwa [hparts, List.take_append_drop, List.length_take_of_le (by omega)] at hread

/-- The CRC of the changed bytes is not the one behind them. -/
theorem Encodes.changed_crc (h : Encodes limits frame block bytes) (hcount : count ≤ 4)
    (hwindow : SafeWindow frame bytes start count) (hchanged : ChangedWithin start count bytes changed) :
    crc32c (changed.take (checkedBytes frame block).length) ≠
      u32At changed (checkedBytes frame block).length := by
  have hlength := h.length_eq
  have hsame := hchanged.length
  have hcrc : ∀ all : Bytes, all.length = bytes.length →
      u32Bytes (u32At all (checkedBytes frame block).length) = all.drop (checkedBytes frame block).length := by
    intro all hall
    rw [u32Bytes_at (by omega), List.take_of_length_le (by rw [List.length_drop]; omega)]
  have hchecked : bytes.take (checkedBytes frame block).length = checkedBytes frame block := by
    rw [h.bytes, List.take_left]
  have hdrop : bytes.drop (checkedBytes frame block).length = u32Bytes (crc32c (checkedBytes frame block)) := by
    rw [h.bytes, List.drop_left]
  intro heq
  rcases hwindow with ⟨hend, hstart⟩ | ⟨hend, _, _⟩
  · have hfront := hchanged.take (show (checkedBytes frame block).length ≤ start by omega)
    have hback := hcrc changed hsame
    rw [← heq, hfront, hchecked, ← hdrop] at hback
    apply hchanged.differs
    rw [← List.take_append_drop (checkedBytes frame block).length changed, ← hback, hfront,
      List.take_append_drop]
  · have hback := hchanged.drop (show start + count ≤ (checkedBytes frame block).length by omega)
    have hfront : ChangedWithin start count (bytes.take (checkedBytes frame block).length)
        (changed.take (checkedBytes frame block).length) := by
      refine ⟨by rw [List.length_take, List.length_take, hsame], fun i hi => ?_, fun hsameFront => ?_⟩
      · rw [List.getElem?_take, List.getElem?_take, hchanged.confined i hi]
      · apply hchanged.differs
        rw [← List.take_append_drop (checkedBytes frame block).length changed, hsameFront, hback,
          List.take_append_drop]
    have hkept := hcrc changed hsame
    rw [hback, hdrop] at hkept
    have hread := congrArg (fun word => u32At word 0) hkept
    have hvalue : ∀ value : UInt32, u32At (u32Bytes value) 0 = value := fun value => by
      have hzero := u32At_u32Bytes value []
      rwa [List.append_nil] at hzero
    rw [hvalue, hvalue] at hread
    rw [hread] at heq
    have hne := hfront.crc32c_ne hcount
    rw [hchecked] at hne
    exact hne heq

end

/-- The bytes of an encoded frame, changed within at most four consecutive bytes of its CRC or of what the
CRC covers, but for the two lengths, are an error and no frame. -/
theorem short_corruption_caught (limits : FrameLimits) (hheader : limits.maxHeader ≤ 65535) (frame : Frame)
    (bytes : Bytes) (hencode : FrameCodec.encode { limits } frame = .ok bytes) (start count : Nat)
    (hcount : count ≤ 4) (hwindow : SafeWindow frame bytes start count) (changed : Bytes)
    (hchanged : ChangedWithin start count bytes changed) (eof : Bool) :
    ∃ error, (FrameCodec.feed { limits } changed eof).1 = [.error error] := by
  obtain ⟨block, hencodes⟩ := FrameCodec.encode_ok hencode
  obtain ⟨hsizes, hvarint⟩ := hwindow.lengths hencodes
  have hlength := hencodes.length_eq
  have hchecked := length_checkedBytes frame block
  have hsame := hchanged.length
  have hfits : bytes.length ≤ limits.maxFrame := by
    rw [hlength]
    exact hencodes.size
  have hextent := (hencodes.wireLayout hheader).frameExtent hencodes.payload hfits
  rw [← hencodes.checkedBytes_eq hheader, ← hencodes.changed_extLen hheader hchanged hsizes] at hextent
  obtain ⟨error, hfail⟩ := decodeFrame_crc eof (by rw [kFixedPrefixBytes]; omega)
    (hencodes.changed_size hchanged hvarint) hextent (Nat.le_of_eq hsame.symm)
    (hencodes.changed_crc hcount hwindow hchanged)
  exact ⟨error, feed_fail hfail⟩

def encodedPing : Bytes := [76, 84, 88, 49, 32, 0, 0, 0, 0, 0, 0, 0, 0, 0, 0, 0, 0, 7, 193, 170, 234]

/-- A PING that arrives as a PONG. -/
theorem short_corruption_caught_pong :
    ∃ error, (FrameCodec.feed {} (encodedPing.set 4 33) true).1 = [.error error] := by
  refine short_corruption_caught {} (by decide) { type := .ping } encodedPing (by decide +kernel) 4 1
    (by decide) (.inr (by decide)) (encodedPing.set 4 33) ⟨rfl, ?_, by decide⟩ true
  intro i hi
  exact List.getElem?_set_ne (by omega)

end LatticeGateway
