import LatticeGateway.Crc32c
import LatticeGateway.ShiftRegister

namespace LatticeGateway

open ShiftRegister

/-- CRC-32C bit by bit: the reflected polynomial is added for every bit that is shifted out. -/
def bitStep (crc : UInt32) : UInt32 :=
  if crc &&& 1 = 1 then (crc >>> 1) ^^^ 0x82F63B78 else crc >>> 1

def byteUpdate (crc : UInt32) (byte : UInt8) : UInt32 := bitStep^[8] (crc ^^^ byte.toUInt32)

def crc32cBitwise (bytes : Bytes) : UInt32 := ~~~ bytes.foldl byteUpdate 0xFFFFFFFF

def polynomial : BitVec 32 := 0x82F63B78

def bits (bytes : Bytes) : List (BitVec 8) := bytes.map (·.toBitVec)

theorem low_bit (crc : UInt32) : (crc &&& 1 = 1) = (crc.toBitVec.getLsbD 0 = true) := by
  have hand : (crc &&& 1).toBitVec = BitVec.setWidth 32 (BitVec.ofBool (crc.toBitVec.getLsbD 0)) := by
    rw [UInt32.toBitVec_and]
    exact BitVec.and_one_eq_setWidth_ofBool_getLsbD
  rw [← UInt32.toBitVec_inj, hand]
  cases crc.toBitVec.getLsbD 0 <;> simp

theorem bitStep_shift (crc : UInt32) : (bitStep crc).toBitVec = shift polynomial crc.toBitVec := by
  unfold bitStep shift
  simp only [low_bit]
  split <;> simp [polynomial]

/-- The mask of the table generator selects the polynomial by the same bit. -/
theorem crcBit_eq (crc : UInt32) : crcBit crc = bitStep crc := by
  have hmask : (0 : UInt32) - (crc &&& 1) = if crc &&& 1 = 1 then 0xFFFFFFFF else 0 := by
    have hone : (crc &&& 1).toNat = crc.toNat % 2 := by
      rw [UInt32.toNat_and]
      exact Nat.and_one_is_mod _
    rcases Nat.mod_two_eq_zero_or_one crc.toNat with hbit | hbit
    · have hzero : crc &&& 1 = 0 := UInt32.toNat_inj.mp (hone.trans hbit)
      rw [hzero]
      rfl
    · have hset : crc &&& 1 = 1 := UInt32.toNat_inj.mp (hone.trans hbit)
      rw [hset]
      rfl
  unfold crcBit bitStep
  rw [hmask]
  split
  · exact congrArg ((crc >>> 1) ^^^ ·) (by decide)
  · simp

theorem bitSteps_shifts (n : Nat) (crc : UInt32) :
    (bitStep^[n] crc).toBitVec = (shift polynomial)^[n] crc.toBitVec := by
  induction n generalizing crc with
  | zero => rfl
  | succ n ih => rw [Function.iterate_succ_apply, Function.iterate_succ_apply, ih, bitStep_shift]

theorem byteUpdate_absorb (crc : UInt32) (byte : UInt8) :
    (byteUpdate crc byte).toBitVec = absorb polynomial crc.toBitVec byte.toBitVec := by
  unfold byteUpdate absorb
  rw [bitSteps_shifts, UInt32.toBitVec_xor]
  rfl

theorem foldl_byteUpdate (crc : UInt32) (bytes : Bytes) :
    (bytes.foldl byteUpdate crc).toBitVec = run polynomial crc.toBitVec (bits bytes) := by
  induction bytes generalizing crc with
  | nil => rfl
  | cons byte bytes ih => rw [List.foldl_cons, ih, byteUpdate_absorb]; rfl

theorem low_byte (crc : UInt32) : (crc &&& 0xFF).toBitVec = (crc.toBitVec.setWidth 8).setWidth 32 := by
  apply BitVec.eq_of_toNat_eq
  have hmask : (crc &&& 0xFF).toNat = crc.toNat % 2 ^ 8 := by
    rw [UInt32.toNat_and]
    exact Nat.and_two_pow_sub_one_eq_mod _ 8
  rw [UInt32.toNat_toBitVec, hmask, BitVec.toNat_setWidth, BitVec.toNat_setWidth, UInt32.toNat_toBitVec]
  omega

/-- Entry `i` of a table is what `slice + 1` bytes of zeros make of `i`. -/
theorem crcTable_shifts (slice : Nat) (i : UInt32) :
    (crcTable slice i).toBitVec = (shift polynomial)^[8 * (slice + 1)] i.toBitVec := by
  have hfirst : ∀ i : UInt32, (crcTable 0 i).toBitVec = (shift polynomial)^[8] i.toBitVec := by
    intro i
    rw [← bitSteps_shifts]
    simp only [crcTable, crcBit_eq]
    rfl
  induction slice with
  | zero => exact hfirst i
  | succ slice ih =>
    have hsteps : 8 * (slice + 1 + 1) = 8 + 8 * (slice + 1) := by omega
    rw [hsteps, Function.iterate_add_apply, ← ih, shifts_split, crcTable]
    rw [UInt32.toBitVec_xor, hfirst, low_byte, UInt32.toBitVec_shiftRight]
    rfl

theorem crcByte_eq (crc : UInt32) (byte : UInt8) : crcByte crc byte = byteUpdate crc byte := by
  have hhigh : (crc.toBitVec ^^^ byte.toBitVec.setWidth 32) >>> 8 = crc.toBitVec >>> 8 := by
    rw [BitVec.ushiftRight_xor_distrib]
    have hzero : byte.toBitVec.setWidth 32 >>> 8 = 0 := by
      apply BitVec.eq_of_getLsbD_eq
      intro i _
      rw [BitVec.getLsbD_ushiftRight, getLsbD_byte (Nat.le_add_right 8 i)]
      simp
    rw [hzero]
    exact BitVec.xor_zero
  apply UInt32.toBitVec_inj.mp
  rw [byteUpdate_absorb, absorb, shifts_split, hhigh]
  unfold crcByte
  rw [UInt32.toBitVec_xor, crcTable_shifts, low_byte, UInt32.toBitVec_shiftRight, UInt32.toBitVec_xor]
  rfl

theorem table_byte (slice : Nat) (crc : UInt32) :
    (crcTable slice (crc &&& 0xFF)).toBitVec =
      (shift polynomial)^[8 * (slice + 1)] ((crc.toBitVec.setWidth 8).setWidth 32) := by
  rw [crcTable_shifts, low_byte]

theorem word_lowBytes_four (c : BitVec 32) : word 32 (lowBytes 4 c) = c :=
  word_lowBytes c fun i hi => BitVec.getLsbD_of_ge c i hi

theorem lookups_four (steps : Nat) (c : UInt32) :
    (crcTable (steps + 3) (c &&& 0xFF) ^^^ crcTable (steps + 2) ((c >>> 8) &&& 0xFF) ^^^
      crcTable (steps + 1) ((c >>> 16) &&& 0xFF) ^^^ crcTable steps ((c >>> 24) &&& 0xFF)).toBitVec =
    (shift polynomial)^[8 * (steps + 4)] c.toBitVec := by
  have hlookups := @shifts_lookups _ polynomial (steps + 4) (lowBytes 4 c.toBitVec)
    (by simp [lowBytes]) (by simp [lowBytes])
  rw [word_lowBytes_four] at hlookups
  have hshift : ∀ (x : BitVec 32), x >>> (UInt32.toBitVec 8 % 32) = x >>> 8 ∧
      x >>> (UInt32.toBitVec 16 % 32) = x >>> 8 >>> 8 ∧
      x >>> (UInt32.toBitVec 24 % 32) = x >>> 8 >>> 8 >>> 8 := by
    intro x
    rw [← BitVec.shiftRight_add, ← BitVec.shiftRight_add]
    exact ⟨rfl, rfl, rfl⟩
  rw [hlookups]
  simp only [UInt32.toBitVec_xor, table_byte, UInt32.toBitVec_shiftRight, lowBytes, lookups,
    (hshift c.toBitVec).1, (hshift c.toBitVec).2.1, (hshift c.toBitVec).2.2]
  rw [BitVec.xor_assoc, BitVec.xor_assoc]
  exact congrArg _ (congrArg _ (congrArg _ BitVec.xor_zero.symm))

theorem low_half (block : UInt64) : (block &&& 0xFFFFFFFF).toUInt32 = block.toUInt32 := by
  apply UInt32.toNat_inj.mp
  have hmask : (block &&& 0xFFFFFFFF).toNat = block.toNat % 2 ^ 32 := by
    rw [UInt64.toNat_and]
    exact Nat.and_two_pow_sub_one_eq_mod _ 32
  rw [UInt64.toNat_toUInt32, UInt64.toNat_toUInt32, hmask, Nat.mod_mod]

/-- The halves of a block are the words of its first and its last four bytes. -/
theorem loadBlock_halves (b0 b1 b2 b3 b4 b5 b6 b7 : UInt8) :
    (loadBlock b0 b1 b2 b3 b4 b5 b6 b7).toUInt32.toBitVec = word 32 (bits [b0, b1, b2, b3]) ∧
    (loadBlock b0 b1 b2 b3 b4 b5 b6 b7 >>> 32).toUInt32.toBitVec = word 32 (bits [b4, b5, b6, b7]) := by
  have hbyte : ∀ (byte : UInt8) (i : Nat), 8 ≤ i → byte.toBitVec.getLsbD i = false :=
    fun byte i hi => BitVec.getLsbD_of_ge _ i hi
  constructor
  · apply BitVec.eq_of_getLsbD_eq
    intro i hi
    simp [loadBlock, bits, word]
    grind
  · apply BitVec.eq_of_getLsbD_eq
    intro i hi
    simp [loadBlock, bits, word]
    grind

/-- Eight table lookups do what eight byte updates do. -/
theorem crcBlock_eq (crc : UInt32) (b0 b1 b2 b3 b4 b5 b6 b7 : UInt8) :
    crcBlock crc (loadBlock b0 b1 b2 b3 b4 b5 b6 b7) =
      [b0, b1, b2, b3, b4, b5, b6, b7].foldl byteUpdate crc := by
  obtain ⟨hlow, hhigh⟩ := loadBlock_halves b0 b1 b2 b3 b4 b5 b6 b7
  generalize loadBlock b0 b1 b2 b3 b4 b5 b6 b7 = block at hlow hhigh
  have hrun : run polynomial crc.toBitVec (bits [b0, b1, b2, b3, b4, b5, b6, b7]) =
      (shift polynomial)^[64] (crc.toBitVec ^^^ word 32 (bits [b0, b1, b2, b3])) ^^^
        (shift polynomial)^[32] (word 32 (bits [b4, b5, b6, b7])) := by
    have hsplit : bits [b0, b1, b2, b3, b4, b5, b6, b7] = bits [b0, b1, b2, b3] ++ bits [b4, b5, b6, b7] := rfl
    rw [hsplit, run_append, run_word polynomial _ (by simp [bits]), run_word polynomial _ (by simp [bits]),
      shifts_xor, ← Function.iterate_add_apply]
    rfl
  have hsum : crc.toBitVec ^^^ block.toUInt32.toBitVec = (crc ^^^ block.toUInt32).toBitVec := rfl
  apply UInt32.toBitVec_inj.mp
  rw [foldl_byteUpdate, hrun, ← hlow, ← hhigh, hsum]
  have hfirst := lookups_four 4 (crc ^^^ block.toUInt32)
  have hlast := lookups_four 0 (block >>> 32).toUInt32
  simp only [Nat.reduceAdd, Nat.reduceMul, Nat.zero_add] at hfirst hlast
  rw [← hfirst, ← hlast]
  unfold crcBlock
  rw [low_half]
  simp only [UInt32.toBitVec_xor, BitVec.xor_assoc]

theorem crcLoop_eq (crc : UInt32) (bytes : Bytes) : crcLoop crc bytes = bytes.foldl byteUpdate crc := by
  induction crc, bytes using crcLoop.induct with
  | case1 crc b0 b1 b2 b3 b4 b5 b6 b7 rest ih =>
    rw [crcLoop, ih, crcBlock_eq]
    simp only [List.foldl_cons, List.foldl_nil]
  | case2 crc byte rest hshort ih => rw [crcLoop, ih, crcByte_eq, List.foldl_cons]; exact hshort
  | case3 crc => rw [crcLoop, List.foldl_nil]

section

variable (mmCrc32U8 : UInt32 → UInt8 → UInt32) (mmCrc32U64 : UInt64 → UInt64 → UInt64)

/-- The loop of `crc32c_sse42` over whole blocks, and the bytes that it leaves over. -/
def sseBlocks : UInt64 → Bytes → UInt64 × Bytes
  | crc, b0 :: b1 :: b2 :: b3 :: b4 :: b5 :: b6 :: b7 :: rest =>
    sseBlocks (mmCrc32U64 crc (loadBlock b0 b1 b2 b3 b4 b5 b6 b7)) rest
  | crc, rest => (crc, rest)

def crc32cSse42 (bytes : Bytes) : UInt32 :=
  let (crc, rest) := sseBlocks mmCrc32U64 0xFFFFFFFF bytes
  ~~~ rest.foldl mmCrc32U8 crc.toUInt32

/-- The instructions update the register by one byte, and by the eight bytes of a block in memory order. -/
structure CrcIntrinsics : Prop where
  byte : ∀ crc byte, mmCrc32U8 crc byte = byteUpdate crc byte
  block : ∀ crc b0 b1 b2 b3 b4 b5 b6 b7, mmCrc32U64 crc (loadBlock b0 b1 b2 b3 b4 b5 b6 b7) =
    ([b0, b1, b2, b3, b4, b5, b6, b7].foldl byteUpdate crc.toUInt32).toUInt64

variable {mmCrc32U8} {mmCrc32U64}

theorem sse_eq (h : CrcIntrinsics mmCrc32U8 mmCrc32U64) (crc : UInt64) (bytes : Bytes) :
    (sseBlocks mmCrc32U64 crc bytes).2.foldl mmCrc32U8 (sseBlocks mmCrc32U64 crc bytes).1.toUInt32 =
      bytes.foldl byteUpdate crc.toUInt32 := by
  have hbyte : mmCrc32U8 = byteUpdate := funext fun crc => funext fun byte => h.byte crc byte
  induction crc, bytes using sseBlocks.induct mmCrc32U64 with
  | case1 crc b0 b1 b2 b3 b4 b5 b6 b7 rest ih =>
    rw [sseBlocks, ih, h.block, UInt32.toUInt32_toUInt64]
    simp only [List.foldl_cons, List.foldl_nil]
  | case2 crc rest hshort => rw [sseBlocks, hbyte]; exact hshort

end

/-- The slicing-by-8 loops compute CRC-32C, and so does the path of the CPU's own instructions. -/
theorem crc32c_eq_bitwise (bytes : Bytes) : crc32c bytes = crc32cBitwise bytes ∧
    ∀ mmCrc32U8 mmCrc32U64, CrcIntrinsics mmCrc32U8 mmCrc32U64 →
      crc32cSse42 mmCrc32U8 mmCrc32U64 bytes = crc32cBitwise bytes := by
  constructor
  · rw [crc32c, crcLoop_eq, crc32cBitwise]
  · intro mmCrc32U8 mmCrc32U64 h
    exact congrArg (~~~ ·) (sse_eq h 0xFFFFFFFF bytes)

/-- The bytes of a block in memory order. -/
def blockBytes (block : UInt64) : Bytes :=
  [block.toUInt8, (block >>> 8).toUInt8, (block >>> 16).toUInt8, (block >>> 24).toUInt8,
    (block >>> 32).toUInt8, (block >>> 40).toUInt8, (block >>> 48).toUInt8, (block >>> 56).toUInt8]

theorem blockBytes_loadBlock (b0 b1 b2 b3 b4 b5 b6 b7 : UInt8) :
    blockBytes (loadBlock b0 b1 b2 b3 b4 b5 b6 b7) = [b0, b1, b2, b3, b4, b5, b6, b7] := by
  have hbyte : ∀ (byte : UInt8) (i : Nat), 8 ≤ i → byte.toBitVec.getLsbD i = false :=
    fun byte i hi => BitVec.getLsbD_of_ge _ i hi
  have heq : ∀ byte byte' : UInt8, (∀ i < 8, byte.toBitVec.getLsbD i = byte'.toBitVec.getLsbD i) → byte = byte' :=
    fun byte byte' h => UInt8.toBitVec_inj.mp (BitVec.eq_of_getLsbD_eq h)
  simp only [blockBytes, List.cons.injEq, and_true]
  refine ⟨?_, ?_, ?_, ?_, ?_, ?_, ?_, ?_⟩ <;> refine heq _ _ fun i hi => ?_ <;> simp [loadBlock] <;> grind

theorem crc32c_eq_bitwise_check :
    crc32c [0x31, 0x32, 0x33, 0x34, 0x35, 0x36, 0x37, 0x38, 0x39] =
      crc32cBitwise [0x31, 0x32, 0x33, 0x34, 0x35, 0x36, 0x37, 0x38, 0x39] ∧
    crc32cSse42 byteUpdate (fun crc block => ((blockBytes block).foldl byteUpdate crc.toUInt32).toUInt64)
        [0x31, 0x32, 0x33, 0x34, 0x35, 0x36, 0x37, 0x38, 0x39] =
      crc32cBitwise [0x31, 0x32, 0x33, 0x34, 0x35, 0x36, 0x37, 0x38, 0x39] := by
  refine ⟨(crc32c_eq_bitwise _).1, (crc32c_eq_bitwise _).2 _ _ ⟨fun _ _ => rfl, ?_⟩⟩
  intro crc b0 b1 b2 b3 b4 b5 b6 b7
  rw [blockBytes_loadBlock]

end LatticeGateway
