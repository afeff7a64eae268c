import LatticeGateway.Uleb128

namespace LatticeGateway

/-- The byte says that another one follows. -/
def Continues (byte : UInt8) : Prop := byte &&& 0x80 ≠ 0

def FailsWith {α : Type*} (answer : Except Error α) (code : ErrorCode) : Prop :=
  ∃ error, answer = .error error ∧ error.code = code

/-- Fewer than five bytes are left, and each of them continues. -/
def BreaksOff (left : Bytes) : Prop := left.length < 5 ∧ ∀ byte ∈ left, Continues byte

/-- Five bytes that continue follow. -/
def RunsOn (left : Bytes) : Prop := 5 ≤ left.length ∧ ∀ byte ∈ left.take 5, Continues byte

/-- How `decode_uleb128` answers at an offset, by the bytes that are left there. -/
structure DecodesMinimal (bytes : Bytes) (offset : Nat) : Prop where
  value : ∀ v n, decodeUleb128 bytes offset = .ok (v, n) ↔
    offset + n ≤ bytes.length ∧ encodeUleb128 v = .ok ((bytes.drop offset).take n)
  needMoreData : FailsWith (decodeUleb128 bytes offset) .needMoreData ↔ BreaksOff (bytes.drop offset)
  varintTooLong : FailsWith (decodeUleb128 bytes offset) .varintTooLong ↔ RunsOn (bytes.drop offset)
  varintNonCanonical : FailsWith (decodeUleb128 bytes offset) .varintNonCanonical ↔
    (¬ ∃ v n, offset + n ≤ bytes.length ∧ encodeUleb128 v = .ok ((bytes.drop offset).take n)) ∧
      ¬ BreaksOff (bytes.drop offset) ∧ ¬ RunsOn (bytes.drop offset)

theorem failsWith_error {α : Type*} {answer : Except Error α} {error : Error} (h : answer = .error error)
    (code : ErrorCode) : FailsWith answer code ↔ error.code = code := by
  subst h
  constructor
  · rintro ⟨other, ⟨⟩, hcode⟩
    exact hcode
  · exact fun hcode => ⟨error, rfl, hcode⟩

theorem not_failsWith_ok {α : Type*} {answer : Except Error α} {read : α} (h : answer = .ok read)
    (code : ErrorCode) : ¬ FailsWith answer code := by
  rintro ⟨error, herror, _⟩
  rw [h] at herror
  cases herror

theorem decodeUleb128_eq_ok_iff {bytes : Bytes} {offset n : Nat} {v : UInt32} :
    decodeUleb128 bytes offset = .ok (v, n) ↔
      offset + n ≤ bytes.length ∧ encodeUleb128 v = .ok ((bytes.drop offset).take n) := by
  rw [encodeUleb128_eq]
  constructor
  · intro h
    obtain ⟨hfits, hminimal⟩ := decodeUleb128_sound h
    exact ⟨hfits, congrArg _ ((encodeUleb128Loop_minimal v).unique hminimal)⟩
  · rintro ⟨hfits, hform⟩
    have hminimal := encodeUleb128Loop_minimal v
    rw [Except.ok.inj hform] at hminimal
    have hdecode := decodeUleb128_complete hminimal (bytes.take offset) ((bytes.drop offset).drop n)
    rw [List.take_append_drop, List.take_append_drop, List.length_take, List.length_take,
      List.length_drop, Nat.min_eq_left (by omega), Nat.min_eq_left (by omega)] at hdecode
    exact hdecode

/-- From its `i`th byte on the loop runs out of bytes or of rounds behind bytes that all continue, or a
byte that does not continue ends it. -/
theorem decodeUleb128Loop_cases {bytes : Bytes} {offset i remaining : Nat} {value shift : UInt32}
    (hi : i + remaining = kMaxVarintBytes) :
    ((bytes.drop (offset + i)).length < remaining ∧
        (∀ byte ∈ bytes.drop (offset + i), Continues byte) ∧
        ∃ error, decodeUleb128Loop bytes offset remaining value shift = .error error ∧
          error.code = .needMoreData) ∨
      (remaining ≤ (bytes.drop (offset + i)).length ∧
        (∀ byte ∈ (bytes.drop (offset + i)).take remaining, Continues byte) ∧
        ∃ error, decodeUleb128Loop bytes offset remaining value shift = .error error ∧
          error.code = .varintTooLong) ∨
      ((∃ byte ∈ (bytes.drop (offset + i)).take remaining, ¬ Continues byte) ∧
        ((∃ read, decodeUleb128Loop bytes offset remaining value shift = .ok read) ∨
          ∃ error, decodeUleb128Loop bytes offset remaining value shift = .error error ∧
            error.code = .varintNonCanonical)) := by
  induction remaining generalizing i value shift with
  | zero => exact .inr (.inl ⟨Nat.zero_le _, by simp, _, rfl, rfl⟩)
  | succ remaining ih =>
    have hindex : kMaxVarintBytes - (remaining + 1) = i := by omega
    simp only [decodeUleb128Loop, hindex]
    by_cases hout : offset + i ≥ bytes.length
    · rw [if_pos hout, List.drop_eq_nil_of_le hout]
      exact .inl ⟨Nat.succ_pos _, List.forall_mem_nil _, _, rfl, rfl⟩
    · rw [if_neg hout, drop_eq_byteAt_cons (by omega), List.take_succ_cons, List.length_cons,
        List.forall_mem_cons, List.forall_mem_cons]
      by_cases hlast : byteAt bytes (offset + i) &&& 0x80 = 0
      · rw [if_pos hlast]
        refine .inr (.inr ⟨⟨_, List.mem_cons_self, fun hcontinues => hcontinues hlast⟩, ?_⟩)
        split
        next => exact .inr ⟨_, rfl, rfl⟩
        next => exact .inl ⟨_, rfl⟩
      · rw [if_neg hlast]
        rcases @ih (i + 1) _ (shift + 7) (by omega) with
          ⟨hshort, hall, herror⟩ | ⟨hlong, hall, herror⟩ | ⟨⟨byte, hmem, hends⟩, hread⟩
        · exact .inl ⟨Nat.succ_lt_succ hshort, ⟨hlast, hall⟩, herror⟩
        · exact .inr (.inl ⟨Nat.succ_le_succ hlong, ⟨hlast, hall⟩, herror⟩)
        · exact .inr (.inr ⟨⟨byte, List.mem_cons_of_mem _ hmem, hends⟩, hread⟩)

theorem decodeUleb128_cases (bytes : Bytes) (offset : Nat) :
    (BreaksOff (bytes.drop offset) ∧
        ∃ error, decodeUleb128 bytes offset = .error error ∧ error.code = .needMoreData) ∨
      (RunsOn (bytes.drop offset) ∧
        ∃ error, decodeUleb128 bytes offset = .error error ∧ error.code = .varintTooLong) ∨
      (¬ BreaksOff (bytes.drop offset) ∧ ¬ RunsOn (bytes.drop offset) ∧
        ((∃ read, decodeUleb128 bytes offset = .ok read) ∨
          ∃ error, decodeUleb128 bytes offset = .error error ∧ error.code = .varintNonCanonical)) := by
  rcases @decodeUleb128Loop_cases bytes offset 0 kMaxVarintBytes 0 0 rfl with
    ⟨hshort, hall, herror⟩ | ⟨hlong, hall, herror⟩ | ⟨⟨byte, hmem, hends⟩, hread⟩
  · exact .inl ⟨⟨hshort, hall⟩, herror⟩
  · exact .inr (.inl ⟨⟨hlong, hall⟩, herror⟩)
  · refine .inr (.inr ⟨fun h => hends (h.2 byte (List.mem_of_mem_take hmem)),
      fun h => hends (h.2 byte hmem), hread⟩)

theorem not_runsOn_of_breaksOff {left : Bytes} (h : BreaksOff left) : ¬ RunsOn left :=
  fun hlong => absurd hlong.1 (Nat.not_le.mpr h.1)

theorem exists_encoding_iff {bytes : Bytes} {offset : Nat} :
    (∃ v n, offset + n ≤ bytes.length ∧ encodeUleb128 v = .ok ((bytes.drop offset).take n)) ↔
      ∃ read, decodeUleb128 bytes offset = .ok read := by
  constructor
  · rintro ⟨v, n, hform⟩
    exact ⟨(v, n), decodeUleb128_eq_ok_iff.mpr hform⟩
  · rintro ⟨⟨v, n⟩, hread⟩
    exact ⟨v, n, decodeUleb128_eq_ok_iff.mp hread⟩

theorem decodesMinimal (bytes : Bytes) (offset : Nat) : DecodesMinimal bytes offset := by
  rcases decodeUleb128_cases bytes offset with
    ⟨hbreaks, error, herror, hcode⟩ | ⟨hruns, error, herror, hcode⟩ |
      ⟨hbreaks, hruns, ⟨read, hread⟩ | ⟨error, herror, hcode⟩⟩
  · have hruns := not_runsOn_of_breaksOff hbreaks
    have hcodes := failsWith_error herror
    rw [hcode] at hcodes
    exact ⟨fun v n => decodeUleb128_eq_ok_iff, by simp [hcodes, hbreaks], by simp [hcodes, hruns],
      by simp [hcodes, hbreaks]⟩
  · have hbreaks : ¬ BreaksOff (bytes.drop offset) := fun h => not_runsOn_of_breaksOff h hruns
    have hcodes := failsWith_error herror
    rw [hcode] at hcodes
    exact ⟨fun v n => decodeUleb128_eq_ok_iff, by simp [hcodes, hbreaks], by simp [hcodes, hruns],
      by simp [hcodes, hruns]⟩
  · have hcodes := not_failsWith_ok hread
    have hform := exists_encoding_iff.mpr ⟨read, hread⟩
    exact ⟨fun v n => decodeUleb128_eq_ok_iff, by simp [hcodes, hbreaks], by simp [hcodes, hruns],
      ⟨fun h => (hcodes _ h).elim, fun h => (h.1 hform).elim⟩⟩
  · have hcodes := failsWith_error herror
    rw [hcode] at hcodes
    have hform : ¬ ∃ v n, offset + n ≤ bytes.length ∧
        encodeUleb128 v = .ok ((bytes.drop offset).take n) := by
      rw [exists_encoding_iff, herror]
      exact nofun
    exact ⟨fun v n => decodeUleb128_eq_ok_iff, by simp [hcodes, hbreaks], by simp [hcodes, hruns],
      ⟨fun _ => ⟨hform, hbreaks, hruns⟩, fun _ => (hcodes _).mpr rfl⟩⟩

/-- `decode_uleb128` reads exactly what `encode_uleb128` writes, which it does for every value. -/
theorem uleb128_minimal (bytes : Bytes) (offset : Nat) :
    DecodesMinimal bytes offset ∧ ∀ v, ∃ out, encodeUleb128 v = .ok out :=
  ⟨decodesMinimal bytes offset, fun v => ⟨_, encodeUleb128_eq v⟩⟩

/-- The greatest value fills the low half of its fifth byte. -/
example : decodeUleb128 [0xFF, 0xFF, 0xFF, 0xFF, 0x0F] 0 = .ok (0xFFFFFFFF, 5) := by decide

end LatticeGateway
