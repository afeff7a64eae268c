import LatticeGateway.ReplaySnapshot
import Mathlib.Data.List.TakeWhile

namespace LatticeGateway

/-- A byte that is neither a newline nor a bar, as all bytes of numbers and of hex strings are. -/
def Unreserved (byte : UInt8) : Prop := byte ≠ kNewline ∧ byte ≠ kBar

def IsDigit (ch : UInt8) : Prop := 48 ≤ ch.toNat ∧ ch.toNat ≤ 57

theorem IsDigit.unreserved {ch : UInt8} (h : IsDigit ch) : Unreserved ch := by
  obtain ⟨h1, h2⟩ := h
  constructor
  · rintro rfl
    exact absurd h1 (by decide)
  · rintro rfl
    exact absurd h2 (by decide)

/-- The number that decimal digits spell behind the digits of `value`. -/
def decimalValue (value : Nat) (text : Bytes) : Nat :=
  text.foldl (fun value ch => value * 10 + (ch.toNat - 48)) value

theorem le_decimalValue (value : Nat) (text : Bytes) : value ≤ decimalValue value text := by
  induction text generalizing value with
  | nil => exact Nat.le_refl _
  | cons ch text ih =>
    have := ih (value * 10 + (ch.toNat - 48))
    rw [decimalValue, List.foldl_cons, ← decimalValue]
    omega

/-- The digits that `decimalLoop` puts in front spell the number. -/
theorem decimalLoop_spec {fuel n : Nat} (h : n < fuel) (out : Bytes) :
    ∃ digits, decimalLoop fuel n out = digits ++ out ∧ digits ≠ [] ∧ (∀ ch ∈ digits, IsDigit ch) ∧
      decimalValue 0 digits = n := by
  induction fuel generalizing n out with
  | zero => omega
  | succ fuel ih =>
    have hmod : n % 10 < 10 := Nat.mod_lt _ (by omega)
    have hch : (UInt8.ofNat (48 + n % 10)).toNat = 48 + n % 10 := by
      rw [UInt8.toNat_ofNat']
      omega
    have hdigit : IsDigit (UInt8.ofNat (48 + n % 10)) := by
      unfold IsDigit
      omega
    simp only [decimalLoop]
    split
    next hzero =>
      refine ⟨[UInt8.ofNat (48 + n % 10)], rfl, by simp, by simpa using hdigit, ?_⟩
      simp only [decimalValue, List.foldl_cons, List.foldl_nil, hch]
      omega
    next hmore =>
      have hlt : n / 10 < fuel := by omega
      obtain ⟨digits, hout, hne, hdigits, hvalue⟩ := ih hlt (UInt8.ofNat (48 + n % 10) :: out)
      refine ⟨digits ++ [UInt8.ofNat (48 + n % 10)], ?_, by simp, ?_, ?_⟩
      · rw [hout, List.append_assoc]
        rfl
      · intro ch hmem
        rcases List.mem_append.mp hmem with hmem | hmem
        · exact hdigits ch hmem
        · rw [List.mem_singleton.mp hmem]
          exact hdigit
      · unfold decimalValue at hvalue ⊢
        rw [List.foldl_append, hvalue]
        simp only [List.foldl_cons, List.foldl_nil, hch]
        omega

theorem decimal_spec (n : Nat) :
    decimal n ≠ [] ∧ (∀ ch ∈ decimal n, IsDigit ch) ∧ decimalValue 0 (decimal n) = n := by
  obtain ⟨digits, hout, hne, hdigits, hvalue⟩ := decimalLoop_spec (Nat.lt_succ_self n) []
  rw [List.append_nil] at hout
  rw [decimal, hout]
  exact ⟨hne, hdigits, hvalue⟩

theorem parseU64Loop_digits {text : Bytes} {value : UInt64} (hdigits : ∀ ch ∈ text, IsDigit ch)
    (hfits : decimalValue value.toNat text < 2 ^ 64) :
    parseU64Loop text value = .ok (UInt64.ofNat (decimalValue value.toNat text)) := by
  induction text generalizing value with
  | nil => simp [parseU64Loop, decimalValue]
  | cons ch text ih =>
    have hch := hdigits ch (by simp)
    unfold IsDigit at hch
    have hstep : decimalValue value.toNat (ch :: text) =
        decimalValue (value.toNat * 10 + (ch.toNat - 48)) text := rfl
    have hle := le_decimalValue (value.toNat * 10 + (ch.toNat - 48)) text
    rw [hstep] at hfits ⊢
    have hrange : ¬ (ch < 48 ∨ ch > 57) := by
      rw [gt_iff_lt, UInt8.lt_iff_toNat_lt, UInt8.lt_iff_toNat_lt]
      simp only [UInt8.reduceToNat]
      omega
    have hdigit : (ch - 48).toUInt64.toNat = ch.toNat - 48 := by
      have hle : (48 : UInt8) ≤ ch := UInt8.le_iff_toNat_le.mpr hch.1
      rw [UInt8.toNat_toUInt64, UInt8.toNat_sub_of_le _ _ hle]
      rfl
    have hroom : ¬ value > (0xFFFFFFFFFFFFFFFF - (ch - 48).toUInt64) / 10 := by
      rw [gt_iff_lt, UInt64.lt_iff_toNat_lt, UInt64.toNat_div, UInt64.toNat_sub_of_le, hdigit]
      · simp only [UInt64.reduceToNat]
        omega
      · rw [UInt64.le_iff_toNat_le, hdigit]
        simp only [UInt64.reduceToNat]
        omega
    have hnext : (value * 10 + (ch - 48).toUInt64).toNat = value.toNat * 10 + (ch.toNat - 48) := by
      rw [UInt64.toNat_add, UInt64.toNat_mul, hdigit]
      simp only [UInt64.reduceToNat]
      omega
    simp only [parseU64Loop]
    rw [if_neg hrange, if_neg hroom, ih (fun ch hmem => hdigits ch (List.mem_cons_of_mem _ hmem)), hnext]
    rwa [hnext]

theorem parseU64_decimal {n : Nat} (h : n < 2 ^ 64) : parseU64 (decimal n) = .ok (UInt64.ofNat n) := by
  obtain ⟨hne, hdigits, hvalue⟩ := decimal_spec n
  rw [parseU64, if_neg hne, parseU64Loop_digits hdigits]
  · rw [UInt64.toNat_zero, hvalue]
  · rw [UInt64.toNat_zero, hvalue]
    exact h

theorem hexByte_spec (byte : UInt8) :
    ∃ high low, nibble? (hexDigit (byte >>> 4)) = some high ∧
      nibble? (hexDigit (byte &&& 0xF)) = some low ∧ (high <<< 4 ||| low) = byte ∧
      Unreserved (hexDigit (byte >>> 4)) ∧ Unreserved (hexDigit (byte &&& 0xF)) := by
  have key : ∀ n : Fin 256, nibble? (hexDigit (UInt8.ofNat n >>> 4)) = some (UInt8.ofNat n >>> 4) ∧
      nibble? (hexDigit (UInt8.ofNat n &&& 0xF)) = some (UInt8.ofNat n &&& 0xF) ∧
      ((UInt8.ofNat n >>> 4) <<< 4 ||| (UInt8.ofNat n &&& 0xF)) = UInt8.ofNat n ∧
      (hexDigit (UInt8.ofNat n >>> 4) ≠ kNewline ∧ hexDigit (UInt8.ofNat n >>> 4) ≠ kBar) ∧
      (hexDigit (UInt8.ofNat n &&& 0xF) ≠ kNewline ∧ hexDigit (UInt8.ofNat n &&& 0xF) ≠ kBar) := by
    decide +kernel
  have hbyte := key ⟨byte.toNat, byte.toNat_lt⟩
  rw [UInt8.ofNat_toNat] at hbyte
  exact ⟨_, _, hbyte⟩

theorem hex_unreserved (bytes : Bytes) : ∀ ch ∈ hex bytes, Unreserved ch := by
  intro ch hch
  obtain ⟨byte, _, hmem⟩ := List.mem_flatMap.mp hch
  obtain ⟨_, _, _, _, _, hhigh, hlow⟩ := hexByte_spec byte
  simp only [hexByte, List.mem_cons, List.not_mem_nil, or_false] at hmem
  rcases hmem with rfl | rfl
  · exact hhigh
  · exact hlow

theorem hex_cons (byte : UInt8) (bytes : Bytes) :
    hex (byte :: bytes) = hexDigit (byte >>> 4) :: hexDigit (byte &&& 0xF) :: hex bytes := rfl

theorem parseHexLoop_hex (bytes : Bytes) : parseHexLoop (hex bytes) = .ok bytes := by
  induction bytes with
  | nil => rfl
  | cons byte bytes ih =>
    obtain ⟨high, low, hhigh, hlow, hbyte, _⟩ := hexByte_spec byte
    rw [hex_cons, parseHexLoop, hhigh, hlow, ih]
    dsimp only
    rw [hbyte]

theorem length_hex (bytes : Bytes) : (hex bytes).length = 2 * bytes.length := by
  induction bytes with
  | nil => rfl
  | cons byte bytes ih =>
    rw [hex_cons, List.length_cons, List.length_cons, ih, List.length_cons]
    omega

theorem parseHex_hex (bytes : Bytes) : parseHex (hex bytes) = .ok bytes := by
  rw [parseHex, length_hex, if_neg (by omega), parseHexLoop_hex]

/-- A line is read back with its newline taken off. -/
theorem lines_cons {line : Bytes} (hline : ∀ ch ∈ line, ch ≠ kNewline) (rest : Bytes) :
    lines (line ++ kNewline :: rest) = line :: lines rest := by
  have hsplit : (line ++ kNewline :: rest).splitOn kNewline = line :: rest.splitOn kNewline := by
    apply List.splitOnP_append_cons_of_forall_mem
    · intro ch hch
      simpa using hline ch hch
    · simp
  have hne : rest.splitOn kNewline ≠ [] := List.splitOnP_ne_nil _ _
  obtain ⟨first, parts, hparts⟩ := List.exists_cons_of_ne_nil hne
  unfold lines
  dsimp only
  rw [hsplit, hparts, List.getLast?_cons_cons, List.dropLast_cons_cons]
  split <;> rfl

theorem lines_nil : lines [] = [] := rfl

theorem lines_joined {parts : List Bytes} (h : ∀ line ∈ parts, ∀ ch ∈ line, ch ≠ kNewline) :
    lines (parts.flatMap (· ++ [kNewline])) = parts := by
  induction parts with
  | nil => exact lines_nil
  | cons line parts ih =>
    obtain ⟨hline, hrest⟩ := List.forall_mem_cons.mp h
    rw [List.flatMap_cons, List.append_assoc, List.singleton_append, lines_cons hline, ih hrest]

theorem splitBar_append {text : Bytes} (h : ∀ ch ∈ text, ch ≠ kBar) (rest : Bytes) :
    splitBar (text ++ kBar :: rest) = some (text, rest) := by
  have hall : ∀ ch ∈ text, decide (ch ≠ kBar) = true := by simpa using h
  unfold splitBar
  rw [List.dropWhile_append_of_pos hall, List.takeWhile_append_of_pos hall]
  simp

end LatticeGateway
