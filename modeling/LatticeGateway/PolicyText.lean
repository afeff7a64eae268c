import LatticeGateway.RoutePolicy
import LatticeGateway.TraceRoundTrip

namespace LatticeGateway

/-- A byte of keys, numbers and hex strings: none that the reader of a policy looks for. -/
def PlainByte (ch : UInt8) : Prop :=
  isSpace ch = false ∧ ch ≠ kHash ∧ ch ≠ kQuote ∧ ch ≠ kColon ∧ ch ≠ kEquals

instance (ch : UInt8) : Decidable (PlainByte ch) := inferInstanceAs (Decidable (_ ∧ _))

def PlainText (text : Bytes) : Prop := ∀ ch ∈ text, PlainByte ch

instance (text : Bytes) : Decidable (PlainText text) := List.decidableBAll PlainByte text

theorem digit_plain {ch : UInt8} (h : IsDigit ch) : PlainByte ch := by
  have key : ∀ n : Fin 256, 48 ≤ n.val ∧ n.val ≤ 57 → PlainByte (UInt8.ofNat n) := by decide +kernel
  have hch := key ⟨ch.toNat, ch.toNat_lt⟩ h
  rwa [UInt8.ofNat_toNat] at hch

theorem decimal_plain (n : Nat) : PlainText (decimal n) := fun ch hch => digit_plain ((decimal_spec n).2.1 ch hch)

theorem hexByte_plain (byte : UInt8) :
    PlainByte (hexDigit (byte >>> 4)) ∧ PlainByte (hexDigit (byte &&& 0xF)) := by
  have key : ∀ n : Fin 256, PlainByte (hexDigit (UInt8.ofNat n >>> 4)) ∧
      PlainByte (hexDigit (UInt8.ofNat n &&& 0xF)) := by decide +kernel
  have hbyte := key ⟨byte.toNat, byte.toNat_lt⟩
  rwa [UInt8.ofNat_toNat] at hbyte

theorem hex_plain (bytes : Bytes) : PlainText (hex bytes) := by
  intro ch hch
  obtain ⟨byte, _, hmem⟩ := List.mem_flatMap.mp hch
  simp only [hexByte, List.mem_cons, List.not_mem_nil, or_false] at hmem
  rcases hmem with rfl | rfl
  · exact (hexByte_plain byte).1
  · exact (hexByte_plain byte).2

/-- Neither the first nor the last byte is a space. -/
structure Trimmed (text : Bytes) : Prop where
  first : ∀ ch ∈ text.head?, isSpace ch = false
  last : ∀ ch ∈ text.getLast?, isSpace ch = false

theorem PlainText.trimmed {text : Bytes} (h : PlainText text) : Trimmed text :=
  ⟨fun ch hch => (h ch (List.mem_of_head? hch)).1, fun ch hch => (h ch (List.mem_of_getLast? hch)).1⟩

theorem trim_of_trimmed {text : Bytes} (h : Trimmed text) : trim text = text := by
  have hfirst : text.dropWhile isSpace = text := by
    cases text with
    | nil => rfl
    | cons ch text => exact List.dropWhile_cons_of_neg (by simp [h.first ch rfl])
  unfold trim
  rw [hfirst, List.rdropWhile_eq_self_iff]
  intro hne
  simp [h.last _ (List.getLast?_eq_getLast_of_ne_nil hne)]

theorem mem_of_mem_trim {text : Bytes} {ch : UInt8} (h : ch ∈ trim text) : ch ∈ text :=
  (List.dropWhile_suffix isSpace).subset ((List.rdropWhile_prefix isSpace _).subset h)

theorem mem_of_mem_unquote {text : Bytes} {ch : UInt8} (h : ch ∈ unquote text) : ch ∈ text := by
  unfold unquote at h
  dsimp only at h
  split at h
  next => exact mem_of_mem_trim (List.mem_of_mem_drop (List.mem_of_mem_take h))
  next => exact mem_of_mem_trim h

theorem unquote_plain {text : Bytes} (h : PlainText text) : unquote text = text := by
  unfold unquote
  rw [trim_of_trimmed h.trimmed]
  dsimp only
  rw [if_neg]
  rintro ⟨_, hfirst, _⟩
  exact (h kQuote (List.mem_of_head? hfirst)).2.2.1 rfl

theorem quoted_trimmed (text : Bytes) : Trimmed (kQuote :: (text ++ [kQuote])) := by
  refine ⟨fun ch hch => ?_, fun ch hch => ?_⟩
  · obtain rfl : kQuote = ch := by simpa using hch
    rfl
  · rw [← List.cons_append, List.getLast?_concat] at hch
    obtain rfl : kQuote = ch := by simpa using hch
    rfl

theorem unquote_quoted (text : Bytes) : unquote (kQuote :: (text ++ [kQuote])) = text := by
  have hlast : (kQuote :: (text ++ [kQuote])).getLast? = some kQuote := by
    rw [← List.cons_append, List.getLast?_concat]
  unfold unquote
  rw [trim_of_trimmed (quoted_trimmed text)]
  dsimp only
  rw [if_pos ⟨by simp, rfl, hlast⟩]
  simp

theorem splitFirst_append {separator : UInt8} {text : Bytes} (h : ∀ ch ∈ text, ch ≠ separator) (rest : Bytes) :
    splitFirst separator (text ++ separator :: rest) = some (text, rest) := by
  have hall : ∀ ch ∈ text, decide (ch ≠ separator) = true := by simpa using h
  unfold splitFirst
  rw [List.dropWhile_append_of_pos hall, List.takeWhile_append_of_pos hall]
  simp

theorem mem_of_mem_splitFirst {separator : UInt8} {text before behind : Bytes}
    (h : splitFirst separator text = some (before, behind)) {ch : UInt8} (hch : ch ∈ behind) : ch ∈ text := by
  unfold splitFirst at h
  split at h
  next => cases h
  next first rest hrest =>
    cases h
    have hsub : ch ∈ text.dropWhile (· ≠ separator) := by
      rw [hrest]
      exact List.mem_cons_of_mem _ hch
    exact (List.dropWhile_suffix _).subset hsub

theorem parseU32Loop_digits {line : Nat} {text : Bytes} {value : Nat} (hdigits : ∀ ch ∈ text, IsDigit ch)
    (hfits : decimalValue value text < 2 ^ 32) :
    parseU32Loop line text value = .ok (UInt32.ofNat (decimalValue value text)) := by
  induction text generalizing value with
  | nil => rfl
  | cons ch text ih =>
    have hch := hdigits ch (by simp)
    unfold IsDigit at hch
    have hstep : decimalValue value (ch :: text) = decimalValue (value * 10 + (ch.toNat - 48)) text := rfl
    have hle := le_decimalValue (value * 10 + (ch.toNat - 48)) text
    rw [hstep] at hfits ⊢
    have hrange : ¬ (ch < 48 ∨ ch > 57) := by
      rw [gt_iff_lt, UInt8.lt_iff_toNat_lt, UInt8.lt_iff_toNat_lt]
      simp only [UInt8.reduceToNat]
      omega
    have hdigit : (ch - 48).toNat = ch.toNat - 48 :=
      UInt8.toNat_sub_of_le _ _ (UInt8.le_iff_toNat_le.mpr hch.1)
    unfold parseU32Loop
    rw [if_neg hrange, hdigit]
    dsimp only
    rw [if_neg (by omega), ih (fun ch hmem => hdigits ch (List.mem_cons_of_mem _ hmem)) hfits]

theorem parseU32Text_decimal (line : Nat) (n : UInt32) : parseU32Text (decimal n.toNat) line = .ok n := by
  obtain ⟨hne, hdigits, hvalue⟩ := decimal_spec n.toNat
  have hfits : decimalValue 0 (decimal n.toNat) < 2 ^ 32 := by
    rw [hvalue]
    exact n.toNat_lt
  rw [parseU32Text, if_neg hne, parseU32Loop_digits hdigits hfits, hvalue, UInt32.ofNat_toNat]

theorem str_trimmed (id : ChannelId) : Trimmed id.str ∧ kHash ∉ id.str ∧ kQuote ∉ id.str := by
  have hcolon : isSpace kColon = false ∧ kColon ≠ kHash ∧ kColon ≠ kQuote := by decide
  have hall : ∀ ch ∈ id.str, isSpace ch = false ∧ ch ≠ kHash ∧ ch ≠ kQuote := by
    intro ch hch
    unfold ChannelId.str at hch
    rw [List.mem_append, List.mem_append, List.mem_singleton] at hch
    rcases hch with (hch | rfl) | hch
    · obtain ⟨hspace, hhash, hquote, _⟩ := decimal_plain _ ch hch
      exact ⟨hspace, hhash, hquote⟩
    · exact hcolon
    · obtain ⟨hspace, hhash, hquote, _⟩ := decimal_plain _ ch hch
      exact ⟨hspace, hhash, hquote⟩
  exact ⟨⟨fun ch hch => (hall ch (List.mem_of_head? hch)).1,
    fun ch hch => (hall ch (List.mem_of_getLast? hch)).1⟩,
    fun h => (hall _ h).2.1 rfl, fun h => (hall _ h).2.2 rfl⟩

/-- A data channel is read back; number 0 is only read with generation 0. -/
theorem parseChannelText_str (line : Nat) {id : ChannelId} (h : id.number ≠ 0) :
    parseChannelText id.str line = .ok id := by
  obtain ⟨htrimmed, _, hquote⟩ := str_trimmed id
  have hunquote : unquote id.str = decimal id.number.toNat ++ kColon :: decimal id.generation.toNat := by
    unfold unquote
    rw [trim_of_trimmed htrimmed]
    dsimp only
    rw [if_neg fun hquoted => hquote (List.mem_of_head? hquoted.2.1)]
    unfold ChannelId.str
    rw [List.append_assoc, List.singleton_append]
  have hgeneration : id.generation.toNat = id.generation.toUInt32.toNat := (UInt8.toNat_toUInt32 _).symm
  unfold parseChannelText
  rw [hunquote, splitFirst_append fun ch hch => (decimal_plain _ ch hch).2.2.2.1]
  dsimp only
  rw [parseU32Text_decimal]
  dsimp only
  rw [hgeneration, parseU32Text_decimal]
  dsimp only
  have hlt := id.generation.toNat_lt
  rw [if_neg, if_neg fun hcontrol => h hcontrol.1, UInt8.toUInt8_toUInt32]
  rw [gt_iff_lt, UInt32.lt_iff_toNat_lt, UInt8.toNat_toUInt32]
  simp only [UInt32.reduceToNat]
  omega

theorem parseChannelText_numbered {text : Bytes} {line : Nat} {id : ChannelId}
    (h : parseChannelText text line = .ok id) (hnumber : id.number = 0) : id.generation = 0 := by
  unfold parseChannelText at h
  split at h
  next => cases h
  next =>
    split at h
    next => cases h
    next =>
      split at h
      next => cases h
      next =>
        split at h
        next => cases h
        next =>
          split at h
          next => cases h
          next hdata =>
            cases h
            have hzero := not_not.mp fun hne => hdata ⟨hnumber, hne⟩
            rw [hzero]
            rfl

theorem parseHexText_hex (line : Nat) (bytes : Bytes) : parseHexText (hex bytes) line = .ok bytes := by
  unfold parseHexText
  rw [unquote_plain (hex_plain bytes)]
  dsimp only
  rw [length_hex, if_neg (by omega), hexPairs_hex]

/-- No line of a text has a newline in it. -/
theorem lines_plain {text line : Bytes} (h : line ∈ lines text) : kNewline ∉ line := by
  have hsplit : ∀ text : Bytes, ∀ part ∈ text.splitOn kNewline, kNewline ∉ part := by
    intro text
    induction text with
    | nil => simp
    | cons ch text ih =>
      rw [List.splitOn_cons_eq_if_modifyHead]
      split
      next => exact List.forall_mem_cons.mpr ⟨List.not_mem_nil, ih⟩
      next hne =>
        obtain ⟨first, parts, hparts⟩ := List.exists_cons_of_ne_nil (List.splitOn_ne_nil kNewline text)
        rw [hparts] at ih ⊢
        obtain ⟨hfirst, hrest⟩ := List.forall_mem_cons.mp ih
        refine List.forall_mem_cons.mpr ⟨?_, hrest⟩
        rw [List.mem_cons, not_or]
        exact ⟨fun heq => hne (by simp [heq]), hfirst⟩
  unfold lines at h
  dsimp only at h
  split at h
  next => exact hsplit text line ((List.dropLast_sublist _).subset h)
  next => exact hsplit text line h

end LatticeGateway
