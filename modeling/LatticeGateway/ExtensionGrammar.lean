import LatticeGateway.Extensions

namespace LatticeGateway

/-- The extension block of a frame: for each extension its type, the high bit saying that it is
required, the shortest form of its length, and its value. -/
inductive ExtensionBlock : List Extension → Bytes → Prop
  | nil : ExtensionBlock [] []
  | cons {e : Extension} {es : List Extension} {size out : Bytes} : e.type.toNat < 2 ^ 15 →
      (e.required = true → 1 ≤ e.type ∧ e.type ≤ 4) → (∀ next ∈ es, e.type ≤ next.type) →
      Leb128.Minimal e.value.length size → ExtensionBlock es out →
      ExtensionBlock (e :: es)
        (BigEndian.digits 2 (e.type.toNat + if e.required then 2 ^ 15 else 0) ++ size ++ e.value ++ out)

theorem toNat_and_not_requiredBit (raw : UInt16) :
    (raw &&& ~~~kRequiredBit).toNat = raw.toNat % 2 ^ 15 := by
  rw [UInt16.toNat_and, show (~~~kRequiredBit).toNat = 2 ^ 15 - 1 from rfl,
    Nat.and_two_pow_sub_one_eq_mod]

theorem requiredBit_set (raw : UInt16) : (raw &&& kRequiredBit != 0) = decide (2 ^ 15 ≤ raw.toNat) := by
  have hraw := raw.toNat_lt
  have hbit : (raw &&& kRequiredBit).toNat = raw.toNat / 2 ^ 15 % 2 * 2 ^ 15 := by
    rw [UInt16.toNat_and, show kRequiredBit.toNat = 2 ^ 15 from rfl, Nat.and_two_pow,
      Nat.toNat_testBit]
  have hzero : raw &&& kRequiredBit = 0 ↔ raw.toNat / 2 ^ 15 % 2 * 2 ^ 15 = 0 := by
    rw [← UInt16.toNat_inj, hbit, UInt16.toNat_zero]
  rw [Bool.eq_iff_iff, bne_iff_ne, ne_eq, hzero, decide_eq_true_iff]
  omega

/-- The 16-bit word of a type and its flag is the two of them side by side. -/
theorem raw_eq_iff {raw : UInt16} {type : UInt16} {required : Bool} (htype : type.toNat < 2 ^ 15) :
    raw.toNat = type.toNat + (if required then 2 ^ 15 else 0) ↔
      raw &&& ~~~kRequiredBit = type ∧ (raw &&& kRequiredBit != 0) = required := by
  have hraw := raw.toNat_lt
  rw [← UInt16.toNat_inj, toNat_and_not_requiredBit, requiredBit_set]
  cases required with
  | false =>
    rw [decide_eq_false_iff_not, if_neg Bool.false_ne_true]
    omega
  | true =>
    rw [decide_eq_true_iff, if_pos rfl]
    omega

theorem knownRequiredExtension_iff (type : UInt16) :
    knownRequiredExtension type = true ↔ 1 ≤ type ∧ type ≤ 4 := by
  rw [UInt16.le_iff_toNat_le, UInt16.le_iff_toNat_le]
  simp only [knownRequiredExtension, Bool.or_eq_true, beq_iff_eq, ← UInt16.toNat_inj,
    UInt16.reduceToNat]
  omega

/-- One successful round of the loop of `parse_extensions`. -/
theorem parseExtensionsLoop_round {fuel : Nat} {bytes : Bytes} {previous : Option UInt16}
    {extensions : List Extension} (hne : bytes ≠ []) :
    parseExtensionsLoop (fuel + 1) bytes previous = .ok extensions ↔
      2 ≤ bytes.length ∧ ∃ (len : UInt32) (used : Nat) (e : Extension) (more : List Extension),
        decodeUleb128 bytes 2 = .ok (len, used) ∧ len.toNat ≤ bytes.length - (2 + used) ∧
        e = ⟨u16At bytes 0 &&& ~~~kRequiredBit, u16At bytes 0 &&& kRequiredBit != 0,
          (bytes.drop (2 + used)).take len.toNat⟩ ∧
        (∀ type ∈ previous, type ≤ e.type) ∧
        (e.required = true → knownRequiredExtension e.type = true) ∧
        parseExtensionsLoop fuel (bytes.drop (2 + used + len.toNat)) (some e.type) = .ok more ∧
        extensions = e :: more := by
  cases bytes with
  | nil => exact absurd rfl hne
  | cons b bs =>
    simp only [parseExtensionsLoop]
    by_cases hshort : (b :: bs).length < 2
    · rw [if_pos hshort]
      constructor
      · intro h; cases h
      · rintro ⟨hlen, -⟩; omega
    rw [if_neg hshort]
    cases hdecode : decodeUleb128 (b :: bs) 2 with
    | error error => simp
    | ok size =>
      obtain ⟨len, used⟩ := size
      dsimp only
      by_cases hlen : len.toNat > (b :: bs).length - (2 + used)
      · rw [if_pos hlen]
        constructor
        · intro h; cases h
        · rintro ⟨-, len', used', e, more, hsize, hle, -⟩
          cases hsize
          omega
      rw [if_neg hlen]
      by_cases hprevious : previous.any (u16At (b :: bs) 0 &&& ~~~kRequiredBit < ·)
      · rw [if_pos hprevious]
        constructor
        · intro h; cases h
        · rintro ⟨-, len', used', e, more, -, -, rfl, hle, -⟩
          obtain ⟨type, htype, hlt⟩ := (Option.any_eq_true _ _).mp hprevious
          exact absurd (hle type htype) (UInt16.not_le.mpr (by simpa using hlt))
      rw [if_neg hprevious]
      have hsorted : ∀ type ∈ previous, type ≤ u16At (b :: bs) 0 &&& ~~~kRequiredBit := by
        intro type htype
        rw [← UInt16.not_lt]
        intro hlt
        exact hprevious ((Option.any_eq_true _ _).mpr ⟨type, htype, by simpa using hlt⟩)
      by_cases hknown : ((u16At (b :: bs) 0 &&& kRequiredBit != 0) &&
          !knownRequiredExtension (u16At (b :: bs) 0 &&& ~~~kRequiredBit)) = true
      · rw [if_pos hknown]
        rw [Bool.and_eq_true, Bool.not_eq_true'] at hknown
        constructor
        · intro h; cases h
        · rintro ⟨-, len', used', e, more, -, -, rfl, -, hrequired, -⟩
          have := hrequired hknown.1
          rw [hknown.2] at this
          cases this
      rw [if_neg hknown]
      rw [Bool.and_eq_true, Bool.not_eq_true', not_and, Bool.not_eq_false] at hknown
      constructor
      · intro h
        split at h
        next => cases h
        next more hmore =>
          exact ⟨by omega, len, used, _, more, rfl, by omega, rfl, hsorted, hknown, hmore,
            (Except.ok.inj h).symm⟩
      · rintro ⟨-, len', used', e, more, hsize, -, rfl, -, -, hmore, rfl⟩
        cases hsize
        rw [hmore]

/-- What `parse_extensions` accepts is an extension block. -/
theorem parseExtensionsLoop_sound {fuel : Nat} {bytes : Bytes} {previous : Option UInt16}
    {extensions : List Extension} (hfuel : bytes.length ≤ fuel)
    (h : parseExtensionsLoop fuel bytes previous = .ok extensions) :
    ExtensionBlock extensions bytes ∧ ∀ type ∈ previous, ∀ e ∈ extensions, type ≤ e.type := by
  induction fuel generalizing bytes previous extensions with
  | zero =>
    obtain rfl := List.eq_nil_of_length_eq_zero (by omega : bytes.length = 0)
    cases h
    exact ⟨.nil, by simp⟩
  | succ fuel ih =>
    by_cases hne : bytes = []
    · subst hne
      cases h
      exact ⟨.nil, by simp⟩
    obtain ⟨hshort, len, used, e, more, hdecode, hlen, he, hprevious, hknown, hmore, rfl⟩ :=
      (parseExtensionsLoop_round hne).mp h
    obtain ⟨hused, hminimal⟩ := decodeUleb128_sound hdecode
    obtain ⟨hblock, hsorted⟩ := ih (by simp only [List.length_drop]; omega) hmore
    have htype : e.type.toNat < 2 ^ 15 := by
      rw [he, toNat_and_not_requiredBit]
      exact Nat.mod_lt _ (by omega)
    have hraw : (u16At bytes 0).toNat = e.type.toNat + if e.required then 2 ^ 15 else 0 :=
      (raw_eq_iff htype).mpr (by rw [he]; exact ⟨rfl, rfl⟩)
    have hvalue : e.value.length = len.toNat := by
      rw [he, List.length_take, List.length_drop]
      omega
    have hbytes : bytes = BigEndian.digits 2 (e.type.toNat + if e.required then 2 ^ 15 else 0) ++
        (bytes.drop 2).take used ++ e.value ++ bytes.drop (2 + used + len.toNat) := by
      rw [← hraw, digits_u16At (by omega), List.drop_zero, ← List.take_add, he, ← List.take_add,
        List.take_append_drop]
    refine ⟨?_, fun type htype' next hnext => ?_⟩
    · rw [hbytes]
      refine .cons htype (fun hrequired => (knownRequiredExtension_iff _).mp (hknown hrequired))
        (hsorted e.type (by simp)) ?_ hblock
      rwa [hvalue]
    · have hle := hprevious type htype'
      rcases List.mem_cons.mp hnext with rfl | hnext
      · exact hle
      · exact UInt16.le_trans hle (hsorted e.type (by simp) next hnext)

/-- Every extension block is accepted, behind whatever type its first one may follow. -/
theorem parseExtensionsLoop_complete {extensions : List Extension} {bytes : Bytes} {fuel : Nat}
    {previous : Option UInt16} (h : ExtensionBlock extensions bytes) (hlen : bytes.length < 2 ^ 32)
    (hfuel : bytes.length ≤ fuel) (hprevious : ∀ type ∈ previous, ∀ e ∈ extensions, type ≤ e.type) :
    parseExtensionsLoop fuel bytes previous = .ok extensions := by
  induction h generalizing fuel previous with
  | nil => rw [parseExtensionsLoop]
  | @cons e es size out htype hknown hsorted hminimal hblock ih =>
    have hpos := hminimal.1.length_pos
    simp only [List.length_append, BigEndian.length_digits] at hlen hfuel
    obtain ⟨fuel, rfl⟩ : ∃ f, fuel = f + 1 := ⟨fuel - 1, by omega⟩
    have hvalue : (UInt32.ofNat e.value.length).toNat = e.value.length := by
      rw [UInt32.toNat_ofNat']
      exact Nat.mod_eq_of_lt (by omega)
    rw [← hvalue] at hminimal
    have hdecode := decodeUleb128_complete hminimal
      (BigEndian.digits 2 (e.type.toNat + if e.required then 2 ^ 15 else 0)) (e.value ++ out)
    have hraw : (u16At (BigEndian.digits 2 (e.type.toNat + if e.required then 2 ^ 15 else 0) ++
        (size ++ (e.value ++ out))) 0).toNat = e.type.toNat + if e.required then 2 ^ 15 else 0 := by
      rw [toNat_u16At_digits, Nat.mod_eq_of_lt (by split <;> omega)]
    obtain ⟨htypeOf, hrequiredOf⟩ := (raw_eq_iff htype).mp hraw
    have hdrop : (BigEndian.digits 2 (e.type.toNat + if e.required then 2 ^ 15 else 0) ++
        (size ++ (e.value ++ out))).drop (2 + size.length) = e.value ++ out := by
      rw [← List.append_assoc, List.drop_left' (by simp)]
    rw [BigEndian.length_digits] at hdecode
    rw [List.append_assoc, List.append_assoc]
    have hne : BigEndian.digits 2 (e.type.toNat + if e.required then 2 ^ 15 else 0) ++
        (size ++ (e.value ++ out)) ≠ [] := by
      apply List.ne_nil_of_length_pos
      rw [List.length_append, BigEndian.length_digits]
      omega
    refine (parseExtensionsLoop_round hne).mpr ⟨by simp, _, _, e, es, hdecode, ?_, ?_,
      fun type htype' => hprevious type htype' e (by simp),
      fun hrequired => (knownRequiredExtension_iff _).mpr (hknown hrequired), ?_, rfl⟩
    · simp only [List.length_append, BigEndian.length_digits]
      omega
    · rw [htypeOf, hrequiredOf, hdrop, hvalue, List.take_left]
    · rw [← List.drop_drop, hdrop, hvalue, List.drop_left]
      exact ih (by omega) (by omega) (by simpa using hsorted)

theorem parseExtensions_iff {bytes : Bytes} {extensions : List Extension}
    (hlen : bytes.length < 2 ^ 32) :
    parseExtensions bytes = .ok extensions ↔ ExtensionBlock extensions bytes :=
  ⟨fun h => (parseExtensionsLoop_sound (Nat.le_refl _) h).1,
    fun h => parseExtensionsLoop_complete h hlen (Nat.le_refl _) (by simp)⟩

end LatticeGateway
