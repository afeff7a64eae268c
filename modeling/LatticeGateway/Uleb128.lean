import LatticeGateway.Leb128
import LatticeGateway.Wire

namespace LatticeGateway

/-- The `do … while` of `encode_uleb128`; a 32-bit value is used up within the budget. -/
def encodeUleb128Loop : Nat → UInt32 → Bytes
  | 0, _ => []
  | fuel + 1, value =>
    let byte := (value &&& 0x7F).toUInt8
    if value >>> 7 ≠ 0 then (byte ||| 0x80) :: encodeUleb128Loop fuel (value >>> 7) else [byte]

def encodeUleb128 (value : UInt32) : Except Error Bytes :=
  let out := encodeUleb128Loop (kMaxVarintBytes + 1) value
  if out.length > kMaxVarintBytes then
    .error (makeError .connection .varintTooLong .closeConnection "varint exceeds protocol cap")
  else .ok out

/-- The `for` loop of `decode_uleb128` with `remaining` rounds to go. -/
def decodeUleb128Loop (bytes : Bytes) (offset : Nat) :
    Nat → UInt32 → UInt32 → Except Error (UInt32 × Nat)
  | 0, _, _ =>
    .error (makeError .connection .varintTooLong .closeConnection "ULEB128 longer than five bytes")
  | remaining + 1, value, shift =>
    let i := kMaxVarintBytes - (remaining + 1)
    if offset + i ≥ bytes.length then
      .error (makeError .connection .needMoreData .none "partial varint")
    else
      let byte := byteAt bytes (offset + i)
      let value := value ||| ((byte &&& 0x7F).toUInt32 <<< shift)
      if byte &&& 0x80 = 0 then
        if (i = 4 ∧ byte &&& 0xF0 ≠ 0) ∨ (i > 0 ∧ value < (1 : UInt32) <<< (7 * UInt32.ofNat i)) then
          .error (makeError .connection .varintNonCanonical .closeConnection "non-minimal ULEB128")
        else .ok (value, i + 1)
      else decodeUleb128Loop bytes offset remaining value (shift + 7)

def decodeUleb128 (bytes : Bytes) (offset : Nat) : Except Error (UInt32 × Nat) :=
  decodeUleb128Loop bytes offset kMaxVarintBytes 0 0

theorem uint8_and_7F (b : UInt8) : (b &&& 0x7F).toNat = b.toNat % 128 := by
  rw [UInt8.toNat_and, show (0x7F : UInt8).toNat = 2 ^ 7 - 1 from rfl,
    Nat.and_two_pow_sub_one_eq_mod]

theorem uint8_and_80 (b : UInt8) : b &&& 0x80 = 0 ↔ b.toNat < 128 := by
  have key : ∀ n : Fin 256, (n.val &&& 128 = 0 ↔ n.val < 128) := by decide +kernel
  rw [← UInt8.toNat_inj, UInt8.toNat_and]
  exact key ⟨b.toNat, b.toNat_lt⟩

theorem uint8_and_F0 (b : UInt8) : b &&& 0xF0 = 0 ↔ b.toNat < 16 := by
  have key : ∀ n : Fin 256, (n.val &&& 240 = 0 ↔ n.val < 16) := by decide +kernel
  rw [← UInt8.toNat_inj, UInt8.toNat_and]
  exact key ⟨b.toNat, b.toNat_lt⟩

theorem toNat_low_group (v : UInt32) : (v &&& 0x7F).toUInt8.toNat = v.toNat % 128 := by
  rw [UInt32.toNat_toUInt8, UInt32.toNat_and, show (0x7F : UInt32).toNat = 2 ^ 7 - 1 from rfl,
    Nat.and_two_pow_sub_one_eq_mod]
  omega

theorem toNat_marked_group (v : UInt32) :
    ((v &&& 0x7F).toUInt8 ||| 0x80).toNat = v.toNat % 128 + 128 := by
  have h : v.toNat % 128 < 2 ^ 7 := Nat.mod_lt _ (by omega)
  rw [UInt8.toNat_or, toNat_low_group, show (0x80 : UInt8).toNat = 2 ^ 7 * 1 from rfl, Nat.or_comm,
    ← Nat.two_pow_add_eq_or_of_lt h]
  omega

theorem toNat_shiftRight_7 (v : UInt32) : (v >>> 7).toNat = v.toNat / 128 := by
  simp [UInt32.toNat_shiftRight, Nat.shiftRight_eq_div_pow]

theorem shiftRight_7_ne_zero (v : UInt32) : v >>> 7 ≠ 0 ↔ 128 ≤ v.toNat := by
  rw [ne_eq, ← UInt32.toNat_inj, toNat_shiftRight_7]
  simp only [UInt32.toNat_zero]
  omega

theorem length_encodeUleb128Loop_le {k fuel : Nat} {v : UInt32} (h : v.toNat < 128 ^ (k + 1)) :
    (encodeUleb128Loop fuel v).length ≤ k + 1 := by
  induction k generalizing fuel v with
  | zero =>
    cases fuel with
    | zero => simp [encodeUleb128Loop]
    | succ fuel =>
      have hv : ¬ v >>> 7 ≠ 0 := by rw [shiftRight_7_ne_zero]; omega
      simp [encodeUleb128Loop, not_not.mp hv]
  | succ k ih =>
    cases fuel with
    | zero => simp [encodeUleb128Loop]
    | succ fuel =>
      have hv : (v >>> 7).toNat < 128 ^ (k + 1) := by
        rw [toNat_shiftRight_7]
        rw [Nat.pow_succ] at h
        omega
      simp only [encodeUleb128Loop]
      split
      next => simpa using ih hv
      next => simp

/-- The length check of `encode_uleb128` never fires. -/
theorem encodeUleb128_eq (v : UInt32) :
    encodeUleb128 v = .ok (encodeUleb128Loop (kMaxVarintBytes + 1) v) := by
  have hv := v.toNat_lt
  have : (encodeUleb128Loop (kMaxVarintBytes + 1) v).length ≤ 4 + 1 :=
    length_encodeUleb128Loop_le (by omega)
  unfold encodeUleb128
  exact if_neg (by simp only [kMaxVarintBytes] at this ⊢; omega)

/-- Decoding is decided by the bytes read so far unless they ran out. -/
theorem decodeUleb128Loop_append {bs : Bytes} {offset remaining : Nat} {value shift : UInt32}
    (more : Bytes)
    (h : ∀ e, decodeUleb128Loop bs offset remaining value shift = .error e → e.code ≠ .needMoreData) :
    decodeUleb128Loop (bs ++ more) offset remaining value shift =
      decodeUleb128Loop bs offset remaining value shift := by
  induction remaining generalizing value shift with
  | zero => rfl
  | succ remaining ih =>
    simp only [decodeUleb128Loop] at h ⊢
    by_cases hb : offset + (kMaxVarintBytes - (remaining + 1)) ≥ bs.length
    · exact absurd rfl (h _ (if_pos hb))
    · rw [if_neg hb] at h
      rw [if_neg hb, if_neg (by simp only [List.length_append]; omega),
        byteAt_append_left more (by omega)]
      split
      next => rfl
      next hc =>
        rw [if_neg hc] at h
        exact ih h

/-- A value is read from the bytes that it takes alone. -/
theorem decodeUleb128Loop_local {bs more : Bytes} {offset remaining used : Nat}
    {value shift result : UInt32} (hremaining : remaining ≤ kMaxVarintBytes)
    (h : decodeUleb128Loop (bs ++ more) offset remaining value shift = .ok (result, used)) :
    kMaxVarintBytes - remaining < used ∧ (offset + used ≤ bs.length →
      decodeUleb128Loop bs offset remaining value shift = .ok (result, used)) := by
  induction remaining generalizing value shift with
  | zero => cases h
  | succ remaining ih =>
    simp only [decodeUleb128Loop] at h ⊢
    split at h
    next => cases h
    next =>
      have hround : ∀ {more : Bytes}, offset + used ≤ bs.length →
          kMaxVarintBytes - (remaining + 1) < used →
          byteAt (bs ++ more) (offset + (kMaxVarintBytes - (remaining + 1))) =
            byteAt bs (offset + (kMaxVarintBytes - (remaining + 1))) := by
        intro more hfits hused
        exact byteAt_append_left more (by omega)
      split at h
      next hlast =>
        split at h
        next => cases h
        next hcanonical =>
          cases h
          refine ⟨by omega, fun hfits => ?_⟩
          rw [hround hfits (by omega)] at hlast hcanonical ⊢
          rw [if_neg (by omega), if_pos hlast, if_neg hcanonical]
      next hmore =>
        obtain ⟨hused, hlocal⟩ := ih (by omega) h
        refine ⟨by omega, fun hfits => ?_⟩
        rw [hround hfits (by omega)] at hmore hlocal
        rw [if_neg (by omega), if_neg hmore]
        exact hlocal hfits

/-- One round of the accumulation: group `i` of `v` lands above the `i` groups read before. -/
theorem toNat_accumulate {acc shift v : UInt32} {i : Nat} (byte : UInt8) (hi : i ≤ 4)
    (hshift : shift.toNat = 7 * i) (hacc : acc.toNat = v.toNat % 128 ^ i)
    (hbyte : byte.toNat % 128 = v.toNat / 128 ^ i % 128) :
    (acc ||| ((byte &&& 0x7F).toUInt32 <<< shift)).toNat = v.toNat % 128 ^ (i + 1) := by
  have hp : (2 : Nat) ^ (7 * i) = 128 ^ i := by rw [Nat.pow_mul]
  have hpos : 0 < 128 ^ i := Nat.pow_pos (by omega)
  have hg : v.toNat / 128 ^ i % 128 * 128 ^ i ≤ v.toNat :=
    (Nat.mul_le_mul_right _ (Nat.mod_le _ _)).trans (Nat.div_mul_le_self _ _)
  have hv := v.toNat_lt
  have hgroup : ((byte &&& 0x7F).toUInt32 <<< shift).toNat = v.toNat / 128 ^ i % 128 * 128 ^ i := by
    rw [UInt32.toNat_shiftLeft, UInt8.toNat_toUInt32, uint8_and_7F, hbyte, hshift,
      Nat.mod_eq_of_lt (show 7 * i < 32 by omega), Nat.shiftLeft_eq, hp]
    exact Nat.mod_eq_of_lt (hg.trans_lt hv)
  have hlow : v.toNat % 128 ^ i < 2 ^ (7 * i) := by rw [hp]; exact Nat.mod_lt _ hpos
  have hhigh : 2 ^ (7 * i) ∣ v.toNat / 128 ^ i % 128 * 128 ^ i := by
    rw [hp]; exact Nat.dvd_mul_left _ _
  rw [UInt32.toNat_or, hgroup, hacc, Nat.or_comm, nat_or_eq_add hhigh hlow, Nat.pow_succ, Nat.mod_mul,
    Nat.mul_comm, Nat.add_comm]

/-- The bound of the non-minimality check, which leaves `i` groups behind the value. -/
theorem lt_groups {v : UInt32} {i : Nat} (hi : i ≤ 4) :
    v < (1 : UInt32) <<< (7 * UInt32.ofNat i) ↔ v.toNat < 128 ^ i := by
  rw [UInt32.lt_iff_toNat_lt]
  obtain rfl | rfl | rfl | rfl | rfl : i = 0 ∨ i = 1 ∨ i = 2 ∨ i = 3 ∨ i = 4 := by omega
  all_goals exact Iff.rfl

/-- The loop, `i` groups into the encoding of `v`, reads the rest of it. -/
theorem decodeUleb128Loop_encode {remaining fuel i offset : Nat} {v w acc shift : UInt32}
    {pre : Bytes} (rest : Bytes) (hi : i + remaining = kMaxVarintBytes) (hfuel : remaining < fuel)
    (hpre : pre.length = offset + i) (hacc : acc.toNat = v.toNat % 128 ^ i)
    (hw : w.toNat = v.toNat / 128 ^ i) (hshift : shift.toNat = 7 * i)
    (hmin : 0 < i → 0 < w.toNat) :
    decodeUleb128Loop (pre ++ encodeUleb128Loop fuel w ++ rest) offset remaining acc shift =
      .ok (v, i + (encodeUleb128Loop fuel w).length) := by
  have hv := v.toNat_lt
  simp only [kMaxVarintBytes] at hi
  induction remaining generalizing fuel i w acc shift pre with
  | zero =>
    obtain rfl : i = 5 := by omega
    have := hmin (by omega)
    omega
  | succ remaining ih =>
    obtain ⟨fuel, rfl⟩ : ∃ f, fuel = f + 1 := ⟨fuel - 1, by omega⟩
    have hindex : kMaxVarintBytes - (remaining + 1) = i := by simp only [kMaxVarintBytes]; omega
    have hpos : 0 < 128 ^ i := Nat.pow_pos (by omega)
    have hdiv : v.toNat / 128 ^ (i + 1) = w.toNat / 128 := by
      rw [hw, Nat.pow_succ, Nat.div_div_eq_div_mul]
    by_cases hlast : 128 ≤ w.toNat
    · -- a continuation byte: the next round starts one group further
      have henc : encodeUleb128Loop (fuel + 1) w =
          ((w &&& 0x7F).toUInt8 ||| 0x80) :: encodeUleb128Loop fuel (w >>> 7) := by
        simp only [encodeUleb128Loop, if_pos ((shiftRight_7_ne_zero w).mpr hlast)]
      have hbyte := toNat_marked_group w
      have hacc' := toNat_accumulate ((w &&& 0x7F).toUInt8 ||| 0x80) (by omega) hshift hacc
        (by rw [hbyte, ← hw]; omega)
      have hnext := @ih fuel (i + 1) (w >>> 7) _ (shift + 7)
        (pre ++ [(w &&& 0x7F).toUInt8 ||| 0x80]) (by omega) (by omega)
        (by simp only [List.length_append, List.length_singleton]; omega) hacc'
        (by rw [toNat_shiftRight_7, hdiv])
        (by rw [UInt32.toNat_add, hshift, show (7 : UInt32).toNat = 7 from rfl]; omega)
        (fun _ => by rw [toNat_shiftRight_7]; omega)
      have hread : byteAt (pre ++ encodeUleb128Loop (fuel + 1) w ++ rest) (offset + i) =
          (w &&& 0x7F).toUInt8 ||| 0x80 := by
        rw [List.append_assoc, ← hpre, ← Nat.add_zero pre.length, byteAt_append_right, henc]
        rfl
      simp only [decodeUleb128Loop, hindex]
      rw [if_neg (by simp only [List.length_append, henc, List.length_cons]; omega), hread,
        if_neg (by rw [uint8_and_80, hbyte]; omega), henc, List.length_cons]
      rw [List.append_assoc, List.append_assoc] at hnext
      rw [List.append_assoc]
      refine hnext.trans ?_
      rw [Nat.add_assoc, Nat.add_comm 1]
    · -- the last byte: all of `v` has been read, and none of its groups is superfluous
      have henc : encodeUleb128Loop (fuel + 1) w = [(w &&& 0x7F).toUInt8] := by
        simp only [encodeUleb128Loop, if_neg (mt (shiftRight_7_ne_zero w).mp hlast)]
      have hbyte : (w &&& 0x7F).toUInt8.toNat = w.toNat := by rw [toNat_low_group]; omega
      have hacc' := toNat_accumulate (w &&& 0x7F).toUInt8 (by omega) hshift hacc
        (by rw [hbyte, ← hw])
      have hall : v.toNat < 128 ^ (i + 1) := by
        have := (Nat.div_eq_zero_iff (a := v.toNat) (b := 128 ^ (i + 1))).mp (by omega)
        have hpos' : 0 < 128 ^ (i + 1) := Nat.pow_pos (by omega)
        omega
      have hvalue : acc ||| (((w &&& 0x7F).toUInt8 &&& 0x7F).toUInt32 <<< shift) = v := by
        apply UInt32.toNat_inj.mp
        rw [hacc', Nat.mod_eq_of_lt hall]
      have hread : byteAt (pre ++ encodeUleb128Loop (fuel + 1) w ++ rest) (offset + i) =
          (w &&& 0x7F).toUInt8 := by
        rw [List.append_assoc, ← hpre, ← Nat.add_zero pre.length, byteAt_append_right, henc]
        rfl
      have hminimal : ¬ ((i = 4 ∧ (w &&& 0x7F).toUInt8 &&& 0xF0 ≠ 0) ∨
          (i > 0 ∧ v < (1 : UInt32) <<< (7 * UInt32.ofNat i))) := by
        rintro (⟨rfl, hf⟩ | ⟨hi0, hlt⟩)
        · apply hf
          rw [uint8_and_F0, hbyte]
          omega
        · have hw0 := hmin hi0
          rw [lt_groups (by omega)] at hlt
          rw [hw, Nat.div_eq_of_lt hlt] at hw0
          omega
      simp only [decodeUleb128Loop, hindex]
      rw [if_neg (by simp only [List.length_append, henc, List.length_singleton]; omega), hread,
        if_pos (by rw [uint8_and_80, hbyte]; omega), hvalue, if_neg hminimal, henc,
        List.length_singleton]

theorem decodeUleb128_encode (v : UInt32) (pre rest : Bytes) :
    decodeUleb128 (pre ++ encodeUleb128Loop (kMaxVarintBytes + 1) v ++ rest) pre.length =
      .ok (v, (encodeUleb128Loop (kMaxVarintBytes + 1) v).length) := by
  have h := @decodeUleb128Loop_encode kMaxVarintBytes (kMaxVarintBytes + 1) 0 pre.length v v 0 0 pre
    rest (by omega) (by omega) (by omega) (by simp [Nat.mod_one]) (by simp) (by simp) (by simp)
  rw [Nat.zero_add] at h
  exact h

/-- One round of the accumulation, whatever value it is to end in. -/
theorem toNat_accumulate_group {acc shift : UInt32} {i : Nat} (byte : UInt8) (hi : i ≤ 4)
    (hshift : shift.toNat = 7 * i) (hacc : acc.toNat < 128 ^ i)
    (hfits : acc.toNat + 128 ^ i * (byte.toNat % 128) < 2 ^ 32) :
    (acc ||| ((byte &&& 0x7F).toUInt32 <<< shift)).toNat =
      acc.toNat + 128 ^ i * (byte.toNat % 128) := by
  have hpos : 0 < 128 ^ i := Nat.pow_pos (by omega)
  have hg : byte.toNat % 128 < 128 := Nat.mod_lt _ (by omega)
  have hv : (UInt32.ofNat (acc.toNat + 128 ^ i * (byte.toNat % 128))).toNat =
      acc.toNat + 128 ^ i * (byte.toNat % 128) := by
    rw [UInt32.toNat_ofNat']
    exact Nat.mod_eq_of_lt hfits
  have hlow : (acc.toNat + 128 ^ i * (byte.toNat % 128)) % 128 ^ i = acc.toNat := by
    rw [Nat.add_mul_mod_self_left, Nat.mod_eq_of_lt hacc]
  have hgroup : (acc.toNat + 128 ^ i * (byte.toNat % 128)) / 128 ^ i = byte.toNat % 128 := by
    rw [Nat.add_mul_div_left _ _ hpos, Nat.div_eq_of_lt hacc, Nat.zero_add]
  rw [toNat_accumulate byte hi hshift (by rw [hv, hlow]) (by rw [hv, hgroup, Nat.mod_mod]), hv]
  apply Nat.mod_eq_of_lt
  have hle : 128 ^ i * (byte.toNat % 128) ≤ 128 ^ i * 127 := Nat.mul_le_mul_left _ (by omega)
  rw [Nat.pow_succ]
  omega

/-- What the loop reads from its `i`th byte on is a form of the groups still missing. -/
theorem decodeUleb128Loop_form {bytes : Bytes} {offset i remaining used : Nat}
    {acc shift v : UInt32} (hi : i + remaining = kMaxVarintBytes) (hshift : shift.toNat = 7 * i)
    (hacc : acc.toNat < 128 ^ i)
    (h : decodeUleb128Loop bytes offset remaining acc shift = .ok (v, used)) :
    i < used ∧ offset + used ≤ bytes.length ∧
      (∃ n, Leb128.Form n ((bytes.drop (offset + i)).take (used - i)) ∧
        v.toNat = acc.toNat + 128 ^ i * n) ∧ (used = 1 ∨ 128 ^ (used - 1) ≤ v.toNat) := by
  simp only [kMaxVarintBytes] at hi
  induction remaining generalizing i acc shift with
  | zero => cases h
  | succ remaining ih =>
    have hindex : kMaxVarintBytes - (remaining + 1) = i := by simp only [kMaxVarintBytes]; omega
    simp only [decodeUleb128Loop, hindex] at h
    split at h
    next => cases h
    next hthere =>
      have hcons := @drop_eq_byteAt_cons bytes (offset + i) (by omega)
      have hbyte := (byteAt bytes (offset + i)).toNat_lt
      split at h
      next hlast =>
        rw [uint8_and_80] at hlast
        split at h
        next => cases h
        next hminimal =>
          rw [not_or, not_and, not_and, not_not] at hminimal
          have hfits : acc.toNat + 128 ^ i * ((byteAt bytes (offset + i)).toNat % 128) < 2 ^ 32 := by
            have h4 := hminimal.1
            rw [uint8_and_F0] at h4
            obtain rfl | rfl | rfl | rfl | rfl : i = 0 ∨ i = 1 ∨ i = 2 ∨ i = 3 ∨ i = 4 := by omega
            all_goals
              simp at hacc h4
              omega
          have hsum := toNat_accumulate_group _ (by omega) hshift hacc hfits
          rw [Nat.mod_eq_of_lt hlast] at hsum
          cases h
          refine ⟨by omega, by omega, ⟨_, ?_, hsum⟩, ?_⟩
          · rw [Nat.add_sub_cancel_left, hcons, List.take_succ_cons, List.take_zero]
            exact .last hlast
          · rw [Nat.add_sub_cancel]
            by_cases hi0 : i = 0
            · exact .inl (by omega)
            · have hle := hminimal.2 (by omega)
              rw [lt_groups (by omega)] at hle
              exact .inr (Nat.not_lt.mp hle)
      next hmore =>
        rw [uint8_and_80] at hmore
        cases remaining with
        | zero => cases h
        | succ remaining =>
          have hfits : acc.toNat + 128 ^ i * ((byteAt bytes (offset + i)).toNat % 128) <
              128 ^ (i + 1) := by
            have hle : 128 ^ i * ((byteAt bytes (offset + i)).toNat % 128) ≤ 128 ^ i * 127 :=
              Nat.mul_le_mul_left _ (by omega)
            rw [Nat.pow_succ]
            omega
          have hpow : 128 ^ (i + 1) ≤ 128 ^ 4 := Nat.pow_le_pow_right (by omega) (by omega)
          have hsum := toNat_accumulate_group (byteAt bytes (offset + i)) (by omega) hshift hacc
            (hfits.trans_le (hpow.trans (by omega)))
          obtain ⟨hused, hlen, ⟨n, hform, hv⟩, hmin⟩ := @ih (i + 1) _ _ (by omega)
            (by rw [UInt32.toNat_add, hshift, show (7 : UInt32).toNat = 7 from rfl]; omega)
            (by rw [hsum]; exact hfits) h
          refine ⟨by omega, hlen,
            ⟨(byteAt bytes (offset + i)).toNat - 128 + 128 * n, ?_, ?_⟩, hmin⟩
          · rw [show used - i = used - (i + 1) + 1 by omega, hcons, List.take_succ_cons]
            exact .more (by omega) hform
          · rw [hv, hsum, Nat.pow_succ, Nat.mul_add, ← Nat.mul_assoc, Nat.add_assoc,
              show (byteAt bytes (offset + i)).toNat % 128 =
                (byteAt bytes (offset + i)).toNat - 128 by omega]

theorem decodeUleb128Loop_drop (bytes : Bytes) (count offset remaining : Nat) (value shift : UInt32) :
    decodeUleb128Loop (bytes.drop count) offset remaining value shift =
      decodeUleb128Loop bytes (count + offset) remaining value shift := by
  induction remaining generalizing value shift with
  | zero => rfl
  | succ remaining ih =>
    unfold decodeUleb128Loop
    dsimp only
    have hout : offset + (kMaxVarintBytes - (remaining + 1)) ≥ (bytes.drop count).length ↔
        count + offset + (kMaxVarintBytes - (remaining + 1)) ≥ bytes.length := by
      rw [List.length_drop]
      omega
    rw [byteAt_drop, ← Nat.add_assoc, if_congr hout rfl rfl, ih]

theorem decodeUleb128_drop (bytes : Bytes) (count offset : Nat) :
    decodeUleb128 (bytes.drop count) offset = decodeUleb128 bytes (count + offset) :=
  decodeUleb128Loop_drop bytes count offset kMaxVarintBytes 0 0

theorem decodeUleb128_used {bytes : Bytes} {offset used : Nat} {v : UInt32}
    (h : decodeUleb128 bytes offset = .ok (v, used)) : 1 ≤ used ∧ offset + used ≤ bytes.length := by
  obtain ⟨hused, hfits, _⟩ := @decodeUleb128Loop_form bytes offset 0 kMaxVarintBytes used 0 0 v rfl rfl
    (by simp) h
  exact ⟨hused, hfits⟩

theorem decodeUleb128_sound {bytes : Bytes} {offset used : Nat} {v : UInt32}
    (h : decodeUleb128 bytes offset = .ok (v, used)) :
    offset + used ≤ bytes.length ∧ Leb128.Minimal v.toNat ((bytes.drop offset).take used) := by
  obtain ⟨hused, hlen, ⟨n, hform, hv⟩, hmin⟩ := @decodeUleb128Loop_form bytes offset 0
    kMaxVarintBytes used 0 0 v (Nat.zero_add _) rfl (by simp) h
  have hlength : ((bytes.drop offset).take used).length = used := by
    rw [List.length_take, List.length_drop]
    omega
  have hn : v.toNat = n := by simpa using hv
  rw [Nat.add_zero, Nat.sub_zero, ← hn] at hform
  exact ⟨hlen, hform.minimal (by rwa [hlength])⟩

theorem encodeUleb128Loop_minimal (v : UInt32) :
    Leb128.Minimal v.toNat (encodeUleb128Loop (kMaxVarintBytes + 1) v) := by
  have hdecode := decodeUleb128_encode v [] []
  rw [List.nil_append, List.append_nil] at hdecode
  have hmin := (decodeUleb128_sound hdecode).2
  rwa [List.length_nil, List.drop_zero, List.take_length] at hmin

/-- The size of an encoded value is decided by the powers of 128. -/
theorem length_encodeUleb128Loop_iff {v : UInt32} {k : Nat} :
    (encodeUleb128Loop (kMaxVarintBytes + 1) v).length ≤ k + 1 ↔ v.toNat < 128 ^ (k + 1) := by
  refine ⟨fun hle => ?_, length_encodeUleb128Loop_le⟩
  have hform := (encodeUleb128Loop_minimal v).1
  exact hform.lt_pow.trans_le (Nat.pow_le_pow_right (by omega) hle)

theorem decodeUleb128_complete {v : UInt32} {form : Bytes} (h : Leb128.Minimal v.toNat form)
    (pre rest : Bytes) :
    decodeUleb128 (pre ++ (form ++ rest)) pre.length = .ok (v, form.length) := by
  rw [h.unique (encodeUleb128Loop_minimal v), ← List.append_assoc]
  exact decodeUleb128_encode v pre rest

end LatticeGateway
