import Mathlib.Logic.Function.Iterate

namespace ShiftRegister

variable {w : Nat} (poly : BitVec w)

/-- One step of a reflected feedback register: the bit that falls out decides whether `poly` is added. -/
def shift (c : BitVec w) : BitVec w := if c.getLsbD 0 then (c >>> 1) ^^^ poly else c >>> 1

def absorb (c : BitVec w) (byte : BitVec 8) : BitVec w := (shift poly)^[8] (c ^^^ byte.setWidth w)

def run (c : BitVec w) (bytes : List (BitVec 8)) : BitVec w := bytes.foldl (absorb poly) c

/-- The bytes as one word, the first one lowest. -/
def word (w : Nat) : List (BitVec 8) → BitVec w
  | [] => 0
  | byte :: bytes => byte.setWidth w ^^^ (word w bytes <<< 8)

/-- The lowest bytes of a word, the lowest one first. -/
def lowBytes : Nat → BitVec w → List (BitVec 8)
  | 0, _ => []
  | count + 1, c => c.setWidth 8 :: lowBytes count (c >>> 8)

theorem xor_cancel (a b p : BitVec w) : (a ^^^ p) ^^^ (b ^^^ p) = a ^^^ b := by
  rw [BitVec.xor_assoc, BitVec.xor_comm b p, ← BitVec.xor_assoc p, BitVec.xor_self, BitVec.zero_xor]

theorem shift_xor (a b : BitVec w) : shift poly (a ^^^ b) = shift poly a ^^^ shift poly b := by
  unfold shift
  rw [BitVec.getLsbD_xor, BitVec.ushiftRight_xor_distrib]
  cases a.getLsbD 0 <;> cases b.getLsbD 0
  · rfl
  · exact BitVec.xor_assoc _ _ _
  · change (a >>> 1 ^^^ b >>> 1) ^^^ poly = (a >>> 1 ^^^ poly) ^^^ b >>> 1
    rw [BitVec.xor_assoc, BitVec.xor_comm (b >>> 1), ← BitVec.xor_assoc]
  · exact (xor_cancel _ _ _).symm

theorem shifts_xor (n : Nat) (a b : BitVec w) :
    (shift poly)^[n] (a ^^^ b) = (shift poly)^[n] a ^^^ (shift poly)^[n] b := by
  induction n generalizing a b with
  | zero => rfl
  | succ n ih => rw [Function.iterate_succ_apply, shift_xor, ih]; rfl

/-- Low bits that are clear only move out. -/
theorem shifts_clear {c : BitVec w} {n : Nat} (h : ∀ i < n, c.getLsbD i = false) :
    (shift poly)^[n] c = c >>> n := by
  induction n with
  | zero => simp
  | succ n ih =>
    have hlow : (c >>> n).getLsbD 0 = false := by simpa using h n (Nat.lt_succ_self n)
    rw [Function.iterate_succ_apply', ih fun i hi => h i (Nat.lt_succ_of_lt hi)]
    unfold shift
    rw [hlow, BitVec.shiftRight_add]
    rfl

theorem shiftRight_shiftLeft {c : BitVec w} {n : Nat} (h : ∀ i, w ≤ i + n → c.getLsbD i = false) :
    (c <<< n) >>> n = c := by
  apply BitVec.eq_of_getLsbD_eq
  intro i hi
  rw [BitVec.getLsbD_ushiftRight, BitVec.getLsbD_shiftLeft]
  by_cases hfits : n + i < w
  · simp [hfits]
  · simp [hfits, h i (by omega)]

/-- A word that still fits above `n` clear bits comes back after `n` steps. -/
theorem shifts_shiftLeft {c : BitVec w} {n : Nat} (h : ∀ i, w ≤ i + n → c.getLsbD i = false) :
    (shift poly)^[n] (c <<< n) = c := by
  rw [shifts_clear poly fun i hi => by simp [BitVec.getLsbD_shiftLeft, hi], shiftRight_shiftLeft h]

theorem low_high (c : BitVec w) (n : Nat) :
    (c.setWidth n).setWidth w ^^^ ((c >>> n) <<< n) = c := by
  apply BitVec.eq_of_getLsbD_eq
  intro i hi
  rw [BitVec.getLsbD_xor, BitVec.getLsbD_setWidth, BitVec.getLsbD_setWidth, BitVec.getLsbD_shiftLeft,
    BitVec.getLsbD_ushiftRight]
  by_cases hlow : i < n
  · simp [hi, hlow]
  · have hback : n + (i - n) = i := by omega
    simp [hi, hlow, hback]

/-- Steps over the low bits alone, and the others moved down. -/
theorem shifts_split (n : Nat) (c : BitVec w) :
    (shift poly)^[n] c = (shift poly)^[n] ((c.setWidth n).setWidth w) ^^^ (c >>> n) := by
  have hhigh : ∀ i, w ≤ i + n → (c >>> n).getLsbD i = false := by
    intro i hi
    rw [BitVec.getLsbD_ushiftRight]
    exact BitVec.getLsbD_of_ge _ _ (by omega)
  have hsplit := shifts_xor poly n ((c.setWidth n).setWidth w) ((c >>> n) <<< n)
  rwa [low_high, shifts_shiftLeft poly hhigh] at hsplit

/-- The register can be run backwards when its polynomial has the highest bit. -/
theorem shift_injective (h : poly.msb = true) : Function.Injective (shift poly) := by
  intro a b hab
  have hzero : shift poly (a ^^^ b) = 0 := by rw [shift_xor, hab, BitVec.xor_self]; rfl
  suffices hsum : a ^^^ b = 0 by exact BitVec.xor_eq_zero_iff.mp hsum
  generalize a ^^^ b = c at hzero
  unfold shift at hzero
  split at hzero
  next =>
    have hpoly : c >>> 1 = poly := BitVec.xor_eq_zero_iff.mp hzero
    rw [← hpoly, BitVec.msb_ushiftRight] at h
    simp at h
  next hlow =>
    have hsplit := low_high c 1
    have hone : c.setWidth 1 = 0 := by
      apply BitVec.eq_of_getLsbD_eq
      intro i hi
      obtain rfl : i = 0 := by omega
      rw [BitVec.getLsbD_setWidth]
      simpa using hlow
    rw [← hsplit, hzero, hone]
    simp

theorem shifts_injective (h : poly.msb = true) (n : Nat) : Function.Injective (shift poly)^[n] :=
  (shift_injective poly h).iterate n

theorem absorb_injective (h : poly.msb = true) (byte : BitVec 8) :
    Function.Injective fun c => absorb poly c byte := by
  intro a b hab
  have hsum : a ^^^ byte.setWidth w = b ^^^ byte.setWidth w := shifts_injective poly h 8 hab
  have hcancel := congrArg (· ^^^ byte.setWidth w) hsum
  simpa [BitVec.xor_assoc] using hcancel

/-- Two registers that differ stay different over the same bytes. -/
theorem run_injective (h : poly.msb = true) (bytes : List (BitVec 8)) :
    Function.Injective fun c => run poly c bytes := by
  induction bytes with
  | nil => exact Function.injective_id
  | cons byte bytes ih => exact ih.comp (absorb_injective poly h byte)

@[simp] theorem run_append (c : BitVec w) (bytes more : List (BitVec 8)) :
    run poly c (bytes ++ more) = run poly (run poly c bytes) more := List.foldl_append

theorem getLsbD_byte {byte : BitVec 8} {i : Nat} (h : 8 ≤ i) : (byte.setWidth w).getLsbD i = false := by
  rw [BitVec.getLsbD_setWidth, BitVec.getLsbD_of_ge byte i h, Bool.and_false]

theorem getLsbD_word {bytes : List (BitVec 8)} {i : Nat} (h : 8 * bytes.length ≤ i) :
    (word w bytes).getLsbD i = false := by
  induction bytes generalizing i with
  | nil => exact BitVec.getLsbD_zero
  | cons byte bytes ih =>
    rw [List.length_cons] at h
    rw [word, BitVec.getLsbD_xor, getLsbD_byte (by omega), BitVec.getLsbD_shiftLeft, ih (by omega)]
    simp

theorem word_shift {bytes : List (BitVec 8)} (h : 8 * (bytes.length + 1) ≤ w) :
    (word w bytes <<< 8) >>> 8 = word w bytes :=
  shiftRight_shiftLeft fun _ hi => getLsbD_word (by omega)

theorem shifts_word_shift {bytes : List (BitVec 8)} (h : 8 * (bytes.length + 1) ≤ w) :
    (shift poly)^[8] (word w bytes <<< 8) = word w bytes :=
  shifts_shiftLeft poly fun _ hi => getLsbD_word (by omega)

/-- Bytes that fit the register are absorbed as one word. -/
theorem run_word (c : BitVec w) {bytes : List (BitVec 8)} (h : 8 * bytes.length ≤ w) :
    run poly c bytes = (shift poly)^[8 * bytes.length] (c ^^^ word w bytes) := by
  induction bytes generalizing c with
  | nil => exact (BitVec.xor_zero).symm
  | cons byte bytes ih =>
    rw [List.length_cons] at h
    have hsteps : 8 * (byte :: bytes).length = 8 * bytes.length + 8 := by rw [List.length_cons]; omega
    calc run poly c (byte :: bytes) = run poly (absorb poly c byte) bytes := rfl
      _ = (shift poly)^[8 * bytes.length] (absorb poly c byte ^^^ word w bytes) := ih _ (by omega)
      _ = (shift poly)^[8 * bytes.length]
          ((shift poly)^[8] (c ^^^ byte.setWidth w ^^^ word w bytes <<< 8)) := by
        rw [shifts_xor poly 8, shifts_word_shift poly h, absorb]
      _ = (shift poly)^[8 * (byte :: bytes).length] (c ^^^ word w (byte :: bytes)) := by
        rw [hsteps, Function.iterate_add_apply, BitVec.xor_assoc]
        rfl

theorem word_injective {bytes bytes' : List (BitVec 8)} (hlength : bytes.length = bytes'.length)
    (hfits : 8 * bytes.length ≤ w) (h : word w bytes = word w bytes') : bytes = bytes' := by
  induction bytes generalizing bytes' with
  | nil => exact (List.eq_nil_of_length_eq_zero hlength.symm).symm
  | cons byte bytes ih =>
    cases bytes' with
    | nil => cases hlength
    | cons byte' bytes' =>
      have hsame : bytes.length = bytes'.length := Nat.succ.inj hlength
      rw [List.length_cons] at hfits
      have hbit : ∀ i, (word w (byte :: bytes)).getLsbD i = (word w (byte' :: bytes')).getLsbD i := by
        rw [h]; exact fun _ => rfl
      simp only [word, BitVec.getLsbD_xor, BitVec.getLsbD_shiftLeft] at hbit
      have hfirst : byte = byte' := by
        apply BitVec.eq_of_getLsbD_eq
        intro i hi
        have hlow := hbit i
        simpa [BitVec.getLsbD_setWidth, hi, show i < w by omega] using hlow
      have hshifted : (word w bytes <<< 8) >>> 8 = (word w bytes' <<< 8) >>> 8 := by
        apply BitVec.eq_of_getLsbD_eq
        intro i hi
        have hhigh := hbit (8 + i)
        rw [getLsbD_byte (by omega), getLsbD_byte (by omega), Bool.false_xor, Bool.false_xor] at hhigh
        rwa [BitVec.getLsbD_ushiftRight, BitVec.getLsbD_ushiftRight, BitVec.getLsbD_shiftLeft,
          BitVec.getLsbD_shiftLeft]
      rw [word_shift hfits, word_shift (by omega)] at hshifted
      rw [hfirst, ih hsame (by omega) hshifted]

/-- A change within as many bytes as the register holds is never lost, whatever follows. -/
theorem run_burst (h : poly.msb = true) (c : BitVec w) (front back : List (BitVec 8))
    {burst burst' : List (BitVec 8)} (hlength : burst.length = burst'.length) (hfits : 8 * burst.length ≤ w)
    (hsame : run poly c (front ++ burst ++ back) = run poly c (front ++ burst' ++ back)) :
    burst = burst' := by
  rw [run_append, run_append, run_append, run_append] at hsame
  have hburst : run poly (run poly c front) burst = run poly (run poly c front) burst' :=
    run_injective poly h back hsame
  rw [run_word poly (run poly c front) hfits,
    @run_word _ poly (run poly c front) burst' (by omega), ← hlength] at hburst
  have hword := shifts_injective poly h _ hburst
  have hcancel := congrArg (run poly c front ^^^ ·) hword
  rw [← BitVec.xor_assoc, ← BitVec.xor_assoc, BitVec.xor_self, BitVec.zero_xor, BitVec.zero_xor] at hcancel
  exact word_injective hlength hfits hcancel

theorem word_lowBytes {count : Nat} (c : BitVec w) (h : ∀ i, 8 * count ≤ i → c.getLsbD i = false) :
    word w (lowBytes count c) = c := by
  induction count generalizing c with
  | zero => exact (BitVec.eq_of_getLsbD_eq fun i _ => by rw [h i (Nat.zero_le i)]; simp [word, lowBytes])
  | succ count ih =>
    have hrest : ∀ i, 8 * count ≤ i → (c >>> 8).getLsbD i = false := by
      intro i hi
      rw [BitVec.getLsbD_ushiftRight]
      exact h _ (by omega)
    calc word w (lowBytes (count + 1) c)
        = (c.setWidth 8).setWidth w ^^^ (word w (lowBytes count (c >>> 8)) <<< 8) := rfl
      _ = (c.setWidth 8).setWidth w ^^^ ((c >>> 8) <<< 8) := by rw [ih _ hrest]
      _ = c := low_high c 8

/-- What `steps` bytes of zeros make of each byte of a word: one table entry a byte, the first byte in the
table of the most steps. -/
def lookups : Nat → List (BitVec 8) → BitVec w
  | _, [] => 0
  | 0, _ :: _ => 0
  | steps + 1, byte :: bytes => (shift poly)^[8 * (steps + 1)] (byte.setWidth w) ^^^ lookups steps bytes

theorem shifts_lookups {steps : Nat} {bytes : List (BitVec 8)} (hsteps : bytes.length ≤ steps)
    (hfits : 8 * bytes.length ≤ w) : (shift poly)^[8 * steps] (word w bytes) = lookups poly steps bytes := by
  induction bytes generalizing steps with
  | nil =>
    have hzero := shifts_clear poly (show ∀ i < 8 * steps, (0 : BitVec w).getLsbD i = false by simp)
    simpa [word, lookups] using hzero
  | cons byte bytes ih =>
    rw [List.length_cons] at hsteps hfits
    obtain ⟨steps, rfl⟩ : ∃ less, steps = less + 1 := ⟨steps - 1, by omega⟩
    have hrest : (shift poly)^[8 * (steps + 1)] (word w bytes <<< 8) = lookups poly steps bytes := by
      rw [Nat.mul_succ, Function.iterate_add_apply, shifts_word_shift poly hfits]
      exact ih (by omega) (by omega)
    rw [word, shifts_xor, hrest, lookups]

end ShiftRegister
