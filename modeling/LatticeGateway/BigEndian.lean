import Mathlib.Algebra.Group.Nat.Defs
import Mathlib.Data.List.Induction
import Mathlib.Data.Nat.Basic

namespace BigEndian

/-- The number a byte string denotes, most significant byte first. -/
def value (bs : List UInt8) : Nat := bs.foldl (fun acc b => acc * 256 + b.toNat) 0

/-- The `width` low-order bytes of a number, most significant byte first. -/
def digits : Nat → Nat → List UInt8
  | 0, _ => []
  | width + 1, n => digits width (n / 256) ++ [UInt8.ofNat n]

@[simp] theorem length_digits (width n : Nat) : (digits width n).length = width := by
  induction width generalizing n with
  | zero => rfl
  | succ width ih => simp [digits, ih]

theorem value_concat (bs : List UInt8) (b : UInt8) :
    value (bs ++ [b]) = value bs * 256 + b.toNat := by
  simp [value, List.foldl_append]

theorem value_digits (width n : Nat) : value (digits width n) = n % 256 ^ width := by
  induction width generalizing n with
  | zero => simp [digits, value, Nat.mod_one]
  | succ width ih =>
    have hp : 256 ^ (width + 1) = 256 * 256 ^ width := by rw [Nat.pow_succ, Nat.mul_comm]
    rw [digits, value_concat, ih, UInt8.toNat_ofNat', hp, Nat.mod_mul]
    omega

theorem value_lt (bs : List UInt8) : value bs < 256 ^ bs.length := by
  induction bs using List.reverseRecOn with
  | nil => simp [value]
  | append_singleton bs b ih =>
    rw [value_concat, List.length_append, List.length_singleton, Nat.pow_succ]
    have := b.toNat_lt
    omega

theorem digits_value (bs : List UInt8) : digits bs.length (value bs) = bs := by
  induction bs using List.reverseRecOn with
  | nil => rfl
  | append_singleton bs b ih =>
    have hb := b.toNat_lt
    rw [List.length_append, List.length_singleton, digits, value_concat,
      show (value bs * 256 + b.toNat) / 256 = value bs by omega, ih]
    congr 2
    apply UInt8.toNat_inj.mp
    rw [UInt8.toNat_ofNat']
    omega

end BigEndian
