import Mathlib.Algebra.Group.Nat.Defs
import Mathlib.Data.List.Basic
import Mathlib.Order.Basic

namespace Leb128

/-- `Form n bs`: the groups of `bs`, least significant first, spell the number `n`, and every byte
but the last one says by its high bit that another follows. -/
inductive Form : Nat → List UInt8 → Prop
  | last {b : UInt8} : b.toNat < 128 → Form b.toNat [b]
  | more {b : UInt8} {n : Nat} {bs : List UInt8} : 128 ≤ b.toNat → Form n bs →
      Form (b.toNat - 128 + 128 * n) (b :: bs)

/-- The shortest form of a number. -/
def Minimal (n : Nat) (bs : List UInt8) : Prop :=
  Form n bs ∧ ∀ cs, Form n cs → bs.length ≤ cs.length

theorem Form.length_pos {n : Nat} {bs : List UInt8} (h : Form n bs) : 0 < bs.length := by
  cases h <;> simp

theorem Form.lt_pow {n : Nat} {bs : List UInt8} (h : Form n bs) : n < 128 ^ bs.length := by
  induction h with
  | last hb => simpa using hb
  | @more b n bs _ _ ih =>
    have hb := b.toNat_lt
    rw [List.length_cons, Nat.pow_succ]
    omega

theorem Form.eq_of_length {n : Nat} {bs cs : List UInt8} (h : Form n bs) (k : Form n cs)
    (hlen : bs.length = cs.length) : bs = cs := by
  induction h generalizing cs with
  | @last b hb =>
    generalize hn : b.toNat = n at k
    cases k with
    | last => rw [UInt8.toNat_inj.mp hn]
    | more _ ht =>
      have := ht.length_pos
      simp only [List.length_cons, List.length_nil] at hlen
      omega
  | @more b n bs hb ht ih =>
    have hb' := b.toNat_lt
    generalize hm : b.toNat - 128 + 128 * n = m at k
    cases k with
    | last =>
      have := ht.length_pos
      simp only [List.length_cons, List.length_nil] at hlen
      omega
    | @more c k cs hc kt =>
      have hc' := c.toNat_lt
      have hnk : n = k := by omega
      subst hnk
      have hbc : b = c := UInt8.toNat_inj.mp (by omega)
      rw [hbc, ih kt (by simpa using hlen)]

/-- A form whose last group is in use cannot be shortened. -/
theorem Form.minimal {n : Nat} {bs : List UInt8} (h : Form n bs)
    (hused : bs.length = 1 ∨ 128 ^ (bs.length - 1) ≤ n) : Minimal n bs := by
  refine ⟨h, fun cs k => ?_⟩
  have hpos := k.length_pos
  rcases hused with hone | hle
  · omega
  · have hlt : 128 ^ (bs.length - 1) < 128 ^ cs.length := Nat.lt_of_le_of_lt hle k.lt_pow
    have := (Nat.pow_lt_pow_iff_right (by omega)).mp hlt
    omega

theorem Minimal.unique {n : Nat} {bs cs : List UInt8} (h : Minimal n bs) (k : Minimal n cs) :
    bs = cs :=
  h.1.eq_of_length k.1 (Nat.le_antisymm (h.2 _ k.1) (k.2 _ h.1))

end Leb128
