import Mathlib.Algebra.Ring.Nat
import Mathlib.Data.List.Basic

namespace RefCounts

/-- One slot is replaced in a count of slots. -/
theorem countP_replace {β : Type*} {p : β → Bool} {slots : List β} {i : Nat} {old : β} (slot : β)
    (h : slots[i]? = some old) : (slots.set i slot).countP p + (if p old then 1 else 0) =
      slots.countP p + if p slot then 1 else 0 := by
  obtain ⟨hlt, rfl⟩ := List.getElem?_eq_some_iff.mp h
  have hcount := @List.countP_set β p slots i slot hlt
  have hle := @List.boole_getElem_le_countP β p slots i hlt
  omega

/-- One slot is replaced in a sum over the slots. -/
theorem sum_replace {β : Type*} {w : β → Nat} {slots : List β} {i : Nat} {old : β} (slot : β)
    (h : slots[i]? = some old) :
    ((slots.set i slot).map w).sum + w old = (slots.map w).sum + w slot := by
  induction slots generalizing i with
  | nil => simp at h
  | cons first slots ih =>
    cases i with
    | zero =>
      obtain rfl : first = old := by simpa using h
      simp only [List.set_cons_zero, List.map_cons, List.sum_cons]
      omega
    | succ i =>
      have hrest := ih (by simpa using h)
      simp only [List.set_cons_succ, List.map_cons, List.sum_cons]
      omega

variable {α β : Type*} [DecidableEq α] {ref : β → Option α}

/-- The number of slots that refer to `a`. -/
def count (ref : β → Option α) (slots : List β) (a : α) : Nat := slots.countP (ref · = some a)

/-- What a slot adds to the count. -/
def weight (ref : β → Option α) (slot : β) (a : α) : Nat := if ref slot = some a then 1 else 0

theorem weight_of_none {slot : β} (h : ref slot = none) (a : α) : weight ref slot a = 0 := by
  unfold weight
  rw [h, if_neg (by simp)]

theorem count_pos {slots : List β} {a : α} : 0 < count ref slots a ↔ ∃ slot ∈ slots, ref slot = some a := by
  unfold count
  rw [List.countP_pos_iff]
  simp

theorem count_snoc (slots : List β) (slot : β) (a : α) :
    count ref (slots ++ [slot]) a = count ref slots a + weight ref slot a := by
  simp [count, weight, List.countP_append, List.countP_singleton]

theorem count_set {slots : List β} {i : Nat} {old slot : β} (h : slots[i]? = some old) (a : α) :
    count ref (slots.set i slot) a + weight ref old a = count ref slots a + weight ref slot a := by
  have hcount := countP_replace (p := (ref · = some a)) slot h
  simp only [decide_eq_true_eq] at hcount
  exact hcount

/-- A slot that lets go of its reference. -/
theorem count_drop {slots : List β} {i : Nat} {old empty : β} (h : slots[i]? = some old)
    (hempty : ref empty = none) (a : α) :
    count ref (slots.set i empty) a + weight ref old a = count ref slots a := by
  rw [count_set h, weight_of_none hempty, Nat.add_zero]

/-- A new slot that takes over the reference of another one. -/
theorem count_move {slots : List β} {i : Nat} {slot empty : β} (h : slots[i]? = some slot)
    (hempty : ref empty = none) (a : α) :
    count ref (slots.set i empty ++ [slot]) a = count ref slots a := by
  rw [count_snoc, count_drop h hempty]

/-- A slot that lets go of its reference and takes over that of another one. -/
theorem count_take {slots : List β} {i j : Nat} {old slot empty : β} (hne : i ≠ j)
    (hold : slots[i]? = some old) (hslot : slots[j]? = some slot) (hempty : ref empty = none) (a : α) :
    count ref ((slots.set i slot).set j empty) a + weight ref old a = count ref slots a := by
  have hkept : (slots.set i slot)[j]? = some slot := by rw [List.getElem?_set_ne hne, hslot]
  have hdrop := count_drop hkept hempty a
  have hset := @count_set _ _ _ ref slots i old slot hold a
  omega

end RefCounts
