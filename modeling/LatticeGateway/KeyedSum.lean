import Mathlib.Algebra.Order.BigOperators.Group.List
import Mathlib.Algebra.Order.Group.Nat
import Mathlib.Algebra.Ring.Nat
import Mathlib.Data.List.AList

namespace KeyedSum

variable {κ β : Type*}

/-- What the values of a map come to. -/
def total (size : β → Nat) (s : AList fun _ : κ => β) : Nat := (s.entries.map fun entry => size entry.2).sum

/-- A size of one counts the keys. -/
theorem total_one (s : AList fun _ : κ => β) : total (fun _ => 1) s = s.keys.length := by
  unfold total AList.keys List.keys
  rw [List.length_map, List.map_const', List.sum_replicate_nat, Nat.mul_one]

variable [DecidableEq κ]

theorem sum_kerase (size : β → Nat) (key : κ) (entries : List (Σ _ : κ, β)) :
    ((entries.kerase key).map fun entry => size entry.2).sum +
      ((entries.dlookup key).map size).getD 0 = (entries.map fun entry => size entry.2).sum := by
  induction entries with
  | nil => rfl
  | cons entry entries ih =>
    by_cases h : key = entry.1
    · obtain ⟨other, value⟩ := entry
      subst h
      rw [List.kerase_cons_eq (show key = (⟨key, value⟩ : Σ _ : κ, β).1 from rfl),
        List.dlookup_cons_eq, List.map_cons, List.sum_cons]
      exact Nat.add_comm _ _
    · rw [List.kerase_cons_ne h, List.dlookup_cons_ne _ _ h, List.map_cons, List.sum_cons,
        List.map_cons, List.sum_cons, ← ih]
      omega

theorem total_erase (size : β → Nat) (s : AList fun _ : κ => β) (key : κ) :
    total size (s.erase key) + ((s.lookup key).map size).getD 0 = total size s :=
  sum_kerase size key s.entries

theorem total_insert (size : β → Nat) (s : AList fun _ : κ => β) (key : κ) (value : β) :
    total size (s.insert key value) + ((s.lookup key).map size).getD 0 = total size s + size value := by
  have herase := total_erase size s key
  have hinsert : total size (s.insert key value) = size value + total size (s.erase key) := by
    unfold total
    rw [AList.entries_insert, List.map_cons, List.sum_cons]
    rfl
  omega

theorem total_mono {size size' : β → Nat} {s : AList fun _ : κ => β}
    (h : ∀ key value, s.lookup key = some value → size value ≤ size' value) :
    total size s ≤ total size' s := by
  refine List.sum_le_sum fun entry hentry => ?_
  exact h entry.1 entry.2 (List.mem_dlookup s.nodupKeys hentry)

end KeyedSum
