import Mathlib.Data.List.Sort

namespace StableSort

variable {α κ : Type*} [LinearOrder κ] (key : α → κ)

/-- Insertion sort leaves elements of equal keys in their order. -/
def sort (xs : List α) : List α := xs.insertionSort fun a b => key a ≤ key b

/-- `ys` is `xs` sorted by `key` with elements of equal keys left in their order. -/
structure Sorted (xs ys : List α) : Prop where
  perm : ys.Perm xs
  sorted : ys.Pairwise fun a b => key a ≤ key b
  stable : ∀ k, ys.filter (key · = k) = xs.filter (key · = k)

variable {key}

instance order_total : Std.Total fun a b : α => key a ≤ key b := ⟨fun a b => le_total (key a) (key b)⟩

instance order_trans : IsTrans α fun a b => key a ≤ key b := ⟨fun _ _ _ => le_trans⟩

theorem sort_sorted (xs : List α) : Sorted key xs (sort key xs) where
  perm := List.perm_insertionSort _ xs
  sorted := List.pairwise_insertionSort _ xs
  stable k := by
    have hsame : (xs.filter (key · = k)).Pairwise fun a b => key a ≤ key b := by
      apply List.pairwise_of_forall_mem_list
      intro a ha b hb
      rw [List.mem_filter, decide_eq_true_eq] at ha hb
      rw [ha.2, hb.2]
    have hsub := (List.sublist_insertionSort hsame List.filter_sublist).filter (key · = k)
    rw [List.filter_filter] at hsub
    simp only [Bool.and_self] at hsub
    refine (hsub.eq_of_length ?_).symm
    exact ((List.perm_insertionSort _ xs).filter _).length_eq.symm

/-- Sorting anew after each element is sorting once. -/
theorem Sorted.snoc {xs ys : List α} (h : Sorted key xs ys) (x : α) :
    Sorted key (xs ++ [x]) (sort key (ys ++ [x])) := by
  obtain ⟨hperm, hsorted, hstable⟩ : Sorted key _ _ := sort_sorted (ys ++ [x])
  refine ⟨hperm.trans (h.perm.append_right [x]), hsorted, fun k => ?_⟩
  rw [hstable k, List.filter_append, h.stable k, ← List.filter_append]

theorem Sorted.nil : Sorted key ([] : List α) [] := ⟨.refl _, .nil, fun _ => rfl⟩

/-- Sorting leaves an order on the elements in force between those of equal keys. -/
theorem Sorted.lex {xs ys : List α} (h : Sorted key xs ys) {R : α → α → Prop} (hR : xs.Pairwise R) :
    ys.Pairwise fun a b => key a < key b ∨ key a = key b ∧ R a b := by
  rw [List.pairwise_iff_forall_sublist]
  intro a b hab
  have hle : key a ≤ key b := List.pairwise_iff_forall_sublist.mp h.sorted hab
  rcases hle.lt_or_eq with hlt | heq
  · exact .inl hlt
  · have hsame := hab.filter (key · = key a)
    rw [h.stable, List.filter_cons_of_pos (by simp), List.filter_cons_of_pos (by simp [heq])] at hsame
    have hsub : [a, b].Sublist xs := by simpa using hsame.trans List.filter_sublist
    exact .inr ⟨heq, List.pairwise_iff_forall_sublist.mp hR hsub⟩

/-- Elements in order of their keys and, for equal keys, in the order `R` of `xs` are `xs` sorted. -/
theorem eq_sort {xs ys : List α} {R : α → α → Prop} (hasymm : ∀ a b, R a b → ¬ R b a)
    (hxs : xs.Pairwise R) (hperm : ys.Perm xs)
    (hys : ys.Pairwise fun a b => key a < key b ∨ key a = key b ∧ R a b) : ys = sort key xs := by
  have hsorted : Sorted key xs (sort key xs) := sort_sorted xs
  refine List.Perm.eq_of_pairwise ?_ hys (hsorted.lex hxs) (hperm.trans hsorted.perm.symm)
  rintro a b - - (hab | ⟨hab, hR⟩) (hba | ⟨hba, hR'⟩)
  · exact absurd hba hab.asymm
  · exact absurd hab hba.not_gt
  · exact absurd hba hab.not_gt
  · exact absurd hR' (hasymm a b hR)

/-- Where what meets `p` comes first, it is what one meets up to the first that does not. -/
theorem takeWhile_dropWhile_eq_filter {p : α → Bool} {xs : List α}
    (h : xs.Pairwise fun a b => p b = true → p a = true) :
    xs.takeWhile p = xs.filter p ∧ xs.dropWhile p = xs.filter (! p ·) := by
  induction xs with
  | nil => exact ⟨rfl, rfl⟩
  | cons x xs ih =>
    obtain ⟨hx, hxs⟩ := List.pairwise_cons.mp h
    obtain ⟨htake, hdrop⟩ := ih hxs
    cases hp : p x with
    | true => simp [hp, htake, hdrop]
    | false =>
      have hnone : ∀ a ∈ xs, p a = false := by
        intro a ha
        by_contra hpa
        rw [hx a ha (Bool.eq_true_of_not_eq_false hpa)] at hp
        cases hp
      have hfilter : xs.filter p = [] := List.filter_eq_nil_iff.mpr fun a ha => by simp [hnone a ha]
      have hkeep : xs.filter (! p ·) = xs := List.filter_eq_self.mpr fun a ha => by simp [hnone a ha]
      simp [hp, hfilter, hkeep]

/-- An element that belongs at the end stays there. -/
theorem sort_snoc {xs : List α} (h : xs.Pairwise fun a b => key a ≤ key b) {x : α}
    (hx : ∀ a ∈ xs, key a ≤ key x) : sort key (xs ++ [x]) = xs ++ [x] := by
  refine List.Pairwise.insertionSort_eq (List.pairwise_append.mpr ⟨h, List.pairwise_singleton _ _, ?_⟩)
  intro a ha b hb
  rw [List.mem_singleton.mp hb]
  exact hx a ha

end StableSort
