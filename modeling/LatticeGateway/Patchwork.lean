import Mathlib.Data.List.Basic
import Mathlib.Order.Basic

namespace Patchwork

variable {α : Type*}

/-- Some items, and where the first of them belongs. -/
structure Patch (α : Type*) where
  start : Nat
  items : List α

def Patch.stop (p : Patch α) : Nat := p.start + p.items.length

/-- What a patch has at a position. -/
def Patch.at (p : Patch α) (i : Nat) : Option α := if p.start ≤ i then p.items[i - p.start]? else none

theorem Patch.at_eq_some_iff {p : Patch α} {i : Nat} {a : α} :
    p.at i = some a ↔ p.start ≤ i ∧ p.items[i - p.start]? = some a := by
  unfold Patch.at
  split
  next h => simp [h]
  next h => simp [h]

theorem Patch.at_bounds {p : Patch α} {i : Nat} {a : α} (h : p.at i = some a) :
    p.start ≤ i ∧ i < p.stop := by
  obtain ⟨hle, hitem⟩ := Patch.at_eq_some_iff.mp h
  have hlt := (List.getElem?_eq_some_iff.mp hitem).1
  unfold Patch.stop
  omega

theorem Patch.at_of_bounds {p : Patch α} {i : Nat} (hle : p.start ≤ i) (hlt : i < p.stop) :
    ∃ a, p.at i = some a := by
  unfold Patch.stop at hlt
  have hindex : i - p.start < p.items.length := by omega
  exact ⟨p.items[i - p.start], Patch.at_eq_some_iff.mpr ⟨hle, List.getElem?_eq_getElem hindex⟩⟩

/-- The partial map that the patches make. -/
def known (ps : List (Patch α)) (i : Nat) : Option α := ps.findSome? (·.at i)

/-- Where both are defined they are the same. -/
def Agree (f g : Nat → Option α) : Prop := ∀ i a b, f i = some a → g i = some b → a = b

/-- `f`, and `g` where `f` says nothing. -/
def overlay (f g : Nat → Option α) (i : Nat) : Option α := (f i).or (g i)

def Covers (f : Nat → Option α) (n : Nat) : Prop := ∀ i < n, ∃ a, f i = some a

def Consistent (ps : List (Patch α)) : Prop := ∀ p ∈ ps, ∀ q ∈ ps, Agree p.at q.at

theorem Agree.symm {f g : Nat → Option α} (h : Agree f g) : Agree g f :=
  fun i a b hg hf => (h i b a hf hg).symm

theorem agree_self (f : Nat → Option α) : Agree f f := by
  intro i a b ha hb
  rw [ha] at hb
  exact Option.some.inj hb

/-- Nothing new is learnt from what is known already. -/
theorem overlay_eq_left {f g : Nat → Option α} (h : ∀ i a, g i = some a → f i = some a) :
    overlay f g = f := by
  funext i
  unfold overlay
  cases hf : f i with
  | some a => rfl
  | none =>
    cases hg : g i with
    | none => rfl
    | some a =>
      rw [h i a hg] at hf
      cases hf

theorem known_mem {ps : List (Patch α)} {i : Nat} {a : α} (h : known ps i = some a) :
    ∃ p ∈ ps, p.at i = some a := by
  obtain ⟨p, hp, ha⟩ := List.exists_of_findSome?_eq_some h
  exact ⟨p, hp, ha⟩

theorem known_of_mem {ps : List (Patch α)} (hps : Consistent ps) {p : Patch α} (hp : p ∈ ps) {i : Nat}
    {a : α} (h : p.at i = some a) : known ps i = some a := by
  cases hknown : known ps i with
  | none =>
    have hnone := List.findSome?_eq_none_iff.mp hknown p hp
    rw [h] at hnone
    cases hnone
  | some b =>
    obtain ⟨q, hq, hb⟩ := known_mem hknown
    rw [hps q hq p hp i b a hb h]

theorem covers_known_iff {ps : List (Patch α)} (n : Nat) :
    Covers (known ps) n ↔ ∀ i < n, ∃ p ∈ ps, p.start ≤ i ∧ i < p.stop := by
  refine forall_congr' fun i => imp_congr_right fun _ => ⟨?_, ?_⟩
  · rintro ⟨a, ha⟩
    obtain ⟨p, hp, hat⟩ := known_mem ha
    exact ⟨p, hp, Patch.at_bounds hat⟩
  · rintro ⟨p, hp, hle, hlt⟩
    obtain ⟨a, ha⟩ := Patch.at_of_bounds hle hlt
    cases hknown : known ps i with
    | some b => exact ⟨b, rfl⟩
    | none =>
      have hnone := List.findSome?_eq_none_iff.mp hknown p hp
      rw [ha] at hnone
      cases hnone

theorem Consistent.perm {ps qs : List (Patch α)} (h : Consistent ps) (hperm : ps.Perm qs) :
    Consistent qs :=
  fun p hp q hq => h p (hperm.mem_iff.mpr hp) q (hperm.mem_iff.mpr hq)

/-- Consistent patches make the same map in any order. -/
theorem known_perm {ps qs : List (Patch α)} (h : Consistent ps) (hperm : ps.Perm qs) :
    known qs = known ps := by
  have hqs := h.perm hperm
  funext i
  refine Option.ext fun a => ⟨fun hknown => ?_, fun hknown => ?_⟩
  · obtain ⟨p, hp, ha⟩ := known_mem hknown
    exact known_of_mem h (hperm.mem_iff.mpr hp) ha
  · obtain ⟨p, hp, ha⟩ := known_mem hknown
    exact known_of_mem hqs (hperm.mem_iff.mp hp) ha

theorem known_concat (ps : List (Patch α)) (p : Patch α) :
    known (ps ++ [p]) = overlay (known ps) p.at := by
  funext i
  unfold known overlay
  rw [List.findSome?_append]
  cases h : p.at i <;> simp [h]

theorem agree_known_iff {ps : List (Patch α)} (h : Consistent ps) (f : Nat → Option α) :
    Agree (known ps) f ↔ ∀ p ∈ ps, Agree p.at f := by
  constructor
  · intro hknown p hp i a b ha hb
    exact hknown i a b (known_of_mem h hp ha) hb
  · intro hall i a b ha hb
    obtain ⟨p, hp, hat⟩ := known_mem ha
    exact hall p hp i a b hat hb

theorem Consistent.concat {ps : List (Patch α)} (h : Consistent ps) {p : Patch α}
    (hp : ∀ q ∈ ps, Agree q.at p.at) : Consistent (ps ++ [p]) := by
  intro q hq q' hq'
  rcases List.mem_append.mp hq with hq | hq
  · rcases List.mem_append.mp hq' with hq' | hq'
    · exact h q hq q' hq'
    · rw [List.mem_singleton.mp hq']
      exact hp q hq
  · rw [List.mem_singleton.mp hq]
    rcases List.mem_append.mp hq' with hq' | hq'
    · exact (hp q' hq').symm
    · rw [List.mem_singleton.mp hq']
      exact agree_self p.at

/-- How far the patches reach without a gap from `reached` on, when they come in order. -/
def sweep : List (Patch α) → Nat → Option Nat
  | [], reached => some reached
  | p :: ps, reached => if p.start > reached then none else sweep ps (max reached p.stop)

/-- The sweep gets to `n` exactly when no position below it is left out. -/
theorem sweep_iff {ps : List (Patch α)} {reached n : Nat}
    (hsorted : ps.Pairwise fun p q => p.start ≤ q.start) (hinside : ∀ p ∈ ps, p.start ≤ n) :
    (∃ stop, sweep ps reached = some stop ∧ n ≤ stop) ↔
      ∀ i, reached ≤ i → i < n → ∃ p ∈ ps, p.start ≤ i ∧ i < p.stop := by
  induction ps generalizing reached with
  | nil =>
    have hreached : (∃ stop, sweep ([] : List (Patch α)) reached = some stop ∧ n ≤ stop) ↔ n ≤ reached := by
      simp [sweep]
    rw [hreached]
    constructor
    · intro hle i hge hlt
      omega
    · intro hall
      by_contra hlt
      obtain ⟨p, hp, _⟩ := hall reached (Nat.le_refl _) (by omega)
      cases hp
  | cons p ps ih =>
    obtain ⟨hfirst, hrest⟩ := List.pairwise_cons.mp hsorted
    have hn := hinside p (by simp)
    unfold sweep
    by_cases hgap : p.start > reached
    · rw [if_pos hgap]
      constructor
      · rintro ⟨stop, hstop, _⟩
        cases hstop
      · intro hall
        -- the first position past what is reached lies before every patch
        obtain ⟨q, hq, hle, _⟩ := hall reached (Nat.le_refl _) (by omega)
        have hstart : p.start ≤ q.start := by
          rcases List.mem_cons.mp hq with rfl | hq
          · exact Nat.le_refl _
          · exact hfirst q hq
        omega
    · rw [if_neg hgap, ih hrest fun q hq => hinside q (List.mem_cons_of_mem _ hq)]
      constructor
      · intro hall i hge hlt
        by_cases hin : i < p.stop
        · exact ⟨p, by simp, by omega, hin⟩
        · obtain ⟨q, hq, hbounds⟩ := hall i (by omega) hlt
          exact ⟨q, List.mem_cons_of_mem _ hq, hbounds⟩
      · intro hall i hge hlt
        obtain ⟨q, hq, hle, hin⟩ := hall i (by omega) hlt
        rcases List.mem_cons.mp hq with rfl | hq
        · omega
        · exact ⟨q, hq, hle, hin⟩

/-- The patch written over the buffer. -/
def paint (buffer : List α) (p : Patch α) : List α :=
  buffer.take p.start ++ p.items ++ buffer.drop p.stop

theorem length_paint {buffer : List α} {p : Patch α} (h : p.stop ≤ buffer.length) :
    (paint buffer p).length = buffer.length := by
  unfold paint Patch.stop at *
  rw [List.length_append, List.length_append, List.length_take, List.length_drop]
  omega

theorem getElem?_paint {buffer : List α} {p : Patch α} (h : p.stop ≤ buffer.length) (i : Nat) :
    (paint buffer p)[i]? = (p.at i).or buffer[i]? := by
  have hstop : p.stop = p.start + p.items.length := rfl
  have htake : (buffer.take p.start).length = p.start := by
    rw [List.length_take]
    omega
  have hhead : (buffer.take p.start ++ p.items).length = p.stop := by
    rw [List.length_append, htake, hstop]
  unfold paint Patch.at
  by_cases hbefore : i < p.start
  · rw [List.getElem?_append_left (by omega), List.getElem?_append_left (by omega),
      if_neg (by omega), List.getElem?_take_of_lt hbefore]
    rfl
  rw [if_pos (by omega)]
  by_cases hin : i < p.stop
  · rw [List.getElem?_append_left (by omega), List.getElem?_append_right (by omega), htake,
      List.getElem?_eq_getElem (by omega)]
    rfl
  · rw [List.getElem?_append_right (by omega), hhead, List.getElem?_drop,
      List.getElem?_eq_none (by omega : p.items.length ≤ i - p.start), Option.none_or,
      Nat.add_sub_cancel' (by omega)]

theorem getElem?_foldl_paint {ps : List (Patch α)} (h : Consistent ps) {buffer : List α}
    (hinside : ∀ p ∈ ps, p.stop ≤ buffer.length) (i : Nat) :
    (ps.foldl paint buffer)[i]? = (known ps i).or buffer[i]? := by
  induction ps generalizing buffer with
  | nil => rfl
  | cons p ps ih =>
    have hp := hinside p (by simp)
    have hps : Consistent ps := fun q hq q' hq' =>
      h q (List.mem_cons_of_mem _ hq) q' (List.mem_cons_of_mem _ hq')
    rw [List.foldl_cons, ih hps fun q hq => by
      rw [length_paint hp]
      exact hinside q (List.mem_cons_of_mem _ hq), getElem?_paint hp]
    cases hat : p.at i with
    | none =>
      have hknown : known (p :: ps) i = known ps i := by
        unfold known
        rw [List.findSome?_cons, hat]
      rw [hknown, Option.none_or]
    | some a =>
      rw [known_of_mem h (List.mem_cons_self ..) hat]
      cases hrest : known ps i with
      | none => rfl
      | some b =>
        obtain ⟨q, hq, hb⟩ := known_mem hrest
        rw [h p (by simp) q (List.mem_cons_of_mem _ hq) i a b hat hb]
        rfl

/-- The first `n` items of a map that has them. -/
def assembled (n : Nat) (f : Nat → Option α) (blank : α) : List α :=
  (List.range n).map fun i => (f i).getD blank

/-- Consistent patches that cover a buffer fill it with what they make known. -/
theorem foldl_paint_eq_assembled {ps : List (Patch α)} (h : Consistent ps) {n : Nat}
    (hinside : ∀ p ∈ ps, p.stop ≤ n) (blank : α) :
    ps.foldl paint (List.replicate n blank) = assembled n (known ps) blank := by
  refine List.ext_getElem? fun i => ?_
  rw [getElem?_foldl_paint h fun p hp => by
    rw [List.length_replicate]
    exact hinside p hp]
  unfold assembled
  rw [List.getElem?_map, List.getElem?_replicate]
  by_cases hlt : i < n
  · rw [if_pos hlt, List.getElem?_range hlt, Option.map_some]
    cases known ps i <;> rfl
  · rw [if_neg hlt, List.getElem?_eq_none (by rw [List.length_range]; omega)]
    cases hknown : known ps i with
    | none => rfl
    | some a =>
      obtain ⟨p, hp, hat⟩ := known_mem hknown
      have hbounds := (Patch.at_bounds hat).2
      have hstop := hinside p hp
      omega

end Patchwork
