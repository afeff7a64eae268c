import Mathlib.Data.List.Basic

namespace StreamDecoder

variable {β φ ε : Type*}

/-- What a decoder says about the input it holds at its cursor. -/
inductive Verdict (φ ε : Type*)
  | needMore
  | fail (e : ε)
  | item (x : φ) (size : Nat)

/-- How a decoded input ends: a rest that is still undecided, or a rejection. -/
inductive Tail (β ε : Type*)
  | rest (xs : List β)
  | failed (e : ε)

/-- `Decodes step xs fs t`: the decoder reads the items `fs` off `xs` and stops with `t`. -/
inductive Decodes (step : List β → Verdict φ ε) : List β → List φ → Tail β ε → Prop
  | rest {xs} : step xs = .needMore → Decodes step xs [] (.rest xs)
  | failed {xs e} : step xs = .fail e → Decodes step xs [] (.failed e)
  | item {xs x n fs t} : step xs = .item x n → Decodes step (xs.drop n) fs t →
      Decodes step xs (x :: fs) t

/-- Input that arrives later never changes a verdict that is already out, and every item takes some,
and only available, input and is read from what it takes alone. -/
structure Stable (step : List β → Verdict φ ε) : Prop where
  fail_append : ∀ {xs e}, step xs = .fail e → ∀ ys, step (xs ++ ys) = .fail e
  item_append : ∀ {xs x n}, step xs = .item x n → ∀ ys, step (xs ++ ys) = .item x n
  item_pos : ∀ {xs x n}, step xs = .item x n → 0 < n
  item_le : ∀ {xs x n}, step xs = .item x n → n ≤ xs.length
  item_take : ∀ {xs x n}, step xs = .item x n → step (xs.take n) = .item x n

theorem Decodes.unique {step : List β → Verdict φ ε} {xs : List β} {fs gs : List φ}
    {t u : Tail β ε} (h : Decodes step xs fs t) (k : Decodes step xs gs u) : fs = gs ∧ t = u := by
  induction h generalizing gs u with
  | rest hs =>
    cases k with
    | rest => exact ⟨rfl, rfl⟩
    | failed ks => rw [hs] at ks; cases ks
    | item ks => rw [hs] at ks; cases ks
  | failed hs =>
    cases k with
    | rest ks => rw [hs] at ks; cases ks
    | failed ks => rw [hs] at ks; cases ks; exact ⟨rfl, rfl⟩
    | item ks => rw [hs] at ks; cases ks
  | item hs _ ih =>
    cases k with
    | rest ks => rw [hs] at ks; cases ks
    | failed ks => rw [hs] at ks; cases ks
    | item ks kt =>
      rw [hs] at ks
      cases ks
      obtain ⟨rfl, rfl⟩ := ih kt
      exact ⟨rfl, rfl⟩

theorem Stable.exists_decodes {step : List β → Verdict φ ε} (hs : Stable step) (xs : List β) :
    ∃ fs t, Decodes step xs fs t := by
  induction hn : xs.length using Nat.strongRecOn generalizing xs with
  | ind n ih =>
    cases hv : step xs with
    | needMore => exact ⟨[], _, .rest hv⟩
    | fail e => exact ⟨[], _, .failed hv⟩
    | item x k =>
      have hpos := hs.item_pos hv
      have hle := hs.item_le hv
      obtain ⟨fs, t, ht⟩ := ih (xs.drop k).length (by simp only [List.length_drop]; omega) _ rfl
      exact ⟨x :: fs, t, .item hv ht⟩

/-- A rejection is final: the bytes behind it are never looked at. -/
theorem Decodes.append_failed {step : List β → Verdict φ ε} (hs : Stable step) {xs : List β}
    {fs : List φ} {e : ε} (h : Decodes step xs fs (.failed e)) (ys : List β) :
    Decodes step (xs ++ ys) fs (.failed e) := by
  generalize ht : Tail.failed e = t at h
  induction h with
  | rest => cases ht
  | failed hv => cases ht; exact .failed (hs.fail_append hv ys)
  | item hv _ ih =>
    refine .item (hs.item_append hv ys) ?_
    rw [List.drop_append_of_le_length (hs.item_le hv)]
    exact ih ht

/-- Decoding may be interrupted after any part of the input and resumed from the rest. -/
theorem Decodes.append_rest {step : List β → Verdict φ ε} (hs : Stable step) {xs ys r : List β}
    {fs gs : List φ} {t : Tail β ε} (h : Decodes step xs fs (.rest r))
    (k : Decodes step (r ++ ys) gs t) : Decodes step (xs ++ ys) (fs ++ gs) t := by
  generalize hu : Tail.rest r = u at h
  induction h with
  | rest => cases hu; exact k
  | failed => cases hu
  | item hv _ ih =>
    refine .item (hs.item_append hv ys) ?_
    rw [List.drop_append_of_le_length (hs.item_le hv)]
    exact ih hu

theorem Decodes.rest_needMore {step : List β → Verdict φ ε} {xs r : List β} {fs : List φ}
    (h : Decodes step xs fs (.rest r)) : step r = .needMore := by
  generalize hu : Tail.rest r = u at h
  induction h with
  | rest hv => cases hu; exact hv
  | failed => cases hu
  | item _ _ ih => exact ih hu

theorem Decodes.length_le {step : List β → Verdict φ ε} (hs : Stable step) {xs : List β}
    {fs : List φ} {t : Tail β ε} (h : Decodes step xs fs t) : fs.length ≤ xs.length := by
  induction h with
  | rest => simp
  | failed => simp
  | item hv _ ih =>
    have hpos := hs.item_pos hv
    have hle := hs.item_le hv
    simp only [List.length_drop, List.length_cons] at ih ⊢
    omega

/-- Decoded input can be cut behind each of its items. -/
theorem Decodes.cut {step : List β → Verdict φ ε} (hs : Stable step) (hnil : step [] = .needMore)
    {xs : List β} {fs gs : List φ} {t : Tail β ε} (h : Decodes step xs (fs ++ gs) t) :
    ∃ n, n ≤ xs.length ∧ Decodes step (xs.take n) fs (.rest []) ∧ Decodes step (xs.drop n) gs t := by
  induction fs generalizing xs with
  | nil => exact ⟨0, Nat.zero_le _, .rest hnil, h⟩
  | cons x fs ih =>
    cases h with
    | @item _ _ n _ _ hv hrest =>
      obtain ⟨m, hle, hfirst, hlater⟩ := ih hrest
      have hn := hs.item_le hv
      rw [List.length_drop] at hle
      refine ⟨n + m, by omega, ?_, ?_⟩
      · rw [List.take_add]
        refine .item (hs.item_append (hs.item_take hv) _) ?_
        rw [List.drop_append_of_le_length (by simp [hn]), List.drop_eq_nil_of_le (List.length_take_le _ _),
          List.nil_append]
        exact hfirst
      · rw [← List.drop_drop]
        exact hlater

/-- What is undecided ends before the first item that more input completes. -/
theorem Decodes.cut_beyond {step : List β → Verdict φ ε} (hs : Stable step) {xs : List β} {x : φ}
    {fs : List φ} {n : Nat} {t : Tail β ε} (h : Decodes step (xs.take n) (x :: fs) t) {m : Nat}
    (hm : step (xs.take m) = .needMore) : m ≤ n := by
  by_contra hlt
  cases h with
  | item hv _ =>
    have happend := hs.item_append hv ((xs.take m).drop n)
    rw [show xs.take n = (xs.take m).take n by rw [List.take_take, Nat.min_eq_left (by omega)],
      List.take_append_drop, hm] at happend
    cases happend

/-- The verdict once no more input can come: an undecided, non-empty rest is truncated. -/
def atEnd (truncated : List β → ε) (xs : List β) : Verdict φ ε → Verdict φ ε
  | .needMore => if xs.isEmpty then .needMore else .fail (truncated xs)
  | v => v

def Tail.atEnd (truncated : List β → ε) : Tail β ε → Tail β ε
  | .rest [] => .rest []
  | .rest (x :: xs) => .failed (truncated (x :: xs))
  | .failed e => .failed e

/-- Ending the input changes nothing but the fate of the undecided rest. -/
theorem Decodes.atEnd {step : List β → Verdict φ ε} (truncated : List β → ε) {xs : List β}
    {fs : List φ} {t : Tail β ε} (h : Decodes step xs fs t) :
    Decodes (fun xs => StreamDecoder.atEnd truncated xs (step xs)) xs fs (t.atEnd truncated) := by
  induction h with
  | @rest xs hv =>
    cases xs with
    | nil => exact .rest (by simp [hv, StreamDecoder.atEnd])
    | cons x xs => exact .failed (by simp [hv, StreamDecoder.atEnd])
  | failed hv => exact .failed (by simp [hv, StreamDecoder.atEnd])
  | item hv _ ih => exact .item (by simp [hv, StreamDecoder.atEnd]) ih

end StreamDecoder
