import Mathlib.Data.List.Basic

namespace BoundedReads

/-- Why a run that checks all its accesses stops. -/
inductive Fault
  | outOfBounds
  | unfinished
  deriving DecidableEq, Repr

section

variable {α : Type*}

def index (xs : List α) (i : Nat) : Except Fault α :=
  match xs[i]? with
  | none => .error .outOfBounds
  | some x => .ok x

/-- The `count` elements from `offset` on, all of which must be there. -/
def subspan (xs : List α) (offset count : Nat) : Except Fault (List α) :=
  if offset + count ≤ xs.length then .ok ((xs.drop offset).take count) else .error .outOfBounds

/-- What is left behind the first `count` elements, which must be there. -/
def eraseFront (xs : List α) (count : Nat) : Except Fault (List α) :=
  if count ≤ xs.length then .ok (xs.drop count) else .error .outOfBounds

/-- The unsigned difference, which must not wrap. -/
def distance (a b : Nat) : Except Fault Nat := if b ≤ a then .ok (a - b) else .error .outOfBounds

theorem index_of_lt {xs : List α} {i : Nat} (h : i < xs.length) (default : α) :
    index xs i = .ok (xs.getD i default) := by
  unfold index
  rw [List.getD_eq_getElem?_getD, List.getElem?_eq_getElem h]
  rfl

theorem subspan_of_le {xs : List α} {offset count : Nat} (h : offset + count ≤ xs.length) :
    subspan xs offset count = .ok ((xs.drop offset).take count) := if_pos h

theorem subspan_rest {xs : List α} {offset : Nat} (h : offset ≤ xs.length) :
    subspan xs offset (xs.length - offset) = .ok (xs.drop offset) := by
  rw [subspan_of_le (by omega), List.take_of_length_le (by simp)]

theorem eraseFront_of_le {xs : List α} {count : Nat} (h : count ≤ xs.length) :
    eraseFront xs count = .ok (xs.drop count) := if_pos h

theorem distance_of_le {a b : Nat} (h : b ≤ a) : distance a b = .ok (a - b) := if_pos h

end

theorem ok_bind {α β : Type} (x : α) (f : α → Except Fault β) :
    ((.ok x : Except Fault α) >>= f) = f x := rfl

variable {σ ρ : Type*}

/-- How one round of a loop ends: another one follows, or the answer. -/
inductive Round (σ ρ : Type*)
  | next (s : σ)
  | done (answer : ρ)

/-- A loop of at most `budget` rounds. -/
def loop (round : σ → Except Fault (Round σ ρ)) : Nat → σ → Except Fault ρ
  | 0, _ => .error .unfinished
  | budget + 1, s =>
    match round s with
    | .error fault => .error fault
    | .ok (.done answer) => .ok answer
    | .ok (.next s) => loop round budget s

/-- A loop gives the answer that all its rounds lead to, if every round that is followed by another one
uses up `least` of what there is. -/
theorem loop_of_rounds (leads : σ → ρ → Prop) (size : σ → Nat) {least : Nat}
    {round : σ → Except Fault (Round σ ρ)}
    (hround : ∀ s answer, leads s answer → round s = .ok (.done answer) ∨
      ∃ s', round s = .ok (.next s') ∧ leads s' answer ∧ size s' + least ≤ size s)
    {budget : Nat} {s : σ} {answer : ρ} (h : leads s answer) (hbudget : size s < least * budget) :
    loop round budget s = .ok answer := by
  induction budget generalizing s with
  | zero => simp at hbudget
  | succ budget ih =>
    unfold loop
    rcases hround s answer h with hdone | ⟨s', hnext, hleads, hsize⟩
    · rw [hdone]
    · rw [hnext]
      rw [Nat.mul_succ] at hbudget
      exact ih hleads (by omega)

end BoundedReads
