import Mathlib.Order.Lattice

namespace JoinReplicas

variable {α : Type*} [SemilatticeSup α]

/-- What a copy is once the updates on their way to it have been joined to it. -/
def settled (value : α) (updates : List α) : α := updates.foldl (· ⊔ ·) value

/-- Two copies, each with the updates on their way to it, that come to the same. -/
def Balanced (left : α) (toLeft : List α) (right : α) (toRight : List α) : Prop :=
  settled left toLeft = settled right toRight

theorem settled_sup (value update : α) (updates : List α) :
    settled (value ⊔ update) updates = settled value updates ⊔ update := by
  unfold settled
  induction updates generalizing value with
  | nil => rfl
  | cons first updates ih => rw [List.foldl_cons, List.foldl_cons, sup_right_comm, ih]

theorem settled_concat (value update : α) (updates : List α) :
    settled value (updates ++ [update]) = settled value updates ⊔ update := by
  unfold settled
  rw [List.foldl_append]
  rfl

theorem Balanced.symm {left right : α} {toLeft toRight : List α} (h : Balanced left toLeft right toRight) :
    Balanced right toRight left toLeft :=
  Eq.symm h

/-- One copy takes an update and sends it to the other. -/
theorem Balanced.update {left right : α} {toLeft toRight : List α} (h : Balanced left toLeft right toRight)
    (update : α) : Balanced (left ⊔ update) toLeft right (toRight ++ [update]) := by
  unfold Balanced
  rw [settled_sup, settled_concat, h]

/-- One copy takes the first update that is on its way to it. -/
theorem Balanced.deliver {left right update : α} {toLeft toRight : List α}
    (h : Balanced left (update :: toLeft) right toRight) : Balanced (left ⊔ update) toLeft right toRight :=
  h

/-- With nothing on its way the copies are the same. -/
theorem Balanced.eq {left right : α} (h : Balanced left [] right []) : left = right := h

end JoinReplicas
