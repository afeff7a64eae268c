import LatticeGateway.ChannelState
import LatticeGateway.Runs

namespace LatticeGateway

open Runs

/-- The calls of an account, with any amount that a `size_t` can hold. -/
inductive FlowCall
  | reserve (amount : UInt64)
  | release (amount : UInt64)
  | grant (amount : UInt64)
  deriving DecidableEq, Repr

namespace FlowAccount

def reply (flow : FlowAccount) : FlowCall → Except Error Unit × FlowAccount
  | .reserve amount => flow.reserve amount.toNat
  | .release amount => flow.release amount.toNat
  | .grant amount => flow.grant amount.toNat

def call (flow : FlowAccount) (c : FlowCall) : FlowAccount := (flow.reply c).2

/-- The sum of `size_t` values, as the source computes it. -/
def invariantHolds (flow : FlowAccount) : Bool :=
  (flow.available + flow.reserved) % 2 ^ 64 ≤ flow.window

/-- The sum of the unbounded integers is within the window. -/
structure Conserved (flow : FlowAccount) : Prop where
  window : flow.window < 2 ^ 64
  sum : flow.available + flow.reserved ≤ flow.window

/-- The call leaves the credit within the window, and when it is refused all of it where it was. -/
def Keeps (flow : FlowAccount) (c : FlowCall) : Prop :=
  (flow.call c).available + (flow.call c).reserved ≤ (flow.call c).window ∧
    ((flow.reply c).1.isOk = false →
      (flow.call c).available = flow.available ∧ (flow.call c).reserved = flow.reserved)

instance (flow : FlowAccount) (c : FlowCall) : Decidable (flow.Keeps c) :=
  inferInstanceAs (Decidable (_ ∧ _))

/-- A grant whose first sum fits `size_t`, and whose second wraps around to no more than the window. -/
def Wraps (flow : FlowAccount) : FlowCall → Prop
  | .grant amount => amount ≠ 0 ∧ flow.available + amount.toNat < 2 ^ 64 ∧
      2 ^ 64 ≤ flow.available + amount.toNat + flow.reserved ∧
      flow.available + amount.toNat + flow.reserved - 2 ^ 64 ≤ flow.window
  | _ => False

theorem Conserved.start (window : UInt64) : (ofWindow window.toNat).Conserved :=
  ⟨window.toNat_lt, Nat.le_refl _⟩

theorem Conserved.invariantHolds {flow : FlowAccount} (h : flow.Conserved) : flow.invariantHolds = true := by
  obtain ⟨hwindow, hsum⟩ := h
  unfold FlowAccount.invariantHolds
  rw [Nat.mod_eq_of_lt (by omega)]
  exact decide_eq_true hsum

theorem keeps_refused {flow : FlowAccount} (hsum : flow.available + flow.reserved ≤ flow.window)
    {error : Error} {c : FlowCall} (hreply : flow.reply c = (.error error, flow)) : flow.Keeps c := by
  unfold Keeps call
  rw [hreply]
  exact ⟨hsum, fun _ => ⟨rfl, rfl⟩⟩

theorem keeps_accepted {flow after : FlowAccount} {c : FlowCall} (hreply : flow.reply c = (.ok (), after)) :
    flow.Keeps c ↔ after.available + after.reserved ≤ after.window := by
  unfold Keeps call
  rw [hreply]
  exact ⟨And.left, fun h => ⟨h, fun herror => by cases herror⟩⟩

theorem reserve_cases (flow : FlowAccount) (amount : Nat) :
    (∃ error, flow.reserve amount = (.error error, flow)) ∨ flow.reserve amount = (.ok (), flow) ∨
      amount ≤ flow.available ∧ flow.reserve amount =
        (.ok (), { flow with available := flow.available - amount
                             reserved := (flow.reserved + amount) % 2 ^ 64 }) := by
  unfold reserve
  split
  next => exact .inr (.inl rfl)
  next =>
    split
    next => exact .inl ⟨_, rfl⟩
    next hle => exact .inr (.inr ⟨Nat.le_of_not_lt hle, rfl⟩)

/-- Credit that is released was reserved, so that it fits and the check behind the update never fails. -/
theorem Conserved.release_cases {flow : FlowAccount} (h : flow.Conserved) (amount : Nat) :
    (∃ error, flow.release amount = (.error error, flow)) ∨
      amount ≤ flow.reserved ∧ flow.release amount =
        (.ok (), { flow with available := flow.available + amount, reserved := flow.reserved - amount }) := by
  obtain ⟨hwindow, hsum⟩ := h
  unfold release
  split
  next => exact .inl ⟨_, rfl⟩
  next hle =>
    have hfits : flow.available + amount < 2 ^ 64 := by omega
    dsimp only
    rw [checkedAdd_of_lt hfits]
    dsimp only
    rw [if_neg (by omega)]
    exact .inr ⟨Nat.le_of_not_lt hle, rfl⟩

theorem checkedAdd_wide {left right : Nat} (hright : right < 2 ^ 64) (h : 2 ^ 64 ≤ left + right) :
    checkedAdd left right = none := by
  unfold checkedAdd
  rw [if_pos (by omega)]

/-- A grant is accepted when its first sum fits, and the remainder of the second is within the window. -/
theorem grant_cases (flow : FlowAccount) {amount : Nat} (hamount : amount < 2 ^ 64) :
    (∃ error, flow.grant amount = (.error error, flow)) ∧
        (amount = 0 ∨ 2 ^ 64 ≤ flow.available + amount ∨
          flow.window < (flow.available + amount + flow.reserved) % 2 ^ 64) ∨
      flow.grant amount = (.ok (), { flow with available := flow.available + amount }) ∧
        amount ≠ 0 ∧ flow.available + amount < 2 ^ 64 ∧
        (flow.available + amount + flow.reserved) % 2 ^ 64 ≤ flow.window := by
  unfold grant
  split
  next hzero => exact .inl ⟨⟨_, rfl⟩, .inl hzero⟩
  next hpos =>
    dsimp only
    by_cases hfits : flow.available + amount < 2 ^ 64
    · rw [checkedAdd_of_lt hfits]
      dsimp only
      split
      next hgt => exact .inl ⟨⟨_, rfl⟩, .inr (.inr hgt)⟩
      next hle => exact .inr ⟨rfl, hpos, hfits, Nat.le_of_not_lt hle⟩
    · have hwide := Nat.le_of_not_lt hfits
      rw [checkedAdd_wide hamount hwide]
      exact .inl ⟨⟨_, rfl⟩, .inr (.inl hwide)⟩

theorem Conserved.reserve {flow : FlowAccount} (h : flow.Conserved) (amount : UInt64) :
    flow.Keeps (.reserve amount) := by
  obtain ⟨hwindow, hsum⟩ := h
  rcases flow.reserve_cases amount.toNat with ⟨error, hreply⟩ | hreply | ⟨hle, hreply⟩
  · exact keeps_refused hsum hreply
  · exact (keeps_accepted (c := .reserve amount) hreply).mpr hsum
  · refine (keeps_accepted (c := .reserve amount) hreply).mpr ?_
    dsimp only
    rw [Nat.mod_eq_of_lt (by omega)]
    omega

theorem Conserved.release {flow : FlowAccount} (h : flow.Conserved) (amount : UInt64) :
    flow.Keeps (.release amount) := by
  have hsum := h.sum
  rcases h.release_cases amount.toNat with ⟨error, hreply⟩ | ⟨hle, hreply⟩
  · exact keeps_refused hsum hreply
  · refine (keeps_accepted (c := .release amount) hreply).mpr ?_
    dsimp only
    omega

/-- The one call that can break the account. -/
theorem Conserved.grant {flow : FlowAccount} (h : flow.Conserved) (amount : UInt64) :
    flow.Keeps (.grant amount) ↔ ¬ flow.Wraps (.grant amount) := by
  obtain ⟨hwindow, hsum⟩ := h
  unfold Wraps
  rcases flow.grant_cases amount.toNat_lt with ⟨⟨error, hreply⟩, hwhy⟩ | ⟨hreply, hpos, hfits, hle⟩
  · refine iff_of_true (keeps_refused hsum hreply) ?_
    rintro ⟨hpos, hfits, hge, hle⟩
    have hpos' : amount.toNat ≠ 0 := fun hzero => hpos (UInt64.toNat_inj.mp hzero)
    omega
  · have hne : amount ≠ 0 := fun hzero => hpos (by rw [hzero]; rfl)
    rw [keeps_accepted (c := .grant amount) hreply]
    dsimp only
    constructor
    · rintro hwithin ⟨_, _, hge, _⟩
      omega
    · intro hnot
      by_contra hgt
      exact hnot ⟨hne, hfits, by omega, by omega⟩

theorem Conserved.call_window {flow : FlowAccount} (h : flow.Conserved) (c : FlowCall) :
    (flow.call c).window = flow.window := by
  unfold FlowAccount.call reply
  cases c with
  | reserve amount =>
    dsimp only
    rcases flow.reserve_cases amount.toNat with ⟨_, hreply⟩ | hreply | ⟨_, hreply⟩ <;> rw [hreply]
  | release amount =>
    dsimp only
    rcases h.release_cases amount.toNat with ⟨_, hreply⟩ | ⟨_, hreply⟩ <;> rw [hreply]
  | grant amount =>
    dsimp only
    rcases flow.grant_cases amount.toNat_lt with ⟨⟨_, hreply⟩, _⟩ | ⟨hreply, _⟩ <;> rw [hreply]

theorem Conserved.keeps_iff {flow : FlowAccount} (h : flow.Conserved) (c : FlowCall) :
    flow.Keeps c ↔ ¬ flow.Wraps c := by
  cases c with
  | reserve amount => exact iff_of_true (h.reserve amount) id
  | release amount => exact iff_of_true (h.release amount) id
  | grant amount => exact h.grant amount

theorem Conserved.call {flow : FlowAccount} (h : flow.Conserved) {c : FlowCall} (hkeeps : flow.Keeps c) :
    (flow.call c).Conserved :=
  ⟨by rw [h.call_window]; exact h.window, hkeeps.1⟩

theorem Conserved.along_iff {flow : FlowAccount} (h : flow.Conserved) (calls : List FlowCall) :
    Along FlowAccount.call Keeps flow calls ↔ Along FlowAccount.call (fun flow c => ¬ flow.Wraps c) flow calls := by
  induction calls generalizing flow with
  | nil => exact .rfl
  | cons c calls ih =>
    unfold Along
    rw [← h.keeps_iff c]
    exact and_congr_right fun hkeeps => ih (h.call hkeeps)

end FlowAccount

open FlowAccount

/-- An account keeps its credit, and its refused calls change nothing, in exactly those runs without a grant
that wraps around. -/
theorem credit_conserved_iff (window : UInt64) (calls : List FlowCall) :
    Along FlowAccount.call Keeps (ofWindow window.toNat) calls ↔
      Along FlowAccount.call (fun flow c => ¬ flow.Wraps c) (ofWindow window.toNat) calls :=
  (Conserved.start window).along_iff calls

/-- After half the window is reserved, a grant of nearly the whole range of `size_t` is accepted. The sum of
the source does not see it; a release that then fails has already taken the credit away. -/
theorem credit_not_conserved :
    let calls : List FlowCall := [.reserve 50, .grant 18446744073709551565]
    let flow := run FlowAccount.call (ofWindow 100) calls
    ¬ Along FlowAccount.call Keeps (ofWindow 100) calls ∧ flow.invariantHolds = true ∧
      flow.available = 2 ^ 64 - 1 ∧ flow.reserved = 50 ∧
      (flow.reply (.release 50)).1.isOk = false ∧ (flow.call (.release 50)).reserved = 0 := by
  decide +kernel

end LatticeGateway
