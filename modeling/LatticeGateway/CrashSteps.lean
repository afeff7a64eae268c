import Mathlib.Data.List.Basic

namespace CrashSteps

/-- How a step ends: it takes effect, it fails without effect, or it is the last one before a crash, with
or without its effect. -/
inductive Outcome
  | done | failed | crash (effect : Bool)
  deriving DecidableEq, Repr

def Outcome.effective : Outcome → Bool
  | .done => true
  | .failed => false
  | .crash effect => effect

/-- How a procedure ends. -/
inductive End (ρ : Type*)
  | returned (result : ρ) | thrown | crashed
  deriving DecidableEq, Repr

variable {σ ρ : Type*}

/-- One step of a procedure: what it does to the state, and how the procedure goes on when it has failed
and when it is done. -/
def step (outcome : Outcome) (effect : σ → σ) (onFail next : σ → End ρ × σ) (s : σ) : End ρ × σ :=
  match outcome with
  | .done => next (effect s)
  | .failed => onFail s
  | .crash true => (.crashed, effect s)
  | .crash false => (.crashed, s)

variable {effect : σ → σ} {onFail next : σ → End ρ × σ}

@[simp] theorem step_done (s : σ) : step .done effect onFail next s = next (effect s) := rfl

@[simp] theorem step_crash (s : σ) : step (.crash true) effect onFail next s = (.crashed, effect s) := rfl

/-- What the step and both ways on keep is kept. -/
theorem step_keeps {I : σ → Prop} (heffect : ∀ s, I s → I (effect s)) (hfail : ∀ s, I s → I (onFail s).2)
    (hnext : ∀ s, I s → I (next s).2) (outcome : Outcome) {s : σ} (h : I s) :
    I (step outcome effect onFail next s).2 := by
  cases outcome with
  | done => exact hnext _ (heffect s h)
  | failed => exact hfail s h
  | crash happened =>
    cases happened with
    | true => exact heffect s h
    | false => exact h

/-- A step that is not done keeps what its effect and the way on after a failure keep. -/
theorem step_cut {I : σ → Prop} {outcome : Outcome} (hcut : outcome ≠ .done) {s : σ} (h : I s)
    (heffect : outcome.effective = true → I (effect s)) (hfail : I (onFail s).2) :
    I (step outcome effect onFail next s).2 := by
  cases outcome with
  | done => exact absurd rfl hcut
  | failed => exact hfail
  | crash happened =>
    cases happened with
    | true => exact heffect rfl
    | false => exact h

end CrashSteps
