import Mathlib.Data.List.Chain

namespace Runs

variable {σ α : Type*} (step : σ → α → σ)

def run (s : σ) (calls : List α) : σ := calls.foldl step s

/-- Every step of the run meets `P` in the state in which it is taken. -/
def Along (P : σ → α → Prop) : σ → List α → Prop
  | _, [] => True
  | s, a :: calls => P s a ∧ Along P (step s a) calls

instance decidableAlong (P : σ → α → Prop) [∀ s a, Decidable (P s a)] (s : σ) (calls : List α) :
    Decidable (Along step P s calls) := by
  induction calls generalizing s with
  | nil => exact isTrue trivial
  | cons a calls ih => exact instDecidableAnd

variable {step}

theorem run_append (s : σ) (calls more : List α) :
    run step s (calls ++ more) = run step (run step s calls) more :=
  List.foldl_append

theorem along_append {P : σ → α → Prop} {s : σ} {calls more : List α} :
    Along step P s (calls ++ more) ↔ Along step P s calls ∧ Along step P (run step s calls) more := by
  induction calls generalizing s with
  | nil => simp [Along, run]
  | cons a calls ih => simp [Along, ih, run, and_assoc]

/-- What every step meeting `P` keeps holds at the end of a run of such steps. -/
theorem run_invariant {P : σ → α → Prop} {I : σ → Prop} (hstep : ∀ s a, I s → P s a → I (step s a))
    {s : σ} {calls : List α} (hs : I s) (h : Along step P s calls) : I (run step s calls) := by
  induction calls generalizing s with
  | nil => exact hs
  | cons a calls ih => exact ih (hstep s a hs h.1) h.2

/-- What every step keeps holds at the end of every run. -/
theorem run_induction {I : σ → Prop} (hstep : ∀ s a, I s → I (step s a)) {s : σ} (calls : List α)
    (hs : I s) : I (run step s calls) := by
  induction calls generalizing s with
  | nil => exact hs
  | cons a calls ih => exact ih (hstep s a hs)

/-- What the steps keep as long as a size that never falls stays below its bound. -/
theorem run_bounded {I : σ → Prop} {size : σ → Nat} {bound : Nat}
    (hgrows : ∀ s a, size s ≤ size (step s a))
    (hstep : ∀ s a, I s → size (step s a) < bound → I (step s a)) {s : σ} (calls : List α) (hs : I s) :
    size (run step s calls) < bound → I (run step s calls) := by
  refine run_induction (I := fun s => size s < bound → I s) ?_ calls fun _ => hs
  intro s a hi hroom
  exact hstep s a (hi (Nat.lt_of_le_of_lt (hgrows s a) hroom)) hroom

/-- Two paths, the second from where the first ends. -/
theorem isChain_join {R : σ → σ → Prop} {s t : σ} {path more : List σ}
    (h : List.IsChain R (s :: path)) (hlast : (s :: path).getLast? = some t)
    (h' : List.IsChain R (t :: more)) :
    List.IsChain R (s :: (path ++ more)) ∧
      (s :: (path ++ more)).getLast? = (t :: more).getLast? := by
  induction path generalizing s with
  | nil =>
    obtain rfl : s = t := by simpa using hlast
    exact ⟨h', rfl⟩
  | cons next path ih =>
    obtain ⟨hstep, hrest⟩ := List.isChain_cons_cons.mp h
    rw [List.getLast?_cons_cons] at hlast
    obtain ⟨hchain, hend⟩ := ih hrest hlast
    exact ⟨.cons_cons hstep hchain, by rw [List.cons_append, List.getLast?_cons_cons]; exact hend⟩

/-- What every step keeps holds all along a path, and so before each of its steps. -/
theorem isChain_invariant {R : σ → σ → Prop} {I : σ → Prop} (hstep : ∀ s t, I s → R s t → I t) {s : σ}
    {path : List σ} (hs : I s) (h : List.IsChain R (s :: path)) :
    (∀ t ∈ s :: path, I t) ∧ List.IsChain (fun t t' => I t ∧ R t t') (s :: path) := by
  induction path generalizing s with
  | nil => exact ⟨by simpa using hs, .singleton _⟩
  | cons next path ih =>
    obtain ⟨hfirst, hrest⟩ := List.isChain_cons_cons.mp h
    obtain ⟨hall, hchain⟩ := ih (hstep s next hs hfirst) hrest
    exact ⟨List.forall_mem_cons.mpr ⟨hs, hall⟩, .cons_cons ⟨hs, hfirst⟩ hchain⟩

/-- Once `C` holds on a path, it goes on to hold and `f` keeps its value. -/
theorem isChain_frozen {β : Type*} {C : σ → Prop} {f : σ → β} {path : List σ}
    (h : List.IsChain (fun s t => C s → C t ∧ f t = f s) path) :
    path.Pairwise (fun s t => C s → f t = f s) := by
  let R : σ → σ → Prop := fun s t => C s → C t ∧ f t = f s
  have htrans : ∀ {s t u : σ}, R s t → R t u → R s u := by
    intro s t u hst htu hs
    obtain ⟨ht, hft⟩ := hst hs
    obtain ⟨hu, hfu⟩ := htu ht
    exact ⟨hu, hfu.trans hft⟩
  have : Trans R R R := ⟨htrans⟩
  exact (List.isChain_iff_pairwise.mp (show List.IsChain R path from h)).imp fun h hs => (h hs).2

end Runs
