import LatticeGateway.ReplayWindow
import LatticeGateway.Runs

namespace LatticeGateway

open Runs

inductive WindowCall
  | record (epoch : UInt16) (frameSeq : UInt32) (encoded : Bytes)
  | acknowledge (epoch : UInt16) (ranges : List AckRange)
  deriving DecidableEq, Repr

/-- A window with its history: every entry it has recorded, in order. -/
structure WindowRun where
  window : ReplayWindow
  recorded : List ReplayEntry := []
  deriving DecidableEq, Repr

def WindowRun.step (r : WindowRun) : WindowCall → WindowRun
  | .record epoch frameSeq encoded =>
    match r.window.record epoch frameSeq encoded with
    | (.ok _, window) => { window, recorded := r.recorded ++ [{ epoch, frameSeq, encoded, retries := 0 }] }
    | (.error _, window) => { r with window }
  | .acknowledge epoch ranges => { r with window := (r.window.acknowledge epoch ranges).2 }

/-- A frame of that number or of a later one has been recorded. -/
def WindowRun.reached (r : WindowRun) (frameSeq : UInt32) : Bool :=
  r.recorded.getLast?.any (frameSeq ≤ ·.frameSeq)

/-- A frame is recorded under a number above all those before it. -/
def WindowRun.Increasing (r : WindowRun) : WindowCall → Prop
  | .record _ frameSeq _ => r.reached frameSeq = false
  | .acknowledge _ _ => True

instance (r : WindowRun) (call : WindowCall) : Decidable (r.Increasing call) := by
  cases call with
  | record => exact instDecidableEqBool _ _
  | acknowledge => exact isTrue trivial

/-- What the window retains it has recorded, in that order. -/
structure WindowRun.Retains (r : WindowRun) : Prop where
  kept : r.window.entries.Sublist r.recorded
  increasing : r.recorded.Pairwise fun a b => a.frameSeq < b.frameSeq

theorem record_entries {w w' : ReplayWindow} {epoch : UInt16} {frameSeq : UInt32} {encoded : Bytes}
    (h : w.record epoch frameSeq encoded = (.ok (), w')) : ∃ kept, kept.Sublist w.entries ∧
      w'.entries = kept ++ [{ epoch, frameSeq, encoded, retries := 0 }] ∧ w'.epoch = w.epoch := by
  unfold ReplayWindow.record at h
  split at h
  next => cases h
  next =>
    split at h
    next => cases h
    next =>
      cases h
      refine ⟨_, ?_, rfl, rfl⟩
      split
      next => exact List.tail_sublist _
      next => exact List.Sublist.refl _

theorem record_error {w w' : ReplayWindow} {epoch : UInt16} {frameSeq : UInt32} {encoded : Bytes}
    {error : Error} (h : w.record epoch frameSeq encoded = (.error error, w')) : w' = w := by
  unfold ReplayWindow.record at h
  split at h
  next =>
    cases h
    rfl
  next =>
    split at h
    next =>
      cases h
      rfl
    next => cases h

theorem acknowledge_entries (w : ReplayWindow) (epoch : UInt16) (ranges : List AckRange) :
    (w.acknowledge epoch ranges).2.entries.Sublist w.entries ∧
      (w.acknowledge epoch ranges).2.epoch = w.epoch := by
  unfold ReplayWindow.acknowledge
  split
  next => exact ⟨.refl _, rfl⟩
  next =>
    split
    next => exact ⟨.refl _, rfl⟩
    next => exact ⟨List.filter_sublist, rfl⟩

/-- A retry counts up and changes nothing else. -/
theorem retryLoop_keeps (retryLimit : UInt8) (entries : List ReplayEntry) :
    (retryLoop retryLimit entries).2.map (fun e => (e.epoch, e.frameSeq, e.encoded)) =
      entries.map (fun e => (e.epoch, e.frameSeq, e.encoded)) := by
  induction entries with
  | nil => rfl
  | cons entry entries ih =>
    unfold retryLoop
    split
    next => rfl
    next =>
      split
      all_goals
        next hrest =>
          rw [hrest] at ih
          simp only [List.map_cons, ih]

theorem pairwise_concat_last {entries : List ReplayEntry} {entry : ReplayEntry}
    (h : entries.Pairwise fun a b => a.frameSeq < b.frameSeq)
    (hlast : entries.getLast?.any (entry.frameSeq ≤ ·.frameSeq) = false) :
    (entries ++ [entry]).Pairwise fun a b => a.frameSeq < b.frameSeq := by
  refine List.pairwise_append.mpr ⟨h, List.pairwise_singleton _ _, ?_⟩
  intro a ha b hb
  obtain rfl := List.mem_singleton.mp hb
  obtain ⟨front, last, rfl⟩ : ∃ front last, entries = front ++ [last] :=
    ⟨_, _, (List.dropLast_append_getLast (List.ne_nil_of_mem ha)).symm⟩
  have hlt : last.frameSeq < b.frameSeq := by simpa using hlast
  rcases List.mem_append.mp ha with ha | ha
  · exact UInt32.lt_trans ((List.pairwise_append.mp h).2.2 a ha last (by simp)) hlt
  · rw [List.mem_singleton.mp ha]
    exact hlt

theorem WindowRun.Retains.step {r : WindowRun} (h : r.Retains) {call : WindowCall}
    (hcall : r.Increasing call) : (r.step call).Retains := by
  cases call with
  | record epoch frameSeq encoded =>
    unfold WindowRun.step
    dsimp only
    split
    next window hrecord =>
      obtain ⟨kept, hkept, hentries, _⟩ := record_entries hrecord
      refine ⟨?_, pairwise_concat_last h.increasing hcall⟩
      rw [hentries]
      exact (hkept.trans h.kept).append (.refl _)
    next error window hrecord =>
      rw [record_error hrecord]
      exact h
  | acknowledge epoch ranges =>
    exact ⟨(acknowledge_entries r.window epoch ranges).1.trans h.kept, h.increasing⟩

theorem retains_run (capacity : Nat) {calls : List WindowCall}
    (h : Along WindowRun.step WindowRun.Increasing { window := { capacity } } calls) :
    (run WindowRun.step { window := { capacity } } calls).Retains :=
  run_invariant (fun _ _ hr hcall => hr.step hcall) ⟨.refl _, .nil⟩ h

end LatticeGateway
