import LatticeGateway.ReplayHistory

namespace LatticeGateway

open Runs

namespace ReplayWindow

inductive RetryCall
  | record (epoch : UInt16) (frameSeq : UInt32) (encoded : Bytes)
  | acknowledge (epoch : UInt16) (ranges : List AckRange)
  | dueForRetry (retryLimit : UInt8)
  deriving DecidableEq, Repr

def retryStep (w : ReplayWindow) : RetryCall → ReplayWindow
  | .record epoch frameSeq encoded => (w.record epoch frameSeq encoded).2
  | .acknowledge epoch ranges => (w.acknowledge epoch ranges).2
  | .dueForRetry retryLimit => (w.dueForRetry retryLimit).2

/-- No entry has been retried more often than an entry before it. -/
def Rounds (entries : List ReplayEntry) : Prop := entries.Pairwise fun a b => b.retries ≤ a.retries

/-- An entry that has gone through one more retry round. -/
def Retried (retryLimit : UInt8) (before after : ReplayEntry) : Prop :=
  after = { before with retries := after.retries } ∧
    after.retries.toNat = before.retries.toNat + 1 ∧ after.retries ≤ retryLimit

theorem retries_succ {a limit : UInt8} (h : ¬ a ≥ limit) :
    (a + 1).toNat = a.toNat + 1 ∧ a + 1 ≤ limit := by
  have hlt : a.toNat < limit.toNat := UInt8.lt_iff_toNat_lt.mp (UInt8.not_le.mp h)
  have hfits := limit.toNat_lt
  have hsucc : (a + 1).toNat = a.toNat + 1 := by
    rw [UInt8.toNat_add, UInt8.toNat_one]
    omega
  refine ⟨hsucc, UInt8.le_iff_toNat_le.mpr ?_⟩
  omega

/-- Below the limit throughout, the loop runs to its end. -/
theorem retryLoop_below {retryLimit : UInt8} {entries : List ReplayEntry}
    (h : ∀ e ∈ entries, ¬ e.retries ≥ retryLimit) :
    ∃ due, retryLoop retryLimit entries = (.ok due, due) ∧
      List.Forall₂ (Retried retryLimit) entries due := by
  induction entries with
  | nil => exact ⟨[], rfl, .nil⟩
  | cons entry entries ih =>
    obtain ⟨hentry, hrest⟩ := List.forall_mem_cons.mp h
    obtain ⟨due, hdue, hall⟩ := ih hrest
    obtain ⟨hsucc, hle⟩ := retries_succ hentry
    refine ⟨{ entry with retries := entry.retries + 1 } :: due, ?_, .cons ⟨rfl, hsucc, hle⟩ hall⟩
    unfold retryLoop
    rw [if_neg hentry, hdue]

/-- The first entry decides: when it is below the limit, so are the others. -/
theorem Rounds.below {retryLimit : UInt8} {entry : ReplayEntry} {entries : List ReplayEntry}
    (h : Rounds (entry :: entries)) (hentry : ¬ entry.retries ≥ retryLimit) :
    ∀ e ∈ entry :: entries, ¬ e.retries ≥ retryLimit := by
  intro e he
  rcases List.mem_cons.mp he with rfl | he
  · exact hentry
  · intro hge
    exact hentry (UInt8.le_trans hge ((List.pairwise_cons.mp h).1 e he))

/-- A retry round over entries in this order fails at the first one or not at all. -/
theorem Rounds.retryLoop {entries : List ReplayEntry} (h : Rounds entries) (retryLimit : UInt8) :
    (∃ error, retryLoop retryLimit entries = (.error error, entries)) ∨
      ∃ due, retryLoop retryLimit entries = (.ok due, due) ∧
        List.Forall₂ (Retried retryLimit) entries due := by
  cases entries with
  | nil => exact .inr ⟨[], rfl, .nil⟩
  | cons entry entries =>
    by_cases hentry : entry.retries ≥ retryLimit
    · exact .inl ⟨_, if_pos hentry⟩
    · exact .inr (retryLoop_below (h.below hentry))

theorem Rounds.retried {retryLimit : UInt8} {entries due : List ReplayEntry} (h : Rounds entries)
    (hall : List.Forall₂ (Retried retryLimit) entries due) : Rounds due := by
  induction hall with
  | nil => exact .nil
  | @cons before after entries due hfirst hrest ih =>
    obtain ⟨hle, hpairwise⟩ := List.pairwise_cons.mp h
    refine List.pairwise_cons.mpr ⟨?_, ih hpairwise⟩
    intro e he
    obtain ⟨i, hi, rfl⟩ := List.getElem_of_mem he
    have hlen : i < entries.length := hrest.length_eq ▸ hi
    have hretried := hrest.get hlen hi
    have hbound := UInt8.le_iff_toNat_le.mp (hle _ (List.getElem_mem hlen))
    have hsucc : (due.get ⟨i, hi⟩).retries.toNat = (entries.get ⟨i, hlen⟩).retries.toNat + 1 :=
      hretried.2.1
    simp only [List.get_eq_getElem] at hsucc
    have hfirstSucc := hfirst.2.1
    refine UInt8.le_iff_toNat_le.mpr ?_
    omega

theorem Rounds.dueForRetry {w : ReplayWindow} (h : Rounds w.entries) (retryLimit : UInt8) :
    Rounds (w.dueForRetry retryLimit).2.entries := by
  unfold ReplayWindow.dueForRetry
  rcases h.retryLoop retryLimit with ⟨error, herror⟩ | ⟨due, hdue, hall⟩
  · rw [herror]
    exact h
  · rw [hdue]
    exact h.retried hall

theorem Rounds.record {w : ReplayWindow} (h : Rounds w.entries) (epoch : UInt16) (frameSeq : UInt32)
    (encoded : Bytes) : Rounds (w.record epoch frameSeq encoded).2.entries := by
  rcases hrecord : w.record epoch frameSeq encoded with ⟨_ | _, w'⟩
  · rw [record_error hrecord]
    exact h
  · obtain ⟨kept, hkept, hentries, -⟩ := record_entries hrecord
    rw [hentries]
    refine List.pairwise_append.mpr ⟨h.sublist hkept, List.pairwise_singleton _ _, ?_⟩
    intro a _ b hb
    rw [List.mem_singleton.mp hb]
    exact UInt8.zero_le

theorem Rounds.step {w : ReplayWindow} (h : Rounds w.entries) (call : RetryCall) :
    Rounds (w.retryStep call).entries := by
  cases call with
  | record epoch frameSeq encoded => exact h.record epoch frameSeq encoded
  | acknowledge epoch ranges => exact h.sublist (acknowledge_entries w epoch ranges).1
  | dueForRetry retryLimit => exact h.dueForRetry retryLimit

/-- A retry round takes place as a whole or not at all. -/
theorem retry_round_whole (capacity : Nat) (epoch : UInt16) (calls : List RetryCall)
    (retryLimit : UInt8) :
    let w := run retryStep { capacity, epoch } calls
    (∃ error, w.dueForRetry retryLimit = (.error error, w)) ∨
      ∃ due, w.dueForRetry retryLimit = (.ok due, { w with entries := due }) ∧
        List.Forall₂ (Retried retryLimit) w.entries due := by
  intro w
  have hrounds : Rounds w.entries :=
    run_induction (I := fun v : ReplayWindow => Rounds v.entries) (fun _ call h => h.step call) calls
      List.Pairwise.nil
  unfold ReplayWindow.dueForRetry
  rcases hrounds.retryLoop retryLimit with ⟨error, herror⟩ | ⟨due, hdue, hall⟩
  · exact .inl ⟨error, by rw [herror]⟩
  · exact .inr ⟨due, by rw [hdue], hall⟩

end ReplayWindow

end LatticeGateway
