import LatticeGateway.SnapshotLoading

namespace LatticeGateway

open Runs

namespace ConnectionEngine

/-- A frame is recorded within the limit, and the entry that makes room for it is there. -/
structure Emission.Retained (limit : Nat) (p : Emission) : Prop where
  before : p.1.replay.entries.length ≤ limit
  after : (p.1.emit p.2).2.replay.entries.length ≤ limit
  evicts : p.1.replay.entries.length ≥ p.1.replay.capacity → p.1.replay.entries ≠ []

/-- The window keeps within the limit between the calls of a run and whenever one of them emits. -/
structure RetainsWithin (limit : Nat) (e : ConnectionEngine) (calls : List Call) : Prop where
  between : ∀ before after, calls = before ++ after → (run call e before).replay.entries.length ≤ limit
  emitted : ∀ before c after, calls = before ++ c :: after →
    ∀ p ∈ (run call e before).emissions c, Emission.Retained limit p

/-- A frame is recorded only in a window that has a capacity, and none beyond that of the policy; the
window of a snapshot holds no more entries than that. -/
def KeepsCapacity (e : ConnectionEngine) : Call → Prop
  | .loadReplaySnapshot text =>
    e.state = .created → ∀ w ∈ (ReplayWindow.restoreRetained text).toOption,
      w.entries.length ≤ e.policy.replayWindow.toNat
  | c =>
    e.emissions c = [] ∨ 1 ≤ e.replay.capacity ∧ e.replay.capacity ≤ e.policy.replayWindow.toNat

instance (e : ConnectionEngine) (c : Call) : Decidable (e.KeepsCapacity c) :=
  match c with
  | .loadReplaySnapshot text =>
    have := @Option.decidableForallMem
    inferInstanceAs (Decidable (_ → ∀ w ∈ (ReplayWindow.restoreRetained text).toOption, _))
  | .start | .receive .. | .openChannel _ | .send .. | .grantCredit .. | .acknowledge _ | .ping _
  | .resume _ | .completePlugin _ | .advanceTime _ | .flushOutbound _ | .halfClose .. | .reset _
  | .goaway | .submitTask .. | .cancelTask _ | .drainOne | .drainAll => inferInstanceAs (Decidable (_ ∨ _))

theorem length_recorded (w : ReplayWindow) (frameSeq : UInt32) (encoded : Bytes) :
    (w.recorded frameSeq encoded).entries.length =
      (if w.entries.length ≥ w.capacity then w.entries.length - 1 else w.entries.length) + 1 := by
  unfold ReplayWindow.recorded
  split <;> simp

theorem emit_replay (e : ConnectionEngine) (frame : Frame) :
    (e.emit frame).2.replay = e.replay ∨
      ∃ encoded, (e.emit frame).2.replay = e.replay.recorded frame.frameSeq encoded := by
  unfold emit
  split
  next => exact .inl rfl
  next encoded _ =>
    by_cases haccepts : e.replay.Accepts frame.frameSeq
    · rw [haccepts.record]
      refine .inr ⟨encoded, ?_⟩
      dsimp only
      split
      next h =>
        obtain rfl := congrArg Prod.snd h
        rfl
      next h =>
        obtain rfl := congrArg Prod.snd h
        rfl
    · split
      next hrecord =>
        exact .inl (record_error hrecord)
      next hrecord => exact absurd (record_ok (congrArg Prod.fst hrecord)) haccepts

theorem emit_retained {e : ConnectionEngine} {limit : Nat} (hpos : 1 ≤ e.replay.capacity)
    (hcapacity : e.replay.capacity ≤ limit) (hroom : e.replay.entries.length ≤ limit) (frame : Frame) :
    Emission.Retained limit (e, frame) ∧ (e.emit frame).2.replay.capacity = e.replay.capacity := by
  refine ⟨⟨hroom, ?_, ?_⟩, ?_⟩
  · rcases emit_replay e frame with hsame | ⟨encoded, hrecorded⟩
    · dsimp only
      rw [hsame]
      exact hroom
    · dsimp only
      rw [hrecorded, length_recorded]
      split <;> omega
  · intro hfull hempty
    rw [hempty] at hfull
    have hzero : e.replay.capacity ≤ 0 := hfull
    omega
  · rcases emit_replay e frame with hsame | ⟨encoded, hrecorded⟩
    · rw [hsame]
    · rw [hrecorded]
      rfl

/-- What a call emits is recorded within the limit. -/
theorem Trace.retained {e e' : ConnectionEngine} {ps : List Emission} (h : Trace e ps e') {limit : Nat}
    (hcapacity : ps = [] ∨ 1 ≤ e.replay.capacity ∧ e.replay.capacity ≤ limit)
    (hroom : e.replay.entries.length ≤ limit) :
    (∀ p ∈ ps, Emission.Retained limit p) ∧ e'.replay.entries.length ≤ limit ∧
      e'.replay.capacity = e.replay.capacity := by
  induction h with
  | still hstill => exact ⟨by simp, hstill.replay.length_le.trans hroom, hstill.replay.capacity⟩
  | @emit e e' frame _ _ hstill =>
    have hshrinks := hstill.replay
    obtain ⟨hpos, hle⟩ := hcapacity.resolve_left (List.cons_ne_nil _ _)
    have hkept : e'.replay.capacity = e.replay.capacity := hshrinks.capacity
    have hlength : e'.replay.entries.length ≤ e.replay.entries.length := hshrinks.length_le
    rw [← hkept] at hpos hle
    obtain ⟨hretained, hsame⟩ := emit_retained hpos hle (hlength.trans hroom) frame
    exact ⟨by simpa using hretained, hretained.after, hsame.trans hkept⟩
  | append _ _ ih ih' =>
    have hfirst := ih (hcapacity.imp (fun h => (List.append_eq_nil_iff.mp h).1) id) hroom
    obtain ⟨hps, hlength, hkept⟩ := hfirst
    rw [← hkept] at hcapacity
    obtain ⟨hqs, hlength', hkept'⟩ :=
      ih' (hcapacity.imp (fun h => (List.append_eq_nil_iff.mp h).2) id) hlength
    exact ⟨List.forall_mem_append.mpr ⟨hps, hqs⟩, hlength', hkept'.trans hkept⟩

theorem KeepsCapacity.retained {e : ConnectionEngine} {c : Call} (h : KeepsCapacity e c) {limit : Nat}
    (hlimit : e.policy.replayWindow.toNat = limit) (hroom : e.replay.entries.length ≤ limit) :
    (∀ p ∈ e.emissions c, Emission.Retained limit p) ∧ (e.call c).replay.entries.length ≤ limit := by
  subst hlimit
  by_cases hload : ∃ text, c = .loadReplaySnapshot text
  · obtain ⟨text, rfl⟩ := hload
    refine ⟨by simp [emissions], ?_⟩
    change (e.loadReplaySnapshot text).2.replay.entries.length ≤ _
    rcases loadReplaySnapshot_cases e text with
      ⟨error, hload, _⟩ | ⟨w, hcreated, hw, ⟨_, hload⟩ | ⟨_, hload⟩⟩
    · rw [hload]
      exact hroom
    all_goals
      rw [hload]
      exact h hcreated w (by simp [hw, Except.toOption])
  · have hother : ∀ text, c ≠ .loadReplaySnapshot text := fun text hc => hload ⟨text, hc⟩
    have hcapacity : e.emissions c = [] ∨
        1 ≤ e.replay.capacity ∧ e.replay.capacity ≤ e.policy.replayWindow.toNat := by
      unfold KeepsCapacity at h
      split at h
      next text => exact absurd rfl (hother text)
      next => exact h
    obtain ⟨hretained, hlength, _⟩ := (call_trace e hother).retained hcapacity hroom
    exact ⟨hretained, hlength⟩

/-- In a run whose calls keep the capacity the window stays within the policy. -/
theorem retention_bounded (policy : LocalPolicy) (registry : PluginRegistry)
    (executor : Option (DeterministicExecutor EngineTask)) (calls : List Call)
    (h : Along call KeepsCapacity (make policy registry executor) calls) :
    RetainsWithin policy.replayWindow.toNat (make policy registry executor) calls := by
  have hbounded : ∀ before, Along call KeepsCapacity (make policy registry executor) before →
      Made policy registry (run call (make policy registry executor) before) ∧
        (run call (make policy registry executor) before).replay.entries.length ≤
          policy.replayWindow.toNat := by
    intro before hbefore
    refine @run_invariant _ _ _ _ (fun e : ConnectionEngine => Made policy registry e ∧
      e.replay.entries.length ≤ policy.replayWindow.toNat) ?_ _ _ ⟨make_made _ _ _, Nat.zero_le _⟩ hbefore
    rintro e c ⟨hmade, hroom⟩ hkeeps
    exact ⟨hmade.call c, (hkeeps.retained (by rw [hmade.policy]) hroom).2⟩
  constructor
  · rintro before after rfl
    exact (hbounded before (along_append.mp h).1).2
  · rintro before c after rfl
    obtain ⟨hbefore, hkeeps, _⟩ := along_append.mp h
    obtain ⟨hmade, hroom⟩ := hbounded before hbefore
    exact (hkeeps.retained (by rw [hmade.policy]) hroom).1

theorem retention_bounded_two :
    RetainsWithin 2 (make { replayWindow := 2 } {} none)
      [.loadReplaySnapshot fullSnapshot, .start, .ping 5, .ping 6] :=
  retention_bounded { replayWindow := 2 } {} none _ (by decide +kernel)

/-- One entry in a window of four. -/
def roomySnapshot : Bytes := ascii "LTXREPLAY/1\ncapacity|4\nepoch|1\nentry|9|0|aa\n"

/-- A window without capacity pops from nothing, and a snapshot brings a capacity of its own. -/
theorem retention_unbounded :
    ((make { replayWindow := 0 } {} none).emissions .start).map
          (fun p => (p.1.replay.capacity, p.1.replay.entries.length)) = [(0, 0)] ∧
      ((make { replayWindow := 1 } {} none).loadReplaySnapshot roomySnapshot).1 = .ok () ∧
      (run call (make { replayWindow := 1 } {} none)
        [.loadReplaySnapshot roomySnapshot, .start, .ping 5]).replay.entries.length = 3 := by
  decide +kernel

end ConnectionEngine

end LatticeGateway
