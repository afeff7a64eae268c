import LatticeGateway.ReplayHistory

namespace LatticeGateway

open Runs

/-- Frames are recorded one after the other from 1 on, and every acknowledgement succeeds. -/
def WindowRun.Dense (r : WindowRun) : WindowCall → Prop
  | .record epoch frameSeq _ =>
    epoch = r.window.epoch ∧ frameSeq.toNat = r.recorded.length + 1
  | .acknowledge epoch ranges => ((r.window.acknowledge epoch ranges).1.toOption).isSome = true

instance (r : WindowRun) (call : WindowCall) : Decidable (r.Dense call) :=
  match call with
  | .record .. => instDecidableAnd
  | .acknowledge .. => instDecidableEqBool _ _

/-- The recorded frames are numbered from 1 on, and what the window retains is some of them. -/
structure WindowRun.Numbered (r : WindowRun) : Prop where
  kept : r.window.entries.Sublist r.recorded
  numbered : ∀ (i : Nat) (entry : ReplayEntry), r.recorded[i]? = some entry →
    entry.frameSeq.toNat = i + 1

theorem WindowRun.Numbered.step {r : WindowRun} (h : r.Numbered) {call : WindowCall}
    (hcall : r.Dense call) : (r.step call).Numbered := by
  cases call with
  | record epoch frameSeq encoded =>
    unfold WindowRun.step
    dsimp only
    split
    next window hrecord =>
      obtain ⟨kept, hkept, hentries, _⟩ := record_entries hrecord
      refine ⟨?_, ?_⟩
      · rw [hentries]
        exact (hkept.trans h.kept).append (.refl _)
      · intro i entry hentry
        by_cases hi : i < r.recorded.length
        · rw [List.getElem?_append_left hi] at hentry
          exact h.numbered i entry hentry
        · have hbound := (List.getElem?_eq_some_iff.mp hentry).1
          rw [List.length_append, List.length_singleton] at hbound
          obtain rfl : i = r.recorded.length := by omega
          obtain rfl : entry = _ := by simpa using hentry.symm
          exact hcall.2
    next error window hrecord =>
      rw [record_error hrecord]
      exact h
  | acknowledge epoch ranges =>
    exact ⟨(acknowledge_entries r.window epoch ranges).1.trans h.kept, h.numbered⟩

theorem numbered_run (capacity : Nat) {calls : List WindowCall}
    (h : Along WindowRun.step WindowRun.Dense { window := { capacity } } calls) :
    (run WindowRun.step { window := { capacity } } calls).Numbered :=
  run_invariant (fun _ _ hr hcall => hr.step hcall) ⟨.refl _, by simp⟩ h

/-- A frame of that number is still retained. -/
def ReplayWindow.Has (w : ReplayWindow) (number : Nat) : Prop :=
  ∃ entry ∈ w.entries, entry.frameSeq.toNat = number

/-- A window that has recorded `n` frames can serve everything from `first` on. -/
def WindowRun.Whole (r : WindowRun) (first : UInt32) : Prop :=
  first.toNat ≤ r.recorded.length + 1 ∧
    ∀ number, first.toNat ≤ number → number ≤ r.recorded.length → r.window.Has number

/-- Resumption succeeds exactly when nothing is missing, and hands out the recorded frames as they were. -/
structure ResumeLaw (r : WindowRun) (first : UInt32) : Prop where
  resumes : r.window.canResume { epoch := r.window.epoch, firstRequiredSeq := first } = .ok () ↔
    r.Whole first
  retains : (∃ out, r.window.retainedFrom r.window.epoch first = .ok out) ↔ r.Whole first
  exact : ∀ out, r.window.retainedFrom r.window.epoch first = .ok out →
    out = r.recorded.drop (first.toNat - 1)

/-- A request for what comes next finds the newest frame retained; any other that lies within the
window finds every frame from there on. -/
def ResumeSafe (r : WindowRun) (first : UInt32) : Prop :=
  if first.toNat = r.recorded.length + 1 then
    ∃ newest ∈ r.window.entries, newest.frameSeq.toNat = r.recorded.length
  else
    ∀ oldest ∈ r.window.earliestSequence, ∀ newest ∈ r.window.latestSequence, oldest ≤ first →
      first.toNat ≤ newest.toNat + 1 → ∀ entry ∈ r.recorded, first ≤ entry.frameSeq →
        entry ∈ r.window.entries

instance (r : WindowRun) (first : UInt32) : Decidable (ResumeSafe r first) := by
  unfold ResumeSafe
  split
  · exact inferInstance
  · exact @Option.decidableForallMem _ _ (fun _ => Option.decidableForallMem _) _

theorem canResume_iff {w : ReplayWindow} {first : UInt32} :
    w.canResume { epoch := w.epoch, firstRequiredSeq := first } = .ok () ↔
      ∃ oldest newest, w.earliestSequence = some oldest ∧ w.latestSequence = some newest ∧
        oldest ≤ first ∧ first.toNat ≤ newest.toNat + 1 := by
  unfold ReplayWindow.canResume
  rw [if_neg (by simp)]
  split
  next oldest newest holdest hnewest =>
    have hnext : (if newest = 0xFFFFFFFF then newest else newest + 1) < first ↔
        newest.toNat + 1 < first.toNat := by
      have hfirst := first.toNat_lt
      rw [UInt32.lt_iff_toNat_lt]
      split
      next hmax =>
        subst hmax
        simp only [UInt32.reduceToNat]
        omega
      next hmax =>
        have hne : newest.toNat ≠ 4294967295 := fun h => hmax (UInt32.toNat_inj.mp h)
        have hlt := newest.toNat_lt
        have hone : (1 : UInt32).toNat = 1 := rfl
        rw [UInt32.toNat_add, hone, Nat.mod_eq_of_lt (by omega)]
    dsimp only
    by_cases hout : first < oldest ∨ (if newest = 0xFFFFFFFF then newest else newest + 1) < first
    · rw [if_pos hout]
      rw [hnext, UInt32.lt_iff_toNat_lt] at hout
      refine ⟨fun h => (by cases h), ?_⟩
      rintro ⟨oldest', newest', holdest', hnewest', hlow, hhigh⟩
      rw [holdest] at holdest'
      rw [hnewest] at hnewest'
      cases holdest'
      cases hnewest'
      rw [UInt32.le_iff_toNat_le] at hlow
      omega
    · rw [if_neg hout]
      rw [hnext, UInt32.lt_iff_toNat_lt] at hout
      refine ⟨fun _ => ⟨oldest, newest, holdest, hnewest, ?_, ?_⟩, fun _ => rfl⟩
      · rw [UInt32.le_iff_toNat_le]
        omega
      · omega
  next hnone =>
    refine ⟨fun h => (by cases h), ?_⟩
    rintro ⟨oldest, newest, holdest, hnewest, _⟩
    exact absurd hnewest (hnone oldest newest holdest)

theorem retainedFrom_iff {w : ReplayWindow} {first : UInt32} {out : List ReplayEntry} :
    w.retainedFrom w.epoch first = .ok out ↔
      w.canResume { epoch := w.epoch, firstRequiredSeq := first } = .ok () ∧
        out = w.entries.filter (·.frameSeq ≥ first) := by
  unfold ReplayWindow.retainedFrom
  split
  next error herror => simp [herror]
  next hok =>
    rw [hok]
    exact ⟨fun h => ⟨rfl, (Except.ok.inj h).symm⟩, fun h => by rw [h.2]⟩

section

variable {r : WindowRun} (h : r.Numbered)

include h

theorem WindowRun.Numbered.bounds {entry : ReplayEntry} (hentry : entry ∈ r.recorded) :
    1 ≤ entry.frameSeq.toNat ∧ entry.frameSeq.toNat ≤ r.recorded.length := by
  obtain ⟨i, hi⟩ := List.mem_iff_getElem?.mp hentry
  have hnumber := h.numbered i entry hi
  have hbound := (List.getElem?_eq_some_iff.mp hi).1
  omega

theorem WindowRun.Numbered.increasing : r.recorded.Pairwise fun a b => a.frameSeq < b.frameSeq := by
  rw [List.pairwise_iff_getElem]
  intro i j hi hj hij
  have hfirst := h.numbered i _ (List.getElem?_eq_getElem hi)
  have hsecond := h.numbered j _ (List.getElem?_eq_getElem hj)
  rw [UInt32.lt_iff_toNat_lt]
  omega

/-- The frames from `first` on are those recorded behind the first `first - 1`. -/
theorem WindowRun.Numbered.from (first : UInt32) :
    r.recorded.filter (·.frameSeq ≥ first) = r.recorded.drop (first.toNat - 1) := by
  conv_lhs => rw [← List.take_append_drop (first.toNat - 1) r.recorded, List.filter_append]
  have hbefore : (r.recorded.take (first.toNat - 1)).filter (·.frameSeq ≥ first) = [] := by
    rw [List.filter_eq_nil_iff]
    intro entry hentry
    obtain ⟨i, hi⟩ := List.mem_iff_getElem?.mp hentry
    have hbound := (List.getElem?_eq_some_iff.mp hi).1
    rw [List.length_take] at hbound
    rw [List.getElem?_take_of_lt (by omega)] at hi
    have hnumber := h.numbered i entry hi
    simp only [ge_iff_le, decide_eq_true_eq, UInt32.le_iff_toNat_le]
    omega
  have hbehind : (r.recorded.drop (first.toNat - 1)).filter (·.frameSeq ≥ first) =
      r.recorded.drop (first.toNat - 1) := by
    rw [List.filter_eq_self]
    intro entry hentry
    obtain ⟨i, hi⟩ := List.mem_iff_getElem?.mp hentry
    rw [List.getElem?_drop] at hi
    have hnumber := h.numbered _ entry hi
    simp only [ge_iff_le, decide_eq_true_eq, UInt32.le_iff_toNat_le]
    omega
  rw [hbefore, hbehind, List.nil_append]

/-- Every frame from `first` on is retained. -/
theorem WindowRun.Numbered.whole_iff {first : UInt32} (hfirst : 1 ≤ first.toNat) :
    r.Whole first ↔ first.toNat ≤ r.recorded.length + 1 ∧
      ∀ entry ∈ r.recorded, first ≤ entry.frameSeq → entry ∈ r.window.entries := by
  have hnumber : ∀ a ∈ r.recorded, ∀ b ∈ r.recorded, a.frameSeq.toNat = b.frameSeq.toNat → a = b := by
    intro a ha b hb hsame
    obtain ⟨i, hi⟩ := List.mem_iff_getElem?.mp ha
    obtain ⟨j, hj⟩ := List.mem_iff_getElem?.mp hb
    have hi' := h.numbered i a hi
    have hj' := h.numbered j b hj
    obtain rfl : i = j := by omega
    exact Option.some.inj (hi.symm.trans hj)
  refine and_congr_right fun _ => ⟨fun hhas entry hentry hle => ?_, fun hall number hlow hhigh => ?_⟩
  · obtain ⟨kept, hkept, hsame⟩ := hhas entry.frameSeq.toNat (UInt32.le_iff_toNat_le.mp hle)
      (h.bounds hentry).2
    rwa [hnumber entry hentry kept (h.kept.subset hkept) hsame.symm]
  · have hget := List.getElem?_eq_getElem (show number - 1 < r.recorded.length by omega)
    have hseq := h.numbered _ _ hget
    refine ⟨_, hall _ (List.mem_of_getElem? hget) ?_, ?_⟩
    · rw [UInt32.le_iff_toNat_le]
      omega
    · omega

end

/-- With every frame from `first` on retained, the retained ones are the recorded ones. -/
theorem retained_eq {r : WindowRun} (h : r.Numbered) {first : UInt32}
    (hall : ∀ entry ∈ r.recorded, first ≤ entry.frameSeq → entry ∈ r.window.entries) :
    r.window.entries.filter (·.frameSeq ≥ first) = r.recorded.drop (first.toNat - 1) := by
  rw [← h.from]
  have hsub : (r.window.entries.filter (·.frameSeq ≥ first)).Sublist
      (r.recorded.filter (·.frameSeq ≥ first)) := h.kept.filter _
  have hnodup : (r.recorded.filter (·.frameSeq ≥ first)).Nodup :=
    (h.increasing.imp fun hlt heq => absurd (heq ▸ hlt) (UInt32.lt_irrefl _)).filter _
  have hperm : (r.window.entries.filter (·.frameSeq ≥ first)).Perm
      (r.recorded.filter (·.frameSeq ≥ first)) := by
    refine (List.perm_ext_iff_of_nodup (hnodup.sublist hsub) hnodup).mpr fun entry => ?_
    refine ⟨fun hentry => hsub.subset hentry, fun hentry => ?_⟩
    obtain ⟨hmem, hle⟩ := List.mem_filter.mp hentry
    exact List.mem_filter.mpr ⟨hall entry hmem (by simpa using hle), hle⟩
  exact hsub.eq_of_length hperm.length_eq

theorem earliest_mem {w : ReplayWindow} {oldest : UInt32} (h : w.earliestSequence = some oldest) :
    ∃ entry ∈ w.entries, entry.frameSeq = oldest := by
  obtain ⟨entry, hentry, hseq⟩ := Option.map_eq_some_iff.mp h
  exact ⟨entry, List.mem_of_head? hentry, hseq⟩

theorem latest_mem {w : ReplayWindow} {newest : UInt32} (h : w.latestSequence = some newest) :
    ∃ entry ∈ w.entries, entry.frameSeq = newest := by
  obtain ⟨entry, hentry, hseq⟩ := Option.map_eq_some_iff.mp h
  exact ⟨entry, List.mem_of_getLast? hentry, hseq⟩

/-- Every retained frame lies between the earliest and the latest one. -/
theorem retained_between {w : ReplayWindow} {entry : ReplayEntry}
    (hincreasing : w.entries.Pairwise fun a b => a.frameSeq < b.frameSeq) (h : entry ∈ w.entries) :
    ∃ oldest newest, w.earliestSequence = some oldest ∧ w.latestSequence = some newest ∧
      oldest ≤ entry.frameSeq ∧ entry.frameSeq ≤ newest := by
  obtain ⟨front, last, hlast⟩ : ∃ front last, w.entries = front ++ [last] :=
    ⟨_, _, (List.dropLast_append_getLast (List.ne_nil_of_mem h)).symm⟩
  obtain ⟨head, tail, hhead⟩ := List.exists_cons_of_ne_nil (List.ne_nil_of_mem h)
  refine ⟨head.frameSeq, last.frameSeq, by simp [ReplayWindow.earliestSequence, hhead],
    by simp [ReplayWindow.latestSequence, hlast], ?_, ?_⟩
  · rw [hhead] at h hincreasing
    rcases List.mem_cons.mp h with rfl | htail
    · exact UInt32.le_refl _
    · exact UInt32.le_of_lt ((List.pairwise_cons.mp hincreasing).1 entry htail)
  · rw [hlast] at h hincreasing
    rcases List.mem_append.mp h with hfront | hsame
    · exact UInt32.le_of_lt ((List.pairwise_append.mp hincreasing).2.2 entry hfront last (by simp))
    · rw [List.mem_singleton.mp hsame]
      exact UInt32.le_refl _

/-- The window answers a request for `first`. -/
def ReplayWindow.Answers (w : ReplayWindow) (first : UInt32) : Prop :=
  ∃ oldest newest, w.earliestSequence = some oldest ∧ w.latestSequence = some newest ∧
    oldest ≤ first ∧ first.toNat ≤ newest.toNat + 1

section

variable {r : WindowRun} (h : r.Numbered) {first : UInt32}

include h

theorem WindowRun.Numbered.retained_increasing :
    r.window.entries.Pairwise fun a b => a.frameSeq < b.frameSeq :=
  h.increasing.sublist h.kept

theorem WindowRun.Numbered.answers_bounds (hanswers : r.window.Answers first) :
    1 ≤ first.toNat ∧ first.toNat ≤ r.recorded.length + 1 := by
  obtain ⟨oldest, newest, holdest, hnewest, hlow, hhigh⟩ := hanswers
  obtain ⟨head, hhead, rfl⟩ := earliest_mem holdest
  obtain ⟨last, hlast, rfl⟩ := latest_mem hnewest
  have hheadBound := h.bounds (h.kept.subset hhead)
  have hlastBound := h.bounds (h.kept.subset hlast)
  rw [UInt32.le_iff_toNat_le] at hlow
  omega

theorem WindowRun.Numbered.answers_next (hfirst : first.toNat = r.recorded.length + 1) :
    r.window.Answers first ↔
      ∃ newest ∈ r.window.entries, newest.frameSeq.toNat = r.recorded.length := by
  constructor
  · rintro ⟨oldest, newest, holdest, hnewest, hlow, hhigh⟩
    obtain ⟨last, hlast, rfl⟩ := latest_mem hnewest
    have hbound := h.bounds (h.kept.subset hlast)
    exact ⟨last, hlast, by omega⟩
  · rintro ⟨last, hlast, hseq⟩
    obtain ⟨oldest, newest, holdest, hnewest, hlow, hhigh⟩ :=
      retained_between h.retained_increasing hlast
    rw [UInt32.le_iff_toNat_le] at hlow hhigh
    refine ⟨oldest, newest, holdest, hnewest, ?_, ?_⟩
    · rw [UInt32.le_iff_toNat_le]
      omega
    · omega

theorem WindowRun.Numbered.answers_of_whole (hwhole : r.Whole first)
    (hfirst : first.toNat ≠ r.recorded.length + 1) : r.window.Answers first := by
  have hle : first.toNat ≤ r.recorded.length := by
    have hbound := hwhole.1
    omega
  obtain ⟨entry, hentry, hseq⟩ := hwhole.2 first.toNat (Nat.le_refl _) hle
  obtain ⟨oldest, newest, holdest, hnewest, hlow, hhigh⟩ :=
    retained_between h.retained_increasing hentry
  rw [UInt32.toNat_inj.mp hseq] at hlow hhigh
  refine ⟨oldest, newest, holdest, hnewest, hlow, ?_⟩
  rw [UInt32.le_iff_toNat_le] at hhigh
  omega

/-- The law comes down to when the window answers. -/
theorem WindowRun.Numbered.law_iff :
    ResumeLaw r first ↔ (r.window.Answers first ↔ r.Whole first) := by
  have hretained : (∃ out, r.window.retainedFrom r.window.epoch first = .ok out) ↔
      r.window.Answers first := by
    constructor
    · rintro ⟨out, hout⟩
      exact canResume_iff.mp (retainedFrom_iff.mp hout).1
    · intro hanswers
      exact ⟨_, retainedFrom_iff.mpr ⟨canResume_iff.mpr hanswers, rfl⟩⟩
  constructor
  · exact fun hlaw => canResume_iff.symm.trans hlaw.resumes
  · intro hiff
    refine ⟨canResume_iff.trans hiff, hretained.trans hiff, fun out hout => ?_⟩
    have hanswers : r.window.Answers first := hretained.mp ⟨out, hout⟩
    have hall := ((h.whole_iff (h.answers_bounds hanswers).1).mp (hiff.mp hanswers)).2
    rw [(retainedFrom_iff.mp hout).2]
    exact retained_eq h hall

end

/-- Resumption keeps its law exactly when a request for what comes next finds the newest frame retained,
and any other within the window finds no hole. -/
theorem resume_law_iff (capacity : Nat) (calls : List WindowCall)
    (hcalls : Along WindowRun.step WindowRun.Dense { window := { capacity } } calls) (first : UInt32) :
    ResumeLaw (run WindowRun.step { window := { capacity } } calls) first ↔
      ResumeSafe (run WindowRun.step { window := { capacity } } calls) first := by
  have h := numbered_run capacity hcalls
  generalize run WindowRun.step { window := { capacity } } calls = r at h
  rw [h.law_iff]
  unfold ResumeSafe
  split
  next hfirst =>
    have hwhole : r.Whole first := ⟨by omega, fun number hlow hhigh => by omega⟩
    rw [← h.answers_next hfirst]
    exact ⟨fun hiff => hiff.mpr hwhole, fun hanswers => ⟨fun _ => hwhole, fun _ => hanswers⟩⟩
  next hfirst =>
    constructor
    · intro hiff oldest holdest newest hnewest hlow hhigh
      have hanswers : r.window.Answers first := ⟨oldest, newest, holdest, hnewest, hlow, hhigh⟩
      exact ((h.whole_iff (h.answers_bounds hanswers).1).mp (hiff.mp hanswers)).2
    · intro hsafe
      refine ⟨fun hanswers => ?_, fun hwhole => h.answers_of_whole hwhole hfirst⟩
      obtain ⟨hone, hle⟩ := h.answers_bounds hanswers
      obtain ⟨oldest, newest, holdest, hnewest, hlow, hhigh⟩ := hanswers
      exact (h.whole_iff hone).mpr ⟨hle, hsafe oldest holdest newest hnewest hlow hhigh⟩

/-- Two frames evicted or acknowledged from the front leave the others to be resumed. -/
theorem resume_law_iff_front :
    ResumeLaw (run WindowRun.step { window := { capacity := 3 } }
      [.record 1 1 [1], .record 1 2 [2], .record 1 3 [3], .record 1 4 [4], .acknowledge 1 [⟨2, 2⟩]]) 3 :=
  (resume_law_iff 3 _ (by decide +kernel) 3).mpr (by decide +kernel)

/-- An acknowledgement from the middle leaves a hole that resumption from 1 passes over. -/
theorem resume_law_broken : ¬ ∀ (capacity : Nat), 1 ≤ capacity → ∀ calls : List WindowCall,
    Along WindowRun.step WindowRun.Dense { window := { capacity } } calls →
    ∀ first, ResumeLaw (run WindowRun.step { window := { capacity } } calls) first := by
  intro h
  have hlaw := h 4 (by decide) [.record 1 1 [1], .record 1 2 [2], .record 1 3 [3],
    .acknowledge 1 [⟨2, 2⟩]] (by decide) 1
  have hexact := hlaw.exact [{ frameSeq := 1, encoded := [1] }, { frameSeq := 3, encoded := [3] }]
    (by decide)
  revert hexact
  decide

end LatticeGateway
