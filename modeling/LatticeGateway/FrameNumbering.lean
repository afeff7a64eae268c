import LatticeGateway.SnapshotLoading

namespace LatticeGateway

open Runs

namespace ConnectionEngine

/-- A frame number that an engine has retained from a snapshot, or that it has sent a frame under. -/
inductive Mark
  | retained (frameSeq : UInt32)
  | sent (frameSeq : UInt32)
  deriving DecidableEq, Repr

def Mark.number : Mark → Nat
  | .retained frameSeq => frameSeq.toNat
  | .sent frameSeq => frameSeq.toNat

/-- A frame that is sent is numbered above what came before it; a snapshot may be any. -/
def Mark.Before (earlier : Mark) : Mark → Prop
  | .retained _ => True
  | .sent frameSeq => earlier.number < frameSeq.toNat

instance (earlier later : Mark) : Decidable (earlier.Before later) := by
  cases later with
  | retained => exact isTrue trivial
  | sent => exact Nat.decLt _ _

/-- The marks of a call, in their order. -/
def marks (e : ConnectionEngine) : Call → List Mark
  | .loadReplaySnapshot text =>
    match e.loadReplaySnapshot text with
    | (.error _, _) => []
    | (.ok _, e') => e'.replay.entries.map (.retained ·.frameSeq)
  | c => ((e.emissions c).filter (·.Sent)).map (.sent ·.2.frameSeq)

def log (e : ConnectionEngine) : List Call → List Mark
  | [] => []
  | c :: calls => e.marks c ++ log (e.call c) calls

/-- A call numbers no more frames than there are numbers left, and an accepted snapshot does not set
the counter back. A counter that has wrapped stands at 0. -/
def KeepsCount (e : ConnectionEngine) : Call → Prop
  | .loadReplaySnapshot text =>
    e.state = .created → ∀ w ∈ (ReplayWindow.restoreRetained text).toOption,
      w.latestSequence ≠ some 0xFFFFFFFF → e.nextFrameSeq ≠ 0 ∧ e.nextFrameSeq ≤ w.following
  | c =>
    e.emissions c = [] ∨ e.nextFrameSeq ≠ 0 ∧ e.nextFrameSeq.toNat + (e.emissions c).length ≤ 2 ^ 32

instance (e : ConnectionEngine) (c : Call) : Decidable (e.KeepsCount c) := by
  cases c with
  | loadReplaySnapshot text =>
    have := @Option.decidableForallMem
    exact inferInstanceAs (Decidable (_ → ∀ w ∈ (ReplayWindow.restoreRetained text).toOption, _))
  | _ => exact inferInstanceAs (Decidable (_ ∨ _))

/-- Frames go out under ever higher numbers, above those of any snapshot, and none once the counter
has wrapped. -/
structure Ascends (e : ConnectionEngine) (calls : List Call) : Prop where
  increasing : (log e calls).Pairwise Mark.Before
  exhausted : ∀ before c after, calls = before ++ c :: after → (run call e before).nextFrameSeq = 0 →
    ∀ frameSeq, .sent frameSeq ∉ marks (run call e before) c

theorem emit_nextFrameSeq (e : ConnectionEngine) (frame : Frame) :
    (e.emit frame).2.nextFrameSeq = e.nextFrameSeq := by
  unfold emit
  split
  next => rfl
  next =>
    split
    next => rfl
    next =>
      split
      next h =>
        obtain rfl := congrArg Prod.snd h
        rfl
      next h =>
        obtain rfl := congrArg Prod.snd h
        rfl

theorem Trace.counter {e e' : ConnectionEngine} {ps : List Emission} (h : Trace e ps e') :
    e'.nextFrameSeq = e.nextFrameSeq + UInt32.ofNat ps.length := by
  induction h with
  | still hstill => simp [hstill.nextFrameSeq]
  | emit _ _ hstill =>
    rw [emit_nextFrameSeq, hstill.nextFrameSeq]
    rfl
  | append _ _ ih ih' =>
    rw [ih', ih, List.length_append, UInt32.ofNat_add, UInt32.add_assoc]

theorem toNat_add_ofNat {a : UInt32} {n : Nat} (h : a.toNat + n < 2 ^ 32) :
    (a + UInt32.ofNat n).toNat = a.toNat + n := by
  rw [UInt32.toNat_add, UInt32.toNat_ofNat', Nat.mod_eq_of_lt (show n < 2 ^ 32 by omega),
    Nat.mod_eq_of_lt h]

/-- While numbers are left they are handed out one after the other. -/
theorem Trace.numbers {e e' : ConnectionEngine} {ps : List Emission} (h : Trace e ps e')
    (hroom : e.nextFrameSeq.toNat + ps.length ≤ 2 ^ 32) :
    ps.map (·.2.frameSeq.toNat) = List.range' e.nextFrameSeq.toNat ps.length := by
  induction h with
  | still => rfl
  | emit hseq => simp [hseq]
  | @append e e' _ ps qs h _ ih ih' =>
    rw [List.length_append] at hroom
    rw [List.map_append, List.length_append, ← List.range'_append_1, ih (by omega)]
    congr 1
    rcases qs with _ | ⟨q, qs⟩
    · rfl
    have hlength : (q :: qs).length = qs.length + 1 := rfl
    have hnext : e'.nextFrameSeq.toNat = e.nextFrameSeq.toNat + ps.length := by
      rw [h.counter, toNat_add_ofNat (by omega)]
    rw [ih' (by omega), hnext]

/-- The numbers below the counter; all of them once it has wrapped. -/
def ceiling (e : ConnectionEngine) : Nat := if e.nextFrameSeq = 0 then 2 ^ 32 else e.nextFrameSeq.toNat

theorem ceiling_of_ne {e : ConnectionEngine} (h : e.nextFrameSeq ≠ 0) :
    e.ceiling = e.nextFrameSeq.toNat := if_neg h

/-- The counter has gone up by the frames numbered, and stands at 0 if these were the last numbers. -/
theorem Trace.ceiling {e e' : ConnectionEngine} {ps : List Emission} (h : Trace e ps e')
    (hcounter : e.nextFrameSeq ≠ 0) (hroom : e.nextFrameSeq.toNat + ps.length ≤ 2 ^ 32) :
    e'.ceiling = e.nextFrameSeq.toNat + ps.length := by
  have hpos : e.nextFrameSeq.toNat ≠ 0 := fun hzero => hcounter (UInt32.toNat_inj.mp hzero)
  unfold ConnectionEngine.ceiling
  rw [h.counter]
  by_cases hwraps : e.nextFrameSeq.toNat + ps.length < 2 ^ 32
  · have hnext := toNat_add_ofNat hwraps
    rw [if_neg, hnext]
    rw [← UInt32.toNat_inj, hnext, UInt32.toNat_zero]
    omega
  · have hwrapped : e.nextFrameSeq.toNat + ps.length = 2 ^ 32 := by omega
    rw [if_pos, hwrapped]
    rw [← UInt32.toNat_inj, UInt32.toNat_add, UInt32.toNat_ofNat', Nat.add_mod_mod, hwrapped]
    rfl

theorem Trace.number_bounds {e e' : ConnectionEngine} {ps : List Emission} (h : Trace e ps e')
    (hroom : e.nextFrameSeq.toNat + ps.length ≤ 2 ^ 32) {p : Emission} (hp : p ∈ ps) :
    e.nextFrameSeq.toNat ≤ p.2.frameSeq.toNat ∧
      p.2.frameSeq.toNat < e.nextFrameSeq.toNat + ps.length := by
  have hmem : p.2.frameSeq.toNat ∈ List.range' e.nextFrameSeq.toNat ps.length := by
    rw [← h.numbers hroom]
    exact List.mem_map_of_mem hp
  exact List.mem_range'_1.mp hmem

theorem marks_of_not_load (e : ConnectionEngine) {c : Call} (hload : ∀ text, c ≠ .loadReplaySnapshot text) :
    e.marks c = ((e.emissions c).filter (·.Sent)).map (.sent ·.2.frameSeq) := by
  unfold marks
  split
  next text => exact absurd rfl (hload text)
  next => rfl

/-- What a call that keeps count does to the counter, and what it marks. -/
structure Counts (e : ConnectionEngine) (c : Call) : Prop where
  grows : e.ceiling ≤ (e.call c).ceiling
  below : ∀ mark ∈ e.marks c, mark.number < (e.call c).ceiling
  above : ∀ frameSeq, .sent frameSeq ∈ e.marks c → e.ceiling ≤ frameSeq.toNat
  increasing : (e.marks c).Pairwise Mark.Before

theorem Counts.quiet {e : ConnectionEngine} {c : Call} (hmarks : e.marks c = [])
    (hcounter : (e.call c).nextFrameSeq = e.nextFrameSeq) : Counts e c where
  grows := by
    unfold ceiling
    rw [hcounter]
  below := by simp [hmarks]
  above := by simp [hmarks]
  increasing := by simp [hmarks]

theorem load_counts {e : ConnectionEngine} {text : Bytes} (h : KeepsCount e (.loadReplaySnapshot text)) :
    Counts e (.loadReplaySnapshot text) := by
  rcases loadReplaySnapshot_cases e text with
    ⟨error, hload, _⟩ | ⟨w, hcreated, hw, ⟨_, hload⟩ | ⟨hlatest, hload⟩⟩
  · exact .quiet (by simp [marks, hload]) (by simp [call, hload])
  · exact .quiet (by simp [marks, hload]) (by simp [call, hload])
  have hmarks : e.marks (.loadReplaySnapshot text) = w.entries.map (.retained ·.frameSeq) := by
    simp [marks, hload]
  have hcall : (e.call (.loadReplaySnapshot text)).nextFrameSeq = w.following := by
    simp [call, hload]
  obtain ⟨hcounter, hle⟩ := h hcreated w (by simp [hw, Except.toOption]) hlatest
  have hle := UInt32.le_iff_toNat_le.mp hle
  have hpos : e.nextFrameSeq.toNat ≠ 0 := fun hzero => hcounter (UInt32.toNat_inj.mp hzero)
  have hceiling : (e.call (.loadReplaySnapshot text)).ceiling = w.following.toNat := by
    rw [ceiling_of_ne, hcall]
    rw [hcall]
    rintro hzero
    rw [hzero] at hle
    simp only [UInt32.toNat_zero] at hle
    omega
  refine ⟨?_, ?_, ?_, ?_⟩
  · rw [hceiling, ceiling_of_ne hcounter]
    exact hle
  · intro mark hmark
    rw [hmarks] at hmark
    obtain ⟨entry, hentry, rfl⟩ := List.mem_map.mp hmark
    rw [hceiling]
    exact UInt32.lt_iff_toNat_lt.mp ((restoreRetained_sound hw).below hlatest entry hentry)
  · intro frameSeq hsent
    rw [hmarks] at hsent
    simp at hsent
  · rw [hmarks, List.pairwise_map]
    exact List.pairwise_of_forall fun _ _ => trivial

theorem trace_counts {e : ConnectionEngine} {c : Call} (h : KeepsCount e c)
    (hload : ∀ text, c ≠ .loadReplaySnapshot text) : Counts e c := by
  have htrace := call_trace e hload
  have hmarks := marks_of_not_load e hload
  have hcount : e.emissions c = [] ∨
      e.nextFrameSeq ≠ 0 ∧ e.nextFrameSeq.toNat + (e.emissions c).length ≤ 2 ^ 32 := by
    unfold KeepsCount at h
    split at h
    next text => exact absurd rfl (hload text)
    next => exact h
  generalize e.emissions c = ps at htrace hmarks hcount
  rcases hcount with rfl | ⟨hcounter, hroom⟩
  · refine .quiet (by simp [hmarks]) ?_
    rw [htrace.counter]
    simp
  have hceiling := htrace.ceiling hcounter hroom
  refine ⟨?_, ?_, ?_, ?_⟩
  · rw [ceiling_of_ne hcounter, hceiling]
    omega
  · intro mark hmark
    rw [hmarks] at hmark
    obtain ⟨p, hp, rfl⟩ := List.mem_map.mp hmark
    rw [hceiling]
    exact (htrace.number_bounds hroom (List.mem_filter.mp hp).1).2
  · intro frameSeq hsent
    rw [hmarks] at hsent
    obtain ⟨p, hp, hsame⟩ := List.mem_map.mp hsent
    obtain rfl : p.2.frameSeq = frameSeq := by injection hsame
    rw [ceiling_of_ne hcounter]
    exact (htrace.number_bounds hroom (List.mem_filter.mp hp).1).1
  · rw [hmarks, List.pairwise_map]
    have hincreasing : ps.Pairwise fun p q => p.2.frameSeq.toNat < q.2.frameSeq.toNat := by
      rw [← List.pairwise_map, htrace.numbers hroom]
      exact List.pairwise_lt_range'
    exact hincreasing.filter _

theorem KeepsCount.counts {e : ConnectionEngine} {c : Call} (h : KeepsCount e c) : Counts e c := by
  by_cases hload : ∃ text, c = .loadReplaySnapshot text
  · obtain ⟨text, rfl⟩ := hload
    exact load_counts h
  · exact trace_counts h fun text hc => hload ⟨text, hc⟩

theorem log_increasing {e : ConnectionEngine} {calls : List Call} (h : Along call KeepsCount e calls) :
    (log e calls).Pairwise Mark.Before ∧
      ∀ frameSeq, .sent frameSeq ∈ log e calls → e.ceiling ≤ frameSeq.toNat := by
  induction calls generalizing e with
  | nil => simp [log]
  | cons c calls ih =>
    have hcounts := h.1.counts
    obtain ⟨hincreasing, habove⟩ := ih h.2
    unfold log
    constructor
    · refine List.pairwise_append.mpr ⟨hcounts.increasing, hincreasing, ?_⟩
      intro earlier hearlier later hlater
      cases later with
      | retained => trivial
      | sent frameSeq => exact Nat.lt_of_lt_of_le (hcounts.below earlier hearlier) (habove _ hlater)
    · intro frameSeq hsent
      rcases List.mem_append.mp hsent with hfirst | hrest
      · exact hcounts.above _ hfirst
      · exact hcounts.grows.trans (habove _ hrest)

/-- In a run whose calls keep count the frame numbers never wrap or repeat. -/
theorem frame_numbers_ascend (policy : LocalPolicy) (registry : PluginRegistry)
    (executor : Option (DeterministicExecutor EngineTask)) (calls : List Call)
    (h : Along call KeepsCount (make policy registry executor) calls) :
    Ascends (make policy registry executor) calls where
  increasing := (log_increasing h).1
  exhausted := by
    rintro before c after rfl hwrapped frameSeq hsent
    have hcounts : KeepsCount (run call (make policy registry executor) before) c :=
      (along_append.mp h).2.1
    have habove := hcounts.counts.above _ hsent
    unfold ceiling at habove
    rw [if_pos hwrapped] at habove
    have hlt := frameSeq.toNat_lt
    omega

theorem frame_numbers_ascend_loaded :
    Ascends (make {} {} none) [.loadReplaySnapshot fullSnapshot, .start, .ping 5] :=
  frame_numbers_ascend {} {} none _ (by decide +kernel)

/-- One entry, under the last number but one. -/
def lastButOneSnapshot : Bytes := ascii "LTXREPLAY/1\ncapacity|4\nepoch|1\nentry|4294967294|0|aa\n"

theorem frame_numbers_wrap :
    log (make {} {} none) [.loadReplaySnapshot lastButOneSnapshot, .start, .ping 5] =
        [.retained 0xFFFFFFFE, .sent 0xFFFFFFFF, .sent 0] ∧
      ¬ (log (make {} {} none) [.loadReplaySnapshot lastButOneSnapshot, .start, .ping 5]).Pairwise
        Mark.Before := by
  decide +kernel

end ConnectionEngine

end LatticeGateway
