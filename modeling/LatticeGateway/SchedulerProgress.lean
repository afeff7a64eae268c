import LatticeGateway.SchedulerLedger

namespace LatticeGateway

open BlockStream Runs

/-- The items go on from the expected sequence number, 0 for any, without a gap. -/
def Follows : UInt32 → List OutboundItem → Prop
  | _, [] => True
  | expected, item :: rest => (expected = 0 ∨ item.sequence = expected) ∧ Follows (item.sequence + 1) rest

/-- What is queued on a channel is what `drain` waits for there. -/
def OutboundScheduler.InStep (s : OutboundScheduler) (channelNo : UInt32) : Prop :=
  Follows (s.expected channelNo) (s.queue (some channelNo))

theorem inStep_iff (s : OutboundScheduler) (channelNo : UInt32) : s.InStep channelNo ↔
    Follows ((s.expectedSequence.lookup channelNo).getD 0) ((s.data.lookup channelNo).getD []) := Iff.rfl

theorem follows_cons {expected : UInt32} {item : OutboundItem} {rest : List OutboundItem} :
    Follows expected (item :: rest) ↔
      (expected = 0 ∨ item.sequence = expected) ∧ Follows (item.sequence + 1) rest := Iff.rfl

theorem drainControl_data (writableBytes : Nat) {fuel : Nat} {s : OutboundScheduler} (used : Nat)
    (out : List OutboundItem) :
    (OutboundScheduler.drainControl writableBytes fuel s used out).2.2.data = s.data ∧
      (OutboundScheduler.drainControl writableBytes fuel s used out).2.2.expectedSequence =
        s.expectedSequence := by
  induction fuel generalizing s used out with
  | zero => exact ⟨rfl, rfl⟩
  | succ fuel ih =>
    unfold OutboundScheduler.drainControl
    split
    next => exact ⟨rfl, rfl⟩
    next =>
      split
      next =>
        dsimp only
        split
        next => exact ih _ _
        next => exact ⟨rfl, rfl⟩
      next => exact ⟨rfl, rfl⟩

theorem inStep_of_eq {s s' : OutboundScheduler} (hdata : s'.data = s.data)
    (hexpected : s'.expectedSequence = s.expectedSequence) (channelNo : UInt32) :
    s'.InStep channelNo ↔ s.InStep channelNo := by
  rw [inStep_iff, inStep_iff, hdata, hexpected]

theorem inStep_other {s : OutboundScheduler} {channelNo other queued cursor}
    {expectedSequence : AList fun _ : UInt32 => UInt32} {queue : List OutboundItem}
    (hother : other ≠ channelNo)
    (hexpected : expectedSequence.lookup other = s.expectedSequence.lookup other) :
    { s with queuedBytes := queued, rrCursor := cursor, expectedSequence,
             data := s.data.insert channelNo queue }.InStep other ↔ s.InStep other := by
  rw [inStep_iff, inStep_iff, hexpected, AList.lookup_insert_ne hother]

/-- The loop over the channels neither brings a channel into step nor takes it out. -/
theorem drainData_inStep (writableBytes : Nat) {channels : List UInt32} {s : OutboundScheduler}
    (used : Nat) (out : List OutboundItem) (channelNo : UInt32) :
    (OutboundScheduler.drainData writableBytes channels s used out).2.InStep channelNo ↔
      s.InStep channelNo := by
  induction channels generalizing s used out with
  | nil => rfl
  | cons visited channels ih =>
    unfold OutboundScheduler.drainData
    split
    next => exact ih used out
    next item rest hqueue =>
      have hbefore := inStep_iff s visited
      rw [hqueue, follows_cons] at hbefore
      dsimp only
      split
      next => exact ih used out
      next hserved =>
        split
        next => exact ih used out
        next =>
          generalize min (writableBytes - used) item.encoded.length = take
          split
          next =>
            rw [ih]
            by_cases hvisited : channelNo = visited
            · subst hvisited
              rw [hbefore, inStep_iff, AList.lookup_insert, AList.lookup_insert]
              simp only [Option.getD_some]
              tauto
            · exact inStep_other hvisited (AList.lookup_insert_ne hvisited)
          next =>
            by_cases hvisited : channelNo = visited
            · subst hvisited
              rw [hbefore, inStep_iff, AList.lookup_insert]
              exact follows_cons
            · exact inStep_other hvisited rfl

theorem drain_inStep (s : OutboundScheduler) (writableBytes : Nat) (channelNo : UInt32) :
    (s.drain writableBytes).2.InStep channelNo ↔ s.InStep channelNo := by
  obtain ⟨hdata, hexpected⟩ := @drainControl_data writableBytes s.control.length s 0 []
  unfold OutboundScheduler.drain
  generalize OutboundScheduler.drainControl writableBytes s.control.length s 0 [] = stage at *
  obtain ⟨out, used, s'⟩ := stage
  dsimp only at *
  have hstage := inStep_of_eq hdata hexpected channelNo
  split
  next => exact hstage
  next =>
    split
    next => exact hstage
    next =>
      refine Iff.trans ?_ hstage
      refine Iff.trans ?_ (@drainData_inStep writableBytes s'.rotation s' used out channelNo)
      unfold OutboundScheduler.InStep
      rw [queue_eraseEmpty]
      rfl

theorem totalBytes_pos {items : List OutboundItem} (hne : items ≠ [])
    (hfull : ∀ item ∈ items, item.encoded ≠ []) : 0 < totalBytes items := by
  obtain ⟨item, rest, rfl⟩ := List.exists_cons_of_ne_nil hne
  have hpos := List.length_pos_iff.mpr (hfull item (by simp))
  rw [totalBytes_cons]
  omega

theorem mem_rotation {s : OutboundScheduler} {channelNo : UInt32} :
    channelNo ∈ s.rotation ↔ s.queue (some channelNo) ≠ [] := by
  unfold OutboundScheduler.rotation
  dsimp only
  rw [List.mem_append, or_comm, ← List.mem_append, List.take_append_drop, List.mem_insertionSort,
    List.mem_filter, decide_eq_true_eq]
  refine ⟨fun h => h.2, fun h => ⟨?_, h⟩⟩
  rw [← AList.mem_keys, ← AList.lookup_isSome]
  by_contra hnone
  refine h ?_
  unfold OutboundScheduler.queue
  dsimp only
  rw [Option.not_isSome_iff_eq_none.mp hnone]
  rfl

/-- The first channel in rotation, in step, is served. -/
theorem drainData_progress {writableBytes used : Nat} {channelNo : UInt32} {channels : List UInt32}
    {s : OutboundScheduler} (out : List OutboundItem) (hbalanced : s.Balanced)
    (hne : s.queue (some channelNo) ≠ []) (hfull : ∀ item ∈ s.queue (some channelNo), item.encoded ≠ [])
    (hstep : s.InStep channelNo) (hused : used < writableBytes) :
    totalBytes out <
      totalBytes (OutboundScheduler.drainData writableBytes (channelNo :: channels) s used out).1 := by
  obtain ⟨item, rest, hqueue⟩ := List.exists_cons_of_ne_nil hne
  have hlookup : (s.data.lookup channelNo).getD [] = item :: rest := hqueue
  have hpos := List.length_pos_iff.mpr (hfull item (by simp [hqueue]))
  rw [inStep_iff, hlookup, follows_cons] at hstep
  unfold OutboundScheduler.drainData
  rw [hlookup]
  dsimp only
  rw [if_neg (by tauto), if_neg (by omega)]
  have hle : min (writableBytes - used) item.encoded.length ≤ item.encoded.length :=
    Nat.min_le_right _ _
  have hsome : 0 < min (writableBytes - used) item.encoded.length := by omega
  generalize min (writableBytes - used) item.encoded.length = take at hle hsome ⊢
  have htotal := totalBytes_taken hle
  split
  next =>
    have hpays := @pays_data s hbalanced channelNo (channelNo + 1) rest take
      (s.expectedSequence.insert channelNo (item.sequence + 1)) (by rw [hlookup, totalBytes_cons]; omega)
    obtain ⟨more, hout, _⟩ := drainData_pays writableBytes channels (used + take)
      (out ++ [{ item with encoded := item.encoded.take take }]) hpays.balanced
    rw [hout, totalBytes_append, totalBytes_append, htotal]
    omega
  next =>
    rw [totalBytes_append, htotal]
    omega

/-- With budget, nothing comes off the control queue only if it is empty, and the queues stay as they are. -/
theorem drainControl_nothing {s : OutboundScheduler} {writableBytes : Nat} (hbalanced : s.Balanced)
    (hfull : ∀ item ∈ s.control, item.encoded ≠ []) (hpos : 0 < writableBytes)
    (hnone : totalBytes (OutboundScheduler.drainControl writableBytes s.control.length s 0 []).1 = 0) :
    s.control = [] ∧
      (OutboundScheduler.drainControl writableBytes s.control.length s 0 []).2.2.queue = s.queue := by
  obtain ⟨out, hout, hpays, hused, _⟩ :=
    @drainControl_pays writableBytes s.control.length s 0 [] hbalanced
  obtain ⟨hdata, _⟩ := @drainControl_data writableBytes s.control.length s 0 []
  have hempties := @drainControl_empties writableBytes _ s 0 [] (Nat.le_refl _)
  rw [hout, List.nil_append] at hnone
  have hleft : (OutboundScheduler.drainControl writableBytes s.control.length s 0 []).2.2.control = [] :=
    hempties (by omega)
  have hcontrol : s.control = [] := by
    by_contra hcontrol
    have hqueued := hpays.queued
    have hunsent := hpays.balanced
    unfold OutboundScheduler.Balanced OutboundScheduler.unsent at hunsent hbalanced
    rw [hdata, hleft, totalBytes_nil] at hunsent
    have := totalBytes_pos hcontrol hfull
    omega
  refine ⟨hcontrol, ?_⟩
  funext key
  cases key with
  | none => exact hleft.trans hcontrol.symm
  | some channelNo => exact congrArg (fun data : AList _ => (data.lookup channelNo).getD []) hdata

theorem keys_ne_nil {s : OutboundScheduler} {channelNo : UInt32} (h : s.queue (some channelNo) ≠ []) :
    s.data.keys ≠ [] := by
  intro hnil
  refine h ?_
  unfold OutboundScheduler.queue
  dsimp only
  rw [AList.lookup_eq_none.mpr (by rw [AList.mem_keys, hnil]; simp)]
  rfl

/-- While anything is queued and every channel is in step, a drain puts something out. -/
theorem drain_progress {s : OutboundScheduler} {writableBytes : Nat} (hbalanced : s.Balanced)
    (hfull : ∀ key, ∀ item ∈ s.queue key, item.encoded ≠ []) (hstep : ∀ channelNo, s.InStep channelNo)
    {key : Option UInt32} (hne : s.queue key ≠ []) (hpos : 0 < writableBytes) :
    0 < totalBytes (s.drain writableBytes).1 := by
  obtain ⟨out, hout, hpays, hused, _⟩ :=
    @drainControl_pays writableBytes s.control.length s 0 [] hbalanced
  obtain ⟨hdata, hexpected⟩ := @drainControl_data writableBytes s.control.length s 0 []
  have hnothing := drainControl_nothing hbalanced (hfull none) hpos
  unfold OutboundScheduler.drain
  generalize OutboundScheduler.drainControl writableBytes s.control.length s 0 [] = stage at *
  obtain ⟨drained, used, s'⟩ := stage
  dsimp only at *
  rw [List.nil_append] at hout
  subst hout
  by_cases hnone : totalBytes drained = 0
  · -- the control queue was empty, so some channel's is not
    obtain ⟨hcontrol, hqueue⟩ := hnothing hnone
    obtain ⟨channelNo, rfl⟩ : ∃ channelNo, key = some channelNo := by
      cases key with
      | none => exact absurd hcontrol hne
      | some channelNo => exact ⟨channelNo, rfl⟩
    have hmem : channelNo ∈ s'.rotation := mem_rotation.mpr (by rwa [hqueue])
    obtain ⟨first, channels, hrotation⟩ := List.exists_cons_of_ne_nil (List.ne_nil_of_mem hmem)
    have hfirst : s'.queue (some first) ≠ [] := mem_rotation.mp (by simp [hrotation])
    rw [if_neg (not_or.mpr ⟨by omega, keys_ne_nil hfirst⟩), if_neg (by simp [hrotation]), hrotation]
    have hmore := @drainData_progress writableBytes used first channels s' drained hpays.balanced hfirst
      (by rw [hqueue]; exact hfull _) ((inStep_of_eq hdata hexpected first).mpr (hstep first)) (by omega)
    dsimp only
    omega
  · split
    next =>
      dsimp only
      omega
    next =>
      split
      next =>
        dsimp only
        omega
      next =>
        obtain ⟨more, hout, _⟩ :=
          drainData_pays writableBytes s'.rotation used drained hpays.balanced
        dsimp only
        rw [hout, totalBytes_append]
        omega

theorem empty_iff {s : OutboundScheduler} : s.empty = true ↔ ∀ key, s.queue key = [] := by
  unfold OutboundScheduler.empty
  rw [Bool.and_eq_true, List.isEmpty_iff, List.all_eq_true]
  constructor
  · rintro ⟨hcontrol, hdata⟩ key
    cases key with
    | none => exact hcontrol
    | some channelNo =>
      unfold OutboundScheduler.queue
      dsimp only
      cases hlookup : s.data.lookup channelNo with
      | none => rfl
      | some queue =>
        exact List.isEmpty_iff.mp (hdata ⟨channelNo, queue⟩ (AList.mem_lookup_iff.mp hlookup))
  · intro h
    refine ⟨h none, fun entry hentry => ?_⟩
    have hlookup : s.data.lookup entry.1 = some entry.2 := AList.mem_lookup_iff.mpr hentry
    have hnil := h (some entry.1)
    unfold OutboundScheduler.queue at hnil
    dsimp only at hnil
    rw [hlookup] at hnil
    exact List.isEmpty_iff.mpr hnil

theorem queues_empty {s : OutboundScheduler} (hbalanced : s.Balanced) (hzero : s.queuedBytes = 0)
    (hfull : ∀ key, ∀ item ∈ s.queue key, item.encoded ≠ []) (key : Option UInt32) : s.queue key = [] := by
  by_contra hne
  have hpos := totalBytes_pos hne (hfull key)
  unfold OutboundScheduler.Balanced OutboundScheduler.unsent at hbalanced
  cases key with
  | none =>
    rw [queue_none] at hpos
    omega
  | some channelNo =>
    have herase := sum_erase s.data channelNo
    change _ + totalBytes (s.queue (some channelNo)) = _ at herase
    omega

theorem unsent_empty {s : OutboundScheduler} (h : ∀ key, s.queue key = []) : s.unsent = 0 := by
  have hempty := empty_iff.mpr h
  unfold OutboundScheduler.empty at hempty
  rw [Bool.and_eq_true, List.isEmpty_iff, List.all_eq_true] at hempty
  unfold OutboundScheduler.unsent
  rw [hempty.1, totalBytes_nil, Nat.zero_add]
  refine List.sum_eq_zero_iff_forall_eq_nat.mpr ?_
  intro n hn
  obtain ⟨entry, hentry, rfl⟩ := List.mem_map.mp hn
  rw [List.isEmpty_iff.mp (hempty.2 entry hentry), totalBytes_nil]

/-- From `r` on, draining alone puts out all that was accepted, after at most as many calls as there are
bytes queued, whatever the budgets. -/
def SchedulerRun.Drains (r : SchedulerRun) : Prop :=
  ∀ budgets : List Nat, (∀ w ∈ budgets, 0 < w) → r.scheduler.queuedBytes ≤ budgets.length →
    (run SchedulerRun.step r (budgets.map .drain)).scheduler.empty = true ∧
      ∀ channelNo, streamBytes (some channelNo) (run SchedulerRun.step r (budgets.map .drain)).drained =
        streamBytes (some channelNo) r.accepted

theorem drains_kept {byteLimit : Nat} {r : SchedulerRun} (h : r.Kept byteLimit) (budgets : List Nat) :
    (run SchedulerRun.step r (budgets.map .drain)).Kept byteLimit ∧
      (run SchedulerRun.step r (budgets.map .drain)).accepted = r.accepted ∧
      ∀ channelNo, (run SchedulerRun.step r (budgets.map .drain)).scheduler.InStep channelNo ↔
        r.scheduler.InStep channelNo := by
  induction budgets generalizing r with
  | nil => exact ⟨h, rfl, fun _ => .rfl⟩
  | cons w budgets ih =>
    obtain ⟨hkept, haccepted, hstep⟩ := ih (h.step (.drain w))
    exact ⟨hkept, haccepted, fun c => (hstep c).trans (drain_inStep r.scheduler w c)⟩

/-- With every channel in step, each drain takes at least one byte off the queues. -/
theorem drains_progress {byteLimit : Nat} {r : SchedulerRun} (h : r.Kept byteLimit)
    (hstep : ∀ channelNo, r.scheduler.InStep channelNo) {budgets : List Nat}
    (hpos : ∀ w ∈ budgets, 0 < w) (hlength : r.scheduler.queuedBytes ≤ budgets.length) :
    (run SchedulerRun.step r (budgets.map .drain)).scheduler.queuedBytes = 0 := by
  induction budgets generalizing r with
  | nil => exact Nat.le_zero.mp hlength
  | cons w budgets ih =>
    obtain ⟨hw, hrest⟩ := List.forall_mem_cons.mp hpos
    have hqueued := (drain_pays h.balanced w).1.queued
    refine ih (h.step (.drain w)) (fun c => (drain_inStep r.scheduler w c).mpr (hstep c)) hrest ?_
    show (r.scheduler.drain w).2.queuedBytes ≤ budgets.length
    rw [List.length_cons] at hlength
    by_cases hempty : ∀ key, r.scheduler.queue key = []
    · have hbalanced := h.balanced
      unfold OutboundScheduler.Balanced at hbalanced
      rw [unsent_empty hempty] at hbalanced
      omega
    · obtain ⟨key, hkey⟩ := not_forall.mp hempty
      have := drain_progress h.balanced h.nonempty hstep hkey hw
      omega

/-- A scheduler drains exactly when every channel is in step. -/
theorem drains_iff_in_step (byteLimit : Nat) (calls : List SchedulerCall) :
    (run SchedulerRun.step { scheduler := { byteLimit } } calls).Drains ↔
      ∀ channelNo, (run SchedulerRun.step { scheduler := { byteLimit } } calls).scheduler.InStep
        channelNo := by
  have h := kept_run byteLimit calls
  generalize run SchedulerRun.step { scheduler := { byteLimit } } calls = r at h
  constructor
  · intro hdrains channelNo
    obtain ⟨hempty, _⟩ := hdrains (List.replicate r.scheduler.queuedBytes 1)
      (fun w hw => by rw [List.eq_of_mem_replicate hw]; exact Nat.one_pos) (by simp)
    obtain ⟨_, _, hstep⟩ := drains_kept h (List.replicate r.scheduler.queuedBytes 1)
    rw [← hstep channelNo]
    unfold OutboundScheduler.InStep
    rw [empty_iff.mp hempty]
    trivial
  · intro hstep budgets hpos hlength
    obtain ⟨hkept, haccepted, _⟩ := drains_kept h budgets
    have hqueues := queues_empty hkept.balanced (drains_progress h hstep hpos hlength) hkept.nonempty
    refine ⟨empty_iff.mpr hqueues, fun channelNo => ?_⟩
    have hstream := hkept.streams (some channelNo)
    rw [hqueues, haccepted] at hstream
    simpa using hstream.symm

/-- Behind a gap in its sequences, a channel is never drained again. -/
theorem drains_stuck : ¬ ∀ (byteLimit : Nat) (calls : List SchedulerCall),
    (run SchedulerRun.step { scheduler := { byteLimit } } calls).Drains := by
  intro h
  have hempty := (h 64 [.enqueue { channel := ⟨1, 1⟩, sequence := 1, encoded := [1, 2, 3] }, .drain 8,
    .enqueue { channel := ⟨1, 1⟩, sequence := 3, encoded := [4] }] [8] (by decide) (by decide)).1
  revert hempty
  decide

end LatticeGateway
