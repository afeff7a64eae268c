import LatticeGateway.SchedulerProgress

namespace LatticeGateway

/-- The numbers go on from the expected one, 0 for any, each by one. -/
def Consecutive : UInt32 → List UInt32 → Prop
  | _, [] => True
  | expected, number :: rest => (expected = 0 ∨ number = expected) ∧ Consecutive (number + 1) rest

instance decidableConsecutive : (expected : UInt32) → (numbers : List UInt32) →
    Decidable (Consecutive expected numbers)
  | _, [] => .isTrue trivial
  | _, number :: rest => @instDecidableAnd _ _ _ (decidableConsecutive (number + 1) rest)

/-- The number that is expected behind the numbers. -/
def expectedBehind : UInt32 → List UInt32 → UInt32
  | expected, [] => expected
  | _, number :: rest => expectedBehind (number + 1) rest

theorem consecutive_concat {expected number : UInt32} {numbers : List UInt32} :
    Consecutive expected (numbers ++ [number]) ↔ Consecutive expected numbers ∧
      (expectedBehind expected numbers = 0 ∨ number = expectedBehind expected numbers) := by
  induction numbers generalizing expected with
  | nil => exact and_comm
  | cons first numbers ih =>
    change _ ∧ Consecutive (first + 1) (numbers ++ [number]) ↔ (_ ∧ _) ∧ _
    rw [ih, and_assoc]
    rfl

theorem expectedBehind_concat (expected number : UInt32) (numbers : List UInt32) :
    expectedBehind expected (numbers ++ [number]) = number + 1 := by
  induction numbers generalizing expected with
  | nil => rfl
  | cons first numbers ih => exact ih (first + 1)

namespace OutboundScheduler

/-- What the channel has queued, if anything, does not begin with the number that is expected there. -/
def Blocked (s : OutboundScheduler) (channelNo : UInt32) : Prop :=
  ∀ item ∈ (s.queue (some channelNo)).head?, s.expected channelNo ≠ 0 ∧ item.sequence ≠ s.expected channelNo

/-- Nothing is queued but behind an item that is not expected. -/
structure Stalled (s : OutboundScheduler) : Prop where
  control : s.control = []
  blocked : ∀ channelNo, s.Blocked channelNo

/-- The next item of the channel may pass: nothing is before it and its number is expected. -/
def Passes (s : OutboundScheduler) (channelNo sequence : UInt32) : Prop :=
  s.queue (some channelNo) = [] ∧ (s.expected channelNo = 0 ∨ sequence = s.expected channelNo)

/-- The queues hold the same, and the channels expect the same. -/
structure SameQueues (s s' : OutboundScheduler) : Prop where
  queue : s'.queue = s.queue
  expected : s'.expected = s.expected
  byteLimit : s'.byteLimit = s.byteLimit

theorem SameQueues.refl (s : OutboundScheduler) : SameQueues s s := ⟨rfl, rfl, rfl⟩

theorem SameQueues.eraseEmpty (s : OutboundScheduler) : SameQueues s s.eraseEmpty :=
  ⟨queue_eraseEmpty s, rfl, rfl⟩

theorem SameQueues.stalled {s s' : OutboundScheduler} (hsame : SameQueues s s') (h : s.Stalled) :
    s'.Stalled := by
  refine ⟨?_, fun channelNo => ?_⟩
  · have hcontrol := congrFun hsame.queue none
    exact hcontrol.trans h.control
  · have hblocked := h.blocked channelNo
    unfold Blocked at hblocked ⊢
    rwa [hsame.queue, hsame.expected]

/-- The loop passes over a channel that is blocked. -/
theorem drainData_skip {writableBytes used : Nat} {channelNo : UInt32} {channels : List UInt32}
    {s : OutboundScheduler} {out : List OutboundItem} (h : s.Blocked channelNo) :
    drainData writableBytes (channelNo :: channels) s used out =
      drainData writableBytes channels s used out := by
  conv_lhs => unfold drainData
  split
  next => rfl
  next item rest hqueue =>
    have hblocked : (s.expectedSequence.lookup channelNo).getD 0 ≠ 0 ∧
        item.sequence ≠ (s.expectedSequence.lookup channelNo).getD 0 := by
      refine h item ?_
      change item ∈ ((s.data.lookup channelNo).getD []).head?
      rw [hqueue]
      rfl
    dsimp only
    rw [if_pos hblocked]

theorem drainData_blocked {writableBytes used : Nat} {channels : List UInt32} {s : OutboundScheduler}
    {out : List OutboundItem} (h : ∀ channelNo, s.Blocked channelNo) :
    drainData writableBytes channels s used out = (out, s) := by
  induction channels with
  | nil => rfl
  | cons channelNo channels ih =>
    rw [drainData_skip (h channelNo)]
    exact ih

/-- The scheduler after the item has gone out whole that the channel was waiting for. -/
def sentOn (s : OutboundScheduler) (channelNo : UInt32) (item : OutboundItem) : OutboundScheduler :=
  { s with queuedBytes := s.queuedBytes - item.encoded.length, rrCursor := channelNo + 1
           expectedSequence := s.expectedSequence.insert channelNo (item.sequence + 1)
           data := s.data.insert channelNo [] }

theorem sentOn_queue (s : OutboundScheduler) (channelNo : UInt32) (item : OutboundItem) :
    (s.sentOn channelNo item).queue = Function.update s.queue (some channelNo) [] :=
  queue_data s _ _ _ channelNo []

theorem sentOn_expected (s : OutboundScheduler) (channelNo : UInt32) (item : OutboundItem) :
    (s.sentOn channelNo item).expected = Function.update s.expected channelNo (item.sequence + 1) := by
  funext other
  unfold expected sentOn
  dsimp only
  by_cases hother : other = channelNo
  · subst hother
    rw [AList.lookup_insert, Function.update_self]
    rfl
  · rw [AList.lookup_insert_ne hother, Function.update_of_ne hother]

/-- Where every other channel is blocked, the loop puts out the one item that may pass, whole. -/
theorem drainData_passes {writableBytes used : Nat} {channels : List UInt32} {s : OutboundScheduler}
    {out : List OutboundItem} {channelNo : UInt32} {item : OutboundItem}
    (hothers : ∀ other, other ≠ channelNo → s.Blocked other) (hqueue : s.queue (some channelNo) = [item])
    (hexpected : s.expected channelNo = 0 ∨ item.sequence = s.expected channelNo)
    (hsome : item.encoded ≠ []) (hroom : item.encoded.length ≤ writableBytes - used)
    (hmem : channelNo ∈ channels) :
    drainData writableBytes channels s used out = (out ++ [item], s.sentOn channelNo item) := by
  induction channels with
  | nil => exact absurd hmem List.not_mem_nil
  | cons first channels ih =>
    by_cases hfirst : first = channelNo
    · subst hfirst
      have hlookup : (s.data.lookup first).getD [] = [item] := hqueue
      have hpos := List.length_pos_iff.mpr hsome
      have hwhole : min (writableBytes - used) item.encoded.length = item.encoded.length := by omega
      have hserved : ¬ ((s.expectedSequence.lookup first).getD 0 ≠ 0 ∧
          item.sequence ≠ (s.expectedSequence.lookup first).getD 0) := fun hboth =>
        hexpected.elim hboth.1 hboth.2
      have hblocked : ∀ other, (s.sentOn first item).Blocked other := by
        intro other
        unfold Blocked
        rw [sentOn_queue, sentOn_expected]
        by_cases hother : other = first
        · subst hother
          rw [Function.update_self]
          exact fun _ hnone => absurd hnone (by simp)
        · rw [Function.update_of_ne (by simpa using hother), Function.update_of_ne hother]
          exact hothers other hother
      unfold drainData
      rw [hlookup]
      dsimp only
      rw [if_neg hserved, hwhole, if_neg (by omega), if_pos rfl, List.take_length]
      exact drainData_blocked hblocked
    · rw [drainData_skip (hothers first hfirst)]
      exact ih ((List.mem_cons.mp hmem).resolve_left (Ne.symm hfirst))

/-- With nothing on the control queue and every channel blocked, `drain` puts nothing out. -/
theorem Stalled.drain {s : OutboundScheduler} (h : s.Stalled) (writableBytes : Nat) :
    (s.drain writableBytes).1 = [] ∧ SameQueues s (s.drain writableBytes).2 := by
  unfold OutboundScheduler.drain
  rw [drainControl_nil _ _ _ _ h.control]
  dsimp only
  rw [drainData_blocked h.blocked]
  split
  next => exact ⟨rfl, .refl s⟩
  next =>
    split
    next => exact ⟨rfl, .refl s⟩
    next => exact ⟨rfl, .eraseEmpty s⟩

/-- An item of the control queue goes out whole. -/
theorem Stalled.passes_control {s s' : OutboundScheduler} (h : s.Stalled) {item : OutboundItem}
    (henqueue : s.enqueue item = (.ok (), s')) (hcontrol : item.priority = .control) {writableBytes : Nat}
    (hroom : item.encoded.length ≤ writableBytes) :
    (s'.drain writableBytes).1 = [item] ∧ SameQueues s (s'.drain writableBytes).2 := by
  obtain ⟨hsome, _, ⟨_, rfl⟩ | ⟨hdata, _⟩⟩ := enqueue_cases henqueue
  swap
  · rw [hcontrol] at hdata
    cases hdata
  have hpos := List.length_pos_iff.mpr hsome
  have hwhole : min (writableBytes - 0) item.encoded.length = item.encoded.length := by omega
  have hrestored : { s with control := [] } = s := by rw [← h.control]
  have hfirst : drainControl writableBytes 1
      { s with queuedBytes := s.queuedBytes + item.encoded.length, control := [item] } 0 [] =
        ([item], item.encoded.length, s) := by
    unfold drainControl
    simp only [if_pos (show 0 < writableBytes by omega), hwhole, if_true, Nat.add_sub_cancel]
    rw [drainControl_nil _ _ _ _ rfl, hrestored]
    simp
  unfold OutboundScheduler.drain
  simp only [h.control, List.nil_append, List.length_singleton, hfirst]
  rw [drainData_blocked h.blocked]
  split
  next => exact ⟨rfl, .refl s⟩
  next =>
    split
    next => exact ⟨rfl, .refl s⟩
    next => exact ⟨rfl, .eraseEmpty s⟩

/-- The channel now has this queue and this expected number, and everything else is as it was. -/
structure Updates (s s' : OutboundScheduler) (channelNo : UInt32) (queue : List OutboundItem)
    (expected : UInt32) : Prop where
  queue : s'.queue = Function.update s.queue (some channelNo) queue
  expected : s'.expected = Function.update s.expected channelNo expected
  byteLimit : s'.byteLimit = s.byteLimit

theorem Updates.blocked_other {s s' : OutboundScheduler} {channelNo expected : UInt32}
    {queue : List OutboundItem} (h : Updates s s' channelNo queue expected) {other : UInt32}
    (hother : other ≠ channelNo) : s'.Blocked other ↔ s.Blocked other := by
  unfold Blocked
  rw [h.queue, h.expected, Function.update_of_ne (by simpa using hother), Function.update_of_ne hother]

/-- An item that may pass goes out whole. -/
theorem Stalled.passes_data {s s' : OutboundScheduler} (h : s.Stalled) {item : OutboundItem}
    {channelNo : UInt32} (hadded : Updates s s' channelNo [item] (s.expected channelNo))
    (hcontrol : s'.control = []) (hsome : item.encoded ≠ [])
    (hnext : s.expected channelNo = 0 ∨ item.sequence = s.expected channelNo)
    {writableBytes : Nat} (hroom : item.encoded.length ≤ writableBytes) :
    (s'.drain writableBytes).1 = [item] ∧
      Updates s (s'.drain writableBytes).2 channelNo [] (item.sequence + 1) := by
  have hpos := List.length_pos_iff.mpr hsome
  have hqueue : s'.queue (some channelNo) = [item] := by rw [hadded.queue, Function.update_self]
  have hexpected : s'.expected channelNo = s.expected channelNo := by
    rw [hadded.expected, Function.update_self]
  have hothers : ∀ other, other ≠ channelNo → s'.Blocked other := fun other hother =>
    (hadded.blocked_other hother).mpr (h.blocked other)
  have hmem : channelNo ∈ s'.rotation := mem_rotation.mpr (by simp [hqueue])
  have hdrained := @drainData_passes writableBytes 0 s'.rotation s' [] channelNo item hothers hqueue
    (by rwa [hexpected]) hsome (by omega) hmem
  unfold OutboundScheduler.drain
  rw [drainControl_nil _ _ _ _ hcontrol]
  dsimp only
  rw [if_neg (not_or.mpr ⟨by omega, keys_ne_nil (mem_rotation.mp hmem)⟩), if_neg (List.ne_nil_of_mem hmem),
    hdrained]
  refine ⟨rfl, ?_, ?_, hadded.byteLimit⟩
  · dsimp only
    rw [queue_eraseEmpty, sentOn_queue, hadded.queue, Function.update_idem]
  · refine (sentOn_expected s' channelNo item).trans ?_
    rw [hadded.expected, Function.update_idem]

/-- An item that may not pass is queued behind the others, and nothing goes out. -/
theorem Stalled.holds_data {s s' : OutboundScheduler} (h : s.Stalled) {item : OutboundItem}
    {channelNo : UInt32}
    (hadded : Updates s s' channelNo (s.queue (some channelNo) ++ [item]) (s.expected channelNo))
    (hcontrol : s'.control = []) (hpasses : ¬ s.Passes channelNo item.sequence) (writableBytes : Nat) :
    (s'.drain writableBytes).1 = [] ∧ (s'.drain writableBytes).2.Stalled ∧
      Updates s (s'.drain writableBytes).2 channelNo (s.queue (some channelNo) ++ [item])
        (s.expected channelNo) := by
  have hstalled : s'.Stalled := by
    refine ⟨hcontrol, fun other => ?_⟩
    by_cases hother : other = channelNo
    · subst hother
      unfold Blocked
      rw [hadded.queue, hadded.expected, Function.update_self, Function.update_self]
      rcases hbefore : s.queue (some other) with _ | ⟨first, rest⟩
      · -- nothing is before the item, so it is its own number that is not expected
        intro head hhead
        obtain rfl : item = head := by simpa using hhead
        exact not_or.mp fun hnext => hpasses ⟨hbefore, hnext⟩
      · have hblocked := h.blocked other
        unfold Blocked at hblocked
        rw [hbefore] at hblocked
        exact hblocked
    · exact (hadded.blocked_other hother).mpr (h.blocked other)
  obtain ⟨hnone, hsame⟩ := hstalled.drain writableBytes
  exact ⟨hnone, hsame.stalled hstalled, hsame.queue.trans hadded.queue, hsame.expected.trans hadded.expected,
    hsame.byteLimit.trans hadded.byteLimit⟩

/-- What `enqueue` does with an item of a channel. -/
theorem enqueue_data {s s' : OutboundScheduler} {item : OutboundItem}
    (h : s.enqueue item = (.ok (), s')) (hdata : item.priority = .data) :
    item.encoded ≠ [] ∧ s'.control = s.control ∧
      Updates s s' item.channel.number (s.queue (some item.channel.number) ++ [item])
        (s.expected item.channel.number) := by
  obtain ⟨hsome, _, ⟨hcontrol, _⟩ | ⟨_, _, hs'⟩⟩ := enqueue_cases h
  · rw [hdata] at hcontrol
    cases hcontrol
  · refine ⟨hsome, by rw [hs'], ?_, ?_, by rw [hs']⟩
    · rw [hs']
      exact queue_data s _ s.rrCursor s.expectedSequence item.channel.number _
    · rw [hs', Function.update_eq_self]
      rfl

end OutboundScheduler

end LatticeGateway
