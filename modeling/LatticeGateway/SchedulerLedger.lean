import LatticeGateway.KeyedSum
import LatticeGateway.SchedulerRun

namespace LatticeGateway

open BlockStream Runs

def totalBytes (items : List OutboundItem) : Nat := (items.map (·.encoded.length)).sum

/-- The bytes of all queued items that have not been drained. -/
def OutboundScheduler.unsent (s : OutboundScheduler) : Nat :=
  totalBytes s.control + (s.data.entries.map fun entry => totalBytes entry.2).sum

@[simp] theorem totalBytes_nil : totalBytes [] = 0 := rfl

@[simp] theorem totalBytes_cons (item : OutboundItem) (items : List OutboundItem) :
    totalBytes (item :: items) = item.encoded.length + totalBytes items := List.sum_cons

@[simp] theorem totalBytes_append (items more : List OutboundItem) :
    totalBytes (items ++ more) = totalBytes items + totalBytes more := by
  simp [totalBytes]

theorem totalBytes_taken {item : OutboundItem} {take : Nat} (h : take ≤ item.encoded.length) :
    totalBytes [{ item with encoded := item.encoded.take take }] = take := by
  simp only [totalBytes_cons, totalBytes_nil, List.length_take]
  omega

theorem lookup_bytes (data : AList fun _ : UInt32 => List OutboundItem) (channelNo : UInt32) :
    ((data.lookup channelNo).map totalBytes).getD 0 = totalBytes ((data.lookup channelNo).getD []) := by
  cases data.lookup channelNo <;> rfl

theorem sum_erase (data : AList fun _ : UInt32 => List OutboundItem) (channelNo : UInt32) :
    ((data.erase channelNo).entries.map fun entry => totalBytes entry.2).sum +
        totalBytes ((data.lookup channelNo).getD []) =
      (data.entries.map fun entry => totalBytes entry.2).sum := by
  rw [← lookup_bytes]
  exact KeyedSum.total_erase totalBytes data channelNo

theorem sum_insert (data : AList fun _ : UInt32 => List OutboundItem) (channelNo : UInt32)
    (queue : List OutboundItem) :
    ((data.insert channelNo queue).entries.map fun entry => totalBytes entry.2).sum +
        totalBytes ((data.lookup channelNo).getD []) =
      (data.entries.map fun entry => totalBytes entry.2).sum + totalBytes queue := by
  rw [← lookup_bytes]
  exact KeyedSum.total_insert totalBytes data channelNo queue

/-- `queued_bytes_` counts the queued bytes. -/
def OutboundScheduler.Balanced (s : OutboundScheduler) : Prop := s.queuedBytes = s.unsent

/-- From `s` to `s'` that many bytes have been taken off the queues. -/
structure Pays (s : OutboundScheduler) (amount : Nat) (s' : OutboundScheduler) : Prop where
  balanced : s'.Balanced
  queued : s'.queuedBytes + amount = s.queuedBytes
  limit : s'.byteLimit = s.byteLimit

theorem Pays.refl {s : OutboundScheduler} (h : s.Balanced) : Pays s 0 s := ⟨h, rfl, rfl⟩

theorem Pays.trans {s s' s'' : OutboundScheduler} {m n : Nat} (h : Pays s m s') (h' : Pays s' n s'') :
    Pays s (m + n) s'' := by
  have hqueued := h.queued
  have hqueued' := h'.queued
  exact ⟨h'.balanced, by omega, h'.limit.trans h.limit⟩

theorem enqueue_balanced {s s' : OutboundScheduler} {item : OutboundItem} (hbalanced : s.Balanced)
    (h : s.enqueue item = (.ok (), s')) :
    s'.Balanced ∧ s'.queuedBytes ≤ s'.byteLimit ∧ s'.byteLimit = s.byteLimit := by
  unfold OutboundScheduler.Balanced OutboundScheduler.unsent at *
  obtain ⟨_, hfits, ⟨_, rfl⟩ | ⟨_, _, rfl⟩⟩ := enqueue_cases h
  · refine ⟨?_, hfits, rfl⟩
    simp only [totalBytes_append, totalBytes_cons, totalBytes_nil]
    omega
  · have hinsert := sum_insert s.data item.channel.number
      ((s.data.lookup item.channel.number).getD [] ++ [item])
    rw [totalBytes_append, totalBytes_cons, totalBytes_nil] at hinsert
    refine ⟨?_, hfits, rfl⟩
    dsimp only
    omega

theorem pays_control {s : OutboundScheduler} (h : s.Balanced) {item : OutboundItem}
    {rest control : List OutboundItem} {take : Nat} (hcontrol : s.control = item :: rest)
    (htake : totalBytes control + take = totalBytes (item :: rest)) :
    Pays s take { s with queuedBytes := s.queuedBytes - take, control } := by
  unfold OutboundScheduler.Balanced OutboundScheduler.unsent at h
  rw [hcontrol] at h
  refine ⟨?_, ?_, rfl⟩
  · unfold OutboundScheduler.Balanced OutboundScheduler.unsent
    dsimp only
    omega
  · dsimp only
    omega

theorem pays_data {s : OutboundScheduler} (h : s.Balanced) {channelNo cursor : UInt32}
    {queue : List OutboundItem} {take : Nat} (expectedSequence : AList fun _ : UInt32 => UInt32)
    (htake : totalBytes queue + take = totalBytes ((s.data.lookup channelNo).getD [])) :
    Pays s take { s with queuedBytes := s.queuedBytes - take, rrCursor := cursor, expectedSequence
                         data := s.data.insert channelNo queue } := by
  have hinsert := sum_insert s.data channelNo queue
  unfold OutboundScheduler.Balanced OutboundScheduler.unsent at h
  refine ⟨?_, ?_, rfl⟩
  · unfold OutboundScheduler.Balanced OutboundScheduler.unsent
    dsimp only
    omega
  · dsimp only
    omega

theorem drainControl_pays (writableBytes : Nat) {fuel : Nat} {s : OutboundScheduler} (used : Nat)
    (out : List OutboundItem) (h : s.Balanced) :
    ∃ more, (OutboundScheduler.drainControl writableBytes fuel s used out).1 = out ++ more ∧
      Pays s (totalBytes more) (OutboundScheduler.drainControl writableBytes fuel s used out).2.2 ∧
      (OutboundScheduler.drainControl writableBytes fuel s used out).2.1 = used + totalBytes more ∧
      (used ≤ writableBytes → used + totalBytes more ≤ writableBytes) ∧
      ∀ chunk ∈ more, ∃ item ∈ s.control, chunk.priority = item.priority := by
  induction fuel generalizing s used out with
  | zero => exact ⟨[], by simp [OutboundScheduler.drainControl], .refl h, rfl, id, by simp⟩
  | succ fuel ih =>
    unfold OutboundScheduler.drainControl
    split
    next => exact ⟨[], by simp, .refl h, rfl, id, by simp⟩
    next item rest hcontrol =>
      split
      next hused =>
        dsimp only
        split
        next htake =>
          have hpays := pays_control h hcontrol
            (show totalBytes rest + item.encoded.length = totalBytes (item :: rest) by simp; omega)
          obtain ⟨more, hout, hmore, hbytes, hwithin, hfrom⟩ := ih (used + item.encoded.length)
            (out ++ [{ item with encoded := item.encoded.take item.encoded.length }]) hpays.balanced
          rw [htake]
          refine ⟨{ item with encoded := item.encoded.take item.encoded.length } :: more,
            by rw [hout]; simp, ?_, ?_, ?_, ?_⟩
          · have := hpays.trans hmore
            simpa using this
          · rw [hbytes]
            simp
            omega
          · intro _
            have := hwithin (by omega)
            simp only [totalBytes_cons, List.length_take]
            omega
          · intro chunk hchunk
            rcases List.mem_cons.mp hchunk with rfl | hchunk
            · exact ⟨item, by simp [hcontrol], rfl⟩
            · obtain ⟨source, hsource, hpriority⟩ := hfrom chunk hchunk
              exact ⟨source, by rw [hcontrol]; exact List.mem_cons_of_mem _ hsource, hpriority⟩
        next htake =>
          have hle : min (writableBytes - used) item.encoded.length ≤ item.encoded.length :=
            Nat.min_le_right _ _
          have hroom : min (writableBytes - used) item.encoded.length ≤ writableBytes - used :=
            Nat.min_le_left _ _
          generalize min (writableBytes - used) item.encoded.length = take at hle hroom ⊢
          have hpays := pays_control h hcontrol
            (show totalBytes ({ item with encoded := item.encoded.drop take } :: rest) + take =
              totalBytes (item :: rest) by simp only [totalBytes_cons, List.length_drop]; omega)
          have htotal := totalBytes_taken hle
          refine ⟨[{ item with encoded := item.encoded.take take }], rfl, ?_, ?_, ?_, ?_⟩
          · rw [htotal]
            exact hpays
          · rw [htotal]
          · rw [htotal]
            omega
          · intro chunk hchunk
            rw [List.mem_singleton.mp hchunk]
            exact ⟨item, by simp [hcontrol], rfl⟩
      next => exact ⟨[], by simp, .refl h, rfl, id, by simp⟩

/-- With budget left, the control queue is empty. -/
theorem drainControl_empties {writableBytes : Nat} {fuel : Nat} {s : OutboundScheduler} (used : Nat)
    (out : List OutboundItem) (hfuel : s.control.length ≤ fuel)
    (hused : (OutboundScheduler.drainControl writableBytes fuel s used out).2.1 < writableBytes) :
    (OutboundScheduler.drainControl writableBytes fuel s used out).2.2.control = [] := by
  induction fuel generalizing s used out with
  | zero =>
    show s.control = []
    exact List.eq_nil_of_length_eq_zero (by omega)
  | succ fuel ih =>
    unfold OutboundScheduler.drainControl at hused ⊢
    split
    next hnil => exact hnil
    next item rest hcontrol =>
      simp only [hcontrol] at hused
      split
      next hbudget =>
        rw [if_pos hbudget] at hused
        dsimp only at hused ⊢
        split
        next htake =>
          rw [if_pos htake] at hused
          exact ih _ _ (by simpa [hcontrol] using hfuel) hused
        next htake =>
          rw [if_neg htake] at hused
          dsimp only at hused
          omega
      next hbudget =>
        rw [if_neg hbudget] at hused
        exact absurd hused hbudget

theorem drainData_pays (writableBytes : Nat) (channels : List UInt32) {s : OutboundScheduler}
    (used : Nat) (out : List OutboundItem) (h : s.Balanced) :
    ∃ more, (OutboundScheduler.drainData writableBytes channels s used out).1 = out ++ more ∧
      Pays s (totalBytes more) (OutboundScheduler.drainData writableBytes channels s used out).2 ∧
      (used ≤ writableBytes → used + totalBytes more ≤ writableBytes) ∧
      (OutboundScheduler.drainData writableBytes channels s used out).2.control = s.control := by
  induction channels generalizing s used out with
  | nil => exact ⟨[], by simp [OutboundScheduler.drainData], .refl h, id, rfl⟩
  | cons channelNo channels ih =>
    unfold OutboundScheduler.drainData
    split
    next => exact ih used out h
    next item rest hqueue =>
      dsimp only
      split
      next => exact ih used out h
      next =>
        split
        next => exact ih used out h
        next hpos =>
          have hle : min (writableBytes - used) item.encoded.length ≤ item.encoded.length :=
            Nat.min_le_right _ _
          have hroom : min (writableBytes - used) item.encoded.length ≤ writableBytes - used :=
            Nat.min_le_left _ _
          generalize min (writableBytes - used) item.encoded.length = take at hle hroom hpos ⊢
          have htotal := totalBytes_taken hle
          split
          next htake =>
            have hpays := @pays_data s h channelNo (channelNo + 1) rest take
              (s.expectedSequence.insert channelNo (item.sequence + 1))
              (by rw [hqueue, totalBytes_cons]; omega)
            obtain ⟨more, hout, hmore, hwithin, hcontrol⟩ := ih (used + take)
              (out ++ [{ item with encoded := item.encoded.take take }]) hpays.balanced
            refine ⟨[{ item with encoded := item.encoded.take take }] ++ more,
              by rw [hout, List.append_assoc], ?_, ?_, hcontrol⟩
            · rw [totalBytes_append, htotal]
              exact hpays.trans hmore
            · intro _
              rw [totalBytes_append, htotal]
              have := hwithin (by omega)
              omega
          next =>
            have hpays := @pays_data s h channelNo (channelNo + 1)
              ({ item with encoded := item.encoded.drop take } :: rest) take s.expectedSequence
              (by rw [hqueue, totalBytes_cons, totalBytes_cons, List.length_drop]; omega)
            refine ⟨[{ item with encoded := item.encoded.take take }], rfl, ?_, ?_, rfl⟩
            · rw [htotal]
              exact hpays
            · rw [htotal]
              omega

theorem sum_foldl_erase (channels : List UInt32) (data : AList fun _ : UInt32 => List OutboundItem) :
    ((channels.foldl (fun data c => if (data.lookup c).getD [] = [] then data.erase c else data)
      data).entries.map fun entry => totalBytes entry.2).sum =
      (data.entries.map fun entry => totalBytes entry.2).sum := by
  induction channels generalizing data with
  | nil => rfl
  | cons c channels ih =>
    rw [List.foldl_cons, ih]
    split
    next hempty =>
      have herase := sum_erase data c
      rw [hempty, totalBytes_nil] at herase
      omega
    next => rfl

theorem Pays.eraseEmpty {s s' : OutboundScheduler} {amount : Nat} (h : Pays s amount s') :
    Pays s amount s'.eraseEmpty := by
  refine ⟨?_, h.queued, h.limit⟩
  have hbalanced := h.balanced
  unfold OutboundScheduler.Balanced OutboundScheduler.unsent OutboundScheduler.eraseEmpty at *
  rw [sum_foldl_erase]
  exact hbalanced

/-- A drain keeps the books and its budget, and with control items left it puts out nothing else. -/
theorem drain_pays {s : OutboundScheduler} (h : s.Balanced) (writableBytes : Nat) :
    Pays s (totalBytes (s.drain writableBytes).1) (s.drain writableBytes).2 ∧
      totalBytes (s.drain writableBytes).1 ≤ writableBytes ∧
      ((s.drain writableBytes).2.control ≠ [] →
        ∀ chunk ∈ (s.drain writableBytes).1, ∃ item ∈ s.control, chunk.priority = item.priority) := by
  obtain ⟨out, hout, hpays, hused, hwithin, hfrom⟩ :=
    @drainControl_pays writableBytes s.control.length s 0 [] h
  have hempties := @drainControl_empties writableBytes _ s 0 [] (Nat.le_refl _)
  unfold OutboundScheduler.drain
  generalize OutboundScheduler.drainControl writableBytes s.control.length s 0 [] = stage at *
  obtain ⟨drained, used, s'⟩ := stage
  dsimp only at *
  rw [List.nil_append] at hout
  subst hout
  rw [Nat.zero_add] at hused hwithin
  split
  next => exact ⟨hpays, hwithin (Nat.zero_le _), fun _ => hfrom⟩
  next hbudget =>
    split
    next => exact ⟨hpays, hwithin (Nat.zero_le _), fun _ => hfrom⟩
    next =>
      obtain ⟨more, hout, hmore, hfits, hcontrol⟩ :=
        drainData_pays writableBytes s'.rotation used drained hpays.balanced
      dsimp only
      rw [hout, totalBytes_append]
      refine ⟨(hpays.trans hmore).eraseEmpty, ?_, fun hne => ?_⟩
      · have := hfits (by omega)
        omega
      · exact absurd (hcontrol.trans (hempties (by omega))) hne

/-- The bytes of the items that go through one queue. -/
def streamBytes (key : Option UInt32) (items : List OutboundItem) : Bytes :=
  (items.filter fun item => item.queueKey = key).flatMap (·.encoded)

theorem streamBytes_append (key : Option UInt32) (items more : List OutboundItem) :
    streamBytes key (items ++ more) = streamBytes key items ++ streamBytes key more := by
  simp [streamBytes]

/-- What holds in every run: the books balance within the limit, nothing empty is queued, and every
queue accounts for its accepted bytes. -/
structure SchedulerRun.Kept (byteLimit : Nat) (r : SchedulerRun) : Prop where
  limit : r.scheduler.byteLimit = byteLimit
  balanced : r.scheduler.Balanced
  within : r.scheduler.queuedBytes ≤ byteLimit
  ordered : Ordered r.scheduler.queue
  nonempty : ∀ key, ∀ item ∈ r.scheduler.queue key, item.encoded ≠ []
  streams : ∀ key, streamBytes key r.accepted =
    streamBytes key r.drained ++ (r.scheduler.queue key).flatMap (·.encoded)

theorem queue_fresh (byteLimit : Nat) (key : Option UInt32) :
    (OutboundScheduler.queue { byteLimit }) key = [] := by
  cases key <;> rfl

theorem kept_fresh (byteLimit : Nat) : SchedulerRun.Kept byteLimit { scheduler := { byteLimit } } := by
  refine ⟨rfl, rfl, Nat.zero_le _, (accounted_fresh byteLimit).ordered, ?_, ?_⟩
  · intro key item hitem
    simp [queue_fresh] at hitem
  · intro key
    rw [queue_fresh]
    rfl

theorem Orderly.nonempty {p p' : Option (Option UInt32)} {q q' : Option UInt32 → List OutboundItem}
    {out : List OutboundItem} (h : Orderly encodedPayload p q out q' p')
    (hne : ∀ key, ∀ item ∈ q key, item.encoded ≠ []) : ∀ key, ∀ item ∈ q' key, item.encoded ≠ [] := by
  induction h with
  | done => exact hne
  | @whole p q k item rest out q' p' _ hq _ ih =>
    apply ih
    intro key other hother
    by_cases hkey : key = k
    · subst hkey
      rw [Function.update_self] at hother
      exact hne key other (by rw [hq]; exact List.mem_cons_of_mem _ hother)
    · rw [Function.update_of_ne hkey] at hother
      exact hne key other hother
  | @part p q k item rest n out q' p' _ hq _ hlt _ ih =>
    apply ih
    intro key other hother
    by_cases hkey : key = k
    · subst hkey
      rw [Function.update_self] at hother
      rcases List.mem_cons.mp hother with rfl | hother
      · change item.encoded.drop n ≠ []
        rw [ne_eq, List.drop_eq_nil_iff]
        exact Nat.not_le.mpr hlt
      · exact hne key other (by rw [hq]; exact List.mem_cons_of_mem _ hother)
    · rw [Function.update_of_ne hkey] at hother
      exact hne key other hother

theorem SchedulerRun.Kept.step {byteLimit : Nat} {r : SchedulerRun} (h : r.Kept byteLimit)
    (call : SchedulerCall) : (r.step call).Kept byteLimit := by
  cases call with
  | enqueue item =>
    unfold SchedulerRun.step
    dsimp only
    split
    next s' henqueue =>
      have henq := enqueue_ok henqueue
      obtain ⟨hbalanced, hwithin, hlimit⟩ := enqueue_balanced h.balanced henqueue
      refine ⟨hlimit.trans h.limit, hbalanced, ?_, h.ordered.enqueue henq, ?_, ?_⟩
      · rw [← h.limit, ← hlimit]
        exact hwithin
      · intro key other hother
        rw [henq.queue] at hother
        by_cases hkey : key = item.queueKey
        · subst hkey
          rw [Function.update_self] at hother
          rcases List.mem_append.mp hother with hother | hother
          · exact h.nonempty _ other hother
          · rw [List.mem_singleton.mp hother]
            exact henq.nonempty
        · rw [Function.update_of_ne hkey] at hother
          exact h.nonempty key other hother
      · intro key
        rw [henq.queue, streamBytes_append, h.streams key]
        by_cases hkey : key = item.queueKey
        · subst hkey
          simp [streamBytes]
        · simp [streamBytes, Ne.symm hkey, hkey]
    next error s' henqueue =>
      rw [enqueue_error henqueue]
      exact h
  | drain writableBytes =>
    obtain ⟨hpays, _, _⟩ := drain_pays h.balanced writableBytes
    obtain ⟨p', horderly⟩ := @drain_orderly r.scheduler writableBytes none (by simp) (.inr (by simp))
    have hqueued := hpays.queued
    have hwithin := h.within
    refine ⟨hpays.limit.trans h.limit, hpays.balanced, ?_, (orderly_partSent horderly h.ordered).1,
      Orderly.nonempty horderly h.nonempty, ?_⟩
    · show (r.scheduler.drain writableBytes).2.queuedBytes ≤ byteLimit
      omega
    · intro key
      have hbytes := horderly.bytes (fun _ _ => rfl) h.ordered.keyed key
      show streamBytes key r.accepted = streamBytes key (r.drained ++ _) ++ _
      rw [streamBytes_append, h.streams key, List.append_assoc]
      exact congrArg (streamBytes key r.drained ++ ·) hbytes

theorem kept_run (byteLimit : Nat) (calls : List SchedulerCall) :
    (run SchedulerRun.step { scheduler := { byteLimit } } calls).Kept byteLimit :=
  run_induction (fun _ call h => h.step call) calls (kept_fresh byteLimit)

/-- The books and the budgets of a scheduler, and what it has put out against what it has accepted. -/
structure SchedulerRun.Conserving (byteLimit : Nat) (r : SchedulerRun) : Prop where
  counted : r.scheduler.queuedBytes = r.scheduler.unsent
  within : r.scheduler.queuedBytes ≤ byteLimit
  budget : ∀ writableBytes, totalBytes (r.scheduler.drain writableBytes).1 ≤ writableBytes
  controlFirst : ∀ writableBytes, (r.scheduler.drain writableBytes).2.control ≠ [] →
    ∀ chunk ∈ (r.scheduler.drain writableBytes).1, chunk.priority = .control
  prefixes : ∀ key, streamBytes key r.drained <+: streamBytes key r.accepted
  refused : ∀ item error, (r.scheduler.enqueue item).1 = .error error →
    (r.scheduler.enqueue item).2 = r.scheduler

/-- Every run of a scheduler conserves its bytes and keeps its budgets. -/
theorem scheduler_conserves (byteLimit : Nat) (calls : List SchedulerCall) :
    (run SchedulerRun.step { scheduler := { byteLimit } } calls).Conserving byteLimit := by
  have h := kept_run byteLimit calls
  generalize run SchedulerRun.step { scheduler := { byteLimit } } calls = r at h
  refine ⟨h.balanced, h.within, fun w => (drain_pays h.balanced w).2.1, ?_, ?_, ?_⟩
  · intro writableBytes hleft chunk hchunk
    obtain ⟨item, hitem, hpriority⟩ := (drain_pays h.balanced writableBytes).2.2 hleft chunk hchunk
    rw [hpriority]
    have hkey := h.ordered.keyed none item hitem
    unfold OutboundItem.queueKey at hkey
    cases hitem : item.priority with
    | control => rfl
    | data => simp [hitem] at hkey
  · intro key
    rw [h.streams key]
    exact List.prefix_append _ _
  · intro item error herror
    rcases henqueue : r.scheduler.enqueue item with ⟨result, s'⟩
    rw [henqueue] at herror
    dsimp only at herror
    subst herror
    exact enqueue_error henqueue

end LatticeGateway
