import LatticeGateway.Runs
import LatticeGateway.SchedulerFraming

namespace LatticeGateway

open BlockStream Runs

inductive SchedulerCall
  | enqueue (item : OutboundItem)
  | drain (writableBytes : Nat)
  deriving DecidableEq, Repr

/-- A scheduler with its history: the items it accepted, the chunks it drained, and the channel of
the data item that the last chunk left part-sent. -/
structure SchedulerRun where
  scheduler : OutboundScheduler
  accepted : List OutboundItem := []
  drained : List OutboundItem := []
  partSent : Option UInt32 := none

/-- Within a queue sequences are distinct, so the first item tells whether the last chunk ended it. -/
def partSentAfter (before : Option UInt32) (queue : Option UInt32 → List OutboundItem)
    (out : List OutboundItem) : Option UInt32 :=
  match out.getLast? with
  | none => before
  | some chunk =>
    chunk.queueKey.filter fun c => (queue (some c)).head?.any (·.sequence == chunk.sequence)

def SchedulerRun.step (r : SchedulerRun) : SchedulerCall → SchedulerRun
  | .enqueue item =>
    match r.scheduler.enqueue item with
    | (.ok _, s) => { r with scheduler := s, accepted := r.accepted ++ [item] }
    | (.error _, s) => { r with scheduler := s }
  | .drain writableBytes =>
    let (out, s) := r.scheduler.drain writableBytes
    { r with scheduler := s, drained := r.drained ++ out
             partSent := partSentAfter r.partSent s.queue out }

/-- A drain that can write finds a part-sent data item first in line. -/
def SchedulerRun.Resumes (r : SchedulerRun) : SchedulerCall → Prop
  | .enqueue _ => True
  | .drain writableBytes => writableBytes = 0 ∨ ∀ channelNo ∈ r.partSent,
      r.scheduler.control = [] ∧
        r.scheduler.rotation.find? r.scheduler.serves = some channelNo

/-- The chunks are whole accepted items, then at most part of one more, each queue in order. -/
def SchedulerRun.StreamFramed (r : SchedulerRun) : Prop :=
  ∃ sent last, Contiguous encodedPayload sent last r.drained ∧
    ∀ k, (sent ++ last.toList).filter (fun item => item.queueKey = k) <+:
      r.accepted.filter (fun item => item.queueKey = k)

/-- Items are in their own queue, and a channel's queue is increasing. -/
structure Ordered (q : Option UInt32 → List OutboundItem) : Prop where
  keyed : ∀ k, ∀ item ∈ q k, item.queueKey = k
  increasing : ∀ c, (q (some c)).Pairwise fun a b => a.sequence < b.sequence

theorem Ordered.update {q : Option UInt32 → List OutboundItem} (h : Ordered q) {k : Option UInt32}
    {queue : List OutboundItem} (hkeyed : ∀ item ∈ queue, item.queueKey = k)
    (hincreasing : ∀ c, k = some c → queue.Pairwise fun a b => a.sequence < b.sequence) :
    Ordered (Function.update q k queue) := by
  constructor
  · intro j item hitem
    by_cases hj : j = k
    · subst hj
      rw [Function.update_self] at hitem
      exact hkeyed item hitem
    · rw [Function.update_of_ne hj] at hitem
      exact h.keyed j item hitem
  · intro c
    by_cases hj : some c = k
    · subst hj
      rw [Function.update_self]
      exact hincreasing c rfl
    · rw [Function.update_of_ne hj]
      exact h.increasing c

theorem Ordered.tail {q : Option UInt32 → List OutboundItem} (h : Ordered q) {k : Option UInt32}
    {item : OutboundItem} {rest : List OutboundItem} (hq : q k = item :: rest) :
    Ordered (Function.update q k rest) :=
  h.update (fun i hi => h.keyed k i (by rw [hq]; exact List.mem_cons_of_mem _ hi)) fun c hc => by
    have := h.increasing c
    rw [← hc, hq] at this
    exact this.of_cons

theorem Ordered.truncate {q : Option UInt32 → List OutboundItem} (h : Ordered q) {k : Option UInt32}
    {item : OutboundItem} {rest : List OutboundItem} (hq : q k = item :: rest) (encoded : Bytes) :
    Ordered (Function.update q k ({ item with encoded } :: rest)) := by
  refine h.update (fun i hi => ?_) fun c hc => ?_
  · rcases List.mem_cons.mp hi with rfl | hi
    · exact h.keyed k item (by simp [hq])
    · exact h.keyed k i (by rw [hq]; exact List.mem_cons_of_mem _ hi)
  · have := h.increasing c
    rw [← hc, hq, List.pairwise_cons] at this
    exact List.pairwise_cons.mpr this

theorem Ordered.enqueue {s s' : OutboundScheduler} {item : OutboundItem} (h : Ordered s.queue)
    (he : Enqueued s item s') : Ordered s'.queue := by
  rw [he.queue]
  refine h.update (fun i hi => ?_) fun c hc => ?_
  · rcases List.mem_append.mp hi with hi | hi
    · exact h.keyed _ i hi
    · rw [List.mem_singleton.mp hi]
  · have hdata : item.priority = .data := by
      cases hpriority : item.priority with
      | control => simp [OutboundItem.queueKey, hpriority] at hc
      | data => rfl
    have hpairwise := h.increasing c
    rw [← hc] at hpairwise
    refine List.pairwise_append.mpr ⟨hpairwise, List.pairwise_singleton _ _, ?_⟩
    intro a ha b hb
    obtain rfl := List.mem_singleton.mp hb
    obtain ⟨front, back, hqueue⟩ : ∃ front back, s.queue b.queueKey = front ++ [back] :=
      ⟨_, _, (List.dropLast_append_getLast (List.ne_nil_of_mem ha)).symm⟩
    have hback := he.increasing hdata back (by simp [hqueue])
    rw [hqueue] at ha hpairwise
    rcases List.mem_append.mp ha with ha | ha
    · have := (List.pairwise_append.mp hpairwise).2.2 a ha back (by simp)
      exact UInt32.lt_trans this hback
    · rw [List.mem_singleton.mp ha]
      exact hback

theorem Orderly.nil_eq {p p' : Option (Option UInt32)} {q q' : Option UInt32 → List OutboundItem}
    (h : Orderly encodedPayload p q [] q' p') : q' = q ∧ p' = p := by
  cases h
  exact ⟨rfl, rfl⟩

/-- `partSentAfter` names the data queue that an orderly drain leaves part-sent. -/
theorem orderly_partSent {p p' : Option (Option UInt32)} {q q' : Option UInt32 → List OutboundItem}
    {out : List OutboundItem} (h : Orderly encodedPayload p q out q' p') (hq : Ordered q) :
    Ordered q' ∧ p'.join = partSentAfter p.join q' out := by
  induction h with
  | done => exact ⟨hq, rfl⟩
  | @whole p q k item rest out q' p' hp hk hrest ih =>
    obtain ⟨hordered, hpart⟩ := ih (hq.tail hk)
    refine ⟨hordered, ?_⟩
    cases out with
    | nil =>
      obtain ⟨rfl, rfl⟩ := Orderly.nil_eq hrest
      have hkey := hq.keyed k item (by simp [hk])
      simp only [partSentAfter, List.getLast?_singleton, hkey, Option.join_none]
      cases k with
      | none => rfl
      | some c =>
        have hlt := hq.increasing c
        rw [hk, List.pairwise_cons] at hlt
        rw [Option.filter_some, Function.update_self]
        cases rest with
        | nil => rfl
        | cons next rest =>
          have := hlt.1 next (by simp)
          simp [(UInt32.ne_of_lt this).symm]
    | cons chunk out =>
      rw [hpart]
      simp only [partSentAfter, List.getLast?_cons_cons]
      cases hlast : (chunk :: out).getLast? with
      | none => simp at hlast
      | some last => rfl
  | @part p q k item rest n out q' p' hp hk hpos hlt hrest ih =>
    obtain ⟨hordered, hpart⟩ := ih (hq.truncate hk _)
    refine ⟨hordered, ?_⟩
    cases out with
    | nil =>
      obtain ⟨rfl, rfl⟩ := Orderly.nil_eq hrest
      have hkey : (encodedPayload.withBytes item ((encodedPayload.bytes item).take n)).queueKey = k :=
        hq.keyed k item (by simp [hk])
      simp only [partSentAfter, List.getLast?_singleton, hkey]
      cases k with
      | none => rfl
      | some c =>
        rw [Option.filter_some, Function.update_self]
        simp [encodedPayload]
    | cons chunk out =>
      rw [hpart]
      simp only [partSentAfter, List.getLast?_cons_cons]
      cases hlast : (chunk :: out).getLast? with
      | none => simp at hlast
      | some last => rfl

/-- A drain that resumes the part-sent item, if there is one, serves the queues in order. -/
theorem drain_orderly {s : OutboundScheduler} {writableBytes : Nat} {p : Option (Option UInt32)}
    (hcontrol : p = some none → s.control ≠ [])
    (hdata : writableBytes = 0 ∨ ∀ c, p = some (some c) →
      s.control = [] ∧ s.rotation.find? s.serves = some c) :
    ∃ p', Orderly encodedPayload p s.queue (s.drain writableBytes).1 (s.drain writableBytes).2.queue
      p' := by
  have hstage : ∃ more p', (OutboundScheduler.drainControl writableBytes s.control.length s 0 []).1 =
      more ∧ Orderly encodedPayload p s.queue more
        (OutboundScheduler.drainControl writableBytes s.control.length s 0 []).2.2.queue p' ∧
      ((OutboundScheduler.drainControl writableBytes s.control.length s 0 []).2.1 < writableBytes →
        ∀ j ∈ p', j = (OutboundScheduler.drainControl writableBytes s.control.length s 0
          []).2.2.rotation.find? (OutboundScheduler.drainControl writableBytes s.control.length s 0
          []).2.2.serves) := by
    by_cases hp : ∃ c, p = some (some c)
    · obtain ⟨c, rfl⟩ := hp
      rcases hdata with rfl | hdata
      · rw [drainControl_full (Nat.le_refl 0)]
        exact ⟨[], _, rfl, .done _ _, fun h => by omega⟩
      · obtain ⟨hnil, hfirst⟩ := hdata c rfl
        rw [drainControl_nil _ _ _ _ hnil]
        exact ⟨[], _, rfl, .done _ _, fun _ j hj => by rw [hfirst]; exact (Option.some.inj hj).symm⟩
    · have hcontrol' : ∀ j ∈ p, j = none ∧ s.control ≠ [] := by
        rintro (_ | c) rfl
        · exact ⟨rfl, hcontrol rfl⟩
        · exact absurd ⟨c, rfl⟩ hp
      obtain ⟨more, p', hout, horderly, hleft⟩ :=
        drainControl_orderly writableBytes 0 [] hcontrol' (Nat.le_refl _)
      exact ⟨more, p', hout, horderly, fun h => by simp [hleft h]⟩
  obtain ⟨more, p', hout, horderly, hfirst⟩ := hstage
  unfold OutboundScheduler.drain
  generalize OutboundScheduler.drainControl writableBytes s.control.length s 0 [] = stage at *
  obtain ⟨out, used, s'⟩ := stage
  dsimp only at *
  subst hout
  split
  next => exact ⟨p', horderly⟩
  next hbudget =>
    split
    next => exact ⟨p', horderly⟩
    next =>
      obtain ⟨more, p'', hdrained, hrest⟩ :=
        drainData_orderly writableBytes used out (.inr (hfirst (by omega)))
      dsimp only
      rw [hdrained, queue_eraseEmpty]
      exact ⟨p'', horderly.trans hrest⟩

/-- What holds of every scheduler run whose drains resume a part-sent item. -/
structure SchedulerRun.Accounted (r : SchedulerRun) : Prop where
  ordered : Ordered r.scheduler.queue
  framed : ∃ p : Option (Option UInt32), p.join = r.partSent ∧
    Framed encodedPayload OutboundItem.queueKey r.accepted r.drained r.scheduler.queue p

theorem SchedulerRun.Accounted.step {r : SchedulerRun} (h : r.Accounted) {call : SchedulerCall}
    (hcall : r.Resumes call) : (r.step call).Accounted := by
  obtain ⟨hordered, p, hp, hframed⟩ := h
  cases call with
  | enqueue item =>
    unfold SchedulerRun.step
    dsimp only
    split
    next s' henqueue =>
      have henq := enqueue_ok henqueue
      refine ⟨hordered.enqueue henq, p, hp, ?_⟩
      rw [henq.queue]
      exact hframed.accept item
    next error s' henqueue =>
      rw [enqueue_error henqueue]
      exact ⟨hordered, p, hp, hframed⟩
  | drain writableBytes =>
    have hcontrol : p = some none → r.scheduler.control ≠ [] := by
      rintro rfl
      cases hframed with
      | opened _ _ _ _ _ head _ =>
        rw [queue_none] at head
        simp [head]
    have hdata : writableBytes = 0 ∨ ∀ c, p = some (some c) → r.scheduler.control = [] ∧
        r.scheduler.rotation.find? r.scheduler.serves = some c := by
      rcases hcall with hzero | hresumes
      · exact .inl hzero
      · right
        rintro c rfl
        exact hresumes c hp.symm
    obtain ⟨p', horderly⟩ := drain_orderly hcontrol hdata
    obtain ⟨hordered', hpart⟩ := orderly_partSent horderly hordered
    exact ⟨hordered', p', by rw [hpart, hp]; rfl, hframed.orderly horderly⟩

theorem accounted_fresh (byteLimit : Nat) :
    SchedulerRun.Accounted { scheduler := { byteLimit } } := by
  have hqueue : ∀ k, (OutboundScheduler.queue { byteLimit }) k = [] := by
    intro k
    cases k with
    | none => rfl
    | some c => rfl
  refine ⟨⟨fun k item hi => ?_, fun c => ?_⟩, none, rfl, .idle .nil fun k => ?_⟩
  · simp [hqueue] at hi
  · simp [hqueue]
  · simp [hqueue]

/-- The stream stays framed in every run in which no drain overtakes a part-sent item. -/
theorem outbound_stream_framed (byteLimit : Nat) (calls : List SchedulerCall)
    (h : Along SchedulerRun.step SchedulerRun.Resumes { scheduler := { byteLimit } } calls) :
    (run SchedulerRun.step { scheduler := { byteLimit } } calls).StreamFramed := by
  have hstep : ∀ (r : SchedulerRun) call, r.Accounted → r.Resumes call → (r.step call).Accounted :=
    fun _ _ hr hcall => hr.step hcall
  obtain ⟨_, p, _, hframed⟩ := run_invariant hstep (accounted_fresh byteLimit) h
  exact hframed.contiguous

instance (r : SchedulerRun) (call : SchedulerCall) : Decidable (r.Resumes call) := by
  unfold SchedulerRun.Resumes
  cases call with
  | enqueue => exact isTrue trivial
  | drain => exact @instDecidableOr _ _ _ (Option.decidableForallMem _)

/-- A data item cut after its first byte, finished, and then a control item. -/
theorem outbound_stream_framed_resumed :
    (run SchedulerRun.step { scheduler := { byteLimit := 64 } }
      [.enqueue { channel := ⟨1, 1⟩, sequence := 1, encoded := [1, 2, 3] }, .drain 1, .drain 8,
        .enqueue { priority := .control, sequence := 2, encoded := [9] }, .drain 8]).StreamFramed :=
  outbound_stream_framed 64 _ (by decide +kernel)

/-- The control item overtakes the rest of the data item that was cut after its first byte. -/
theorem outbound_stream_torn :
    ¬ (run SchedulerRun.step { scheduler := { byteLimit := 64 } }
      [.enqueue { channel := ⟨1, 1⟩, sequence := 1, encoded := [1, 2, 3] }, .drain 1,
        .enqueue { priority := .control, sequence := 2, encoded := [9] }, .drain 8]).StreamFramed := by
  have haccepted : (run SchedulerRun.step { scheduler := { byteLimit := 64 } }
      [.enqueue { channel := ⟨1, 1⟩, sequence := 1, encoded := [1, 2, 3] }, .drain 1,
        .enqueue { priority := .control, sequence := 2, encoded := [9] }, .drain 8]).accepted =
      [{ channel := ⟨1, 1⟩, sequence := 1, encoded := [1, 2, 3] },
        { priority := .control, sequence := 2, encoded := [9] }] := by decide
  have hdrained : (run SchedulerRun.step { scheduler := { byteLimit := 64 } }
      [.enqueue { channel := ⟨1, 1⟩, sequence := 1, encoded := [1, 2, 3] }, .drain 1,
        .enqueue { priority := .control, sequence := 2, encoded := [9] }, .drain 8]).drained.flatMap
      encodedPayload.bytes = [1, 9, 2, 3] := by decide
  rintro ⟨sent, last, hcontiguous, hfifo⟩
  rw [haccepted] at hfifo
  obtain ⟨bs, hstream, hlast⟩ := hcontiguous.stream
  rw [hdrained] at hstream
  have hmem : ∀ item ∈ sent ++ last.toList, item.encoded = [1, 2, 3] ∨ item.encoded = [9] := by
    intro item hitem
    have hsub := (hfifo item.queueKey).subset (List.mem_filter.mpr ⟨hitem, by simp⟩)
    have haccepted := (List.mem_filter.mp hsub).1
    rcases List.mem_pair.mp haccepted with rfl | rfl
    · exact .inl rfl
    · exact .inr rfl
  cases sent with
  | cons item sent =>
    rcases hmem item (by simp) with h | h <;> simp [encodedPayload, h] at hstream
  | nil =>
    cases last with
    | none => simp [hlast] at hstream
    | some item =>
      have hlen := hlast.1.length_le
      simp only [List.flatMap_nil, List.nil_append] at hstream
      rw [← hstream] at hlen
      rcases hmem item (by simp) with h | h <;> simp [encodedPayload, h] at hlen

end LatticeGateway
