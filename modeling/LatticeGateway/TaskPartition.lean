import LatticeGateway.ReentrantTasks
import Mathlib.Algebra.Group.Nat.Defs
import Mathlib.Data.List.Nodup

namespace LatticeGateway

open Runs

namespace ExecutorRun

variable {ε : Type*}

/-- What a `drain_all` that has just returned leaves: an empty queue, or exactly what was accepted after the
first of its tasks to fail and has not been cancelled. -/
structure DrainedAll (r : ExecutorRun ε) (result : Except Error Unit) : Prop where
  tasks : r.drained.map (·.1) <:+ r.ran
  stops : (result = .ok () ∧ r.queued = [] ∧ ∀ entry ∈ r.drained, entry.2 = .ok ()) ∨
    ∃ before id error, result = .error error ∧ r.drained = before ++ [(id, .error error)] ∧
      (∀ entry ∈ before, entry.2 = .ok ()) ∧ r.ran.getLast? = some id ∧
      ∀ later, later ∈ r.queued ↔ later ∈ r.accepted ∧ id < later ∧ later ∉ r.cancelled

/-- Every accepted task is run, cancelled or queued, and only one of these. -/
structure Partitioned (capacity : Nat) (r : ExecutorRun ε) : Prop where
  parts : (r.ran ++ r.cancelled ++ r.queued).Perm r.accepted
  once : r.accepted.Nodup
  bounded : r.queued.length ≤ capacity
  ordered : r.ran.Pairwise (· < ·)
  drainAll : ∀ result, r.control = .stopped .all result → r.DrainedAll result

/-- The ids count up from 1, and the queue holds them in order, all above those that have run. -/
structure Kept (capacity : Nat) (r : ExecutorRun ε) : Prop where
  fixed : r.executor.capacity = capacity
  next : r.executor.nextId = UInt64.ofNat (r.accepted.length + 1)
  known : ∀ id ∈ r.accepted, id.toNat ≤ r.accepted.length
  ascending : r.accepted.Pairwise (· < ·)
  parts : (r.ran ++ r.cancelled ++ r.queued).Perm r.accepted
  ordered : (r.ran ++ r.queued).Pairwise (· < ·)
  bounded : r.queued.length ≤ capacity

/-- The tasks of a drain have succeeded up to the one that is running. -/
def Draining (r : ExecutorRun ε) : Prop :=
  match r.control with
  | .idle => True
  | .running _ id _ => (∀ entry ∈ r.drained, entry.2 = .ok ()) ∧
      ∃ earlier, r.ran = earlier ++ [id] ∧ r.drained.map (·.1) <:+ earlier
  | .stopped .one _ => True
  | .stopped .all result => r.DrainedAll result

section

variable {capacity : Nat} {r : ExecutorRun ε}

/-- The order and the parts do not depend on who is at work. -/
theorem Kept.moved (h : r.Kept capacity) (shared : ε) (control : DrainControl ε)
    (drained : List (UInt64 × Except Error Unit)) :
    Kept capacity { r with shared, control, drained } :=
  ⟨h.fixed, h.next, h.known, h.ascending, h.parts, h.ordered, h.bounded⟩

theorem Kept.once (h : r.Kept capacity) : r.accepted.Nodup := h.ascending.imp fun hlt => UInt64.ne_of_lt hlt

theorem Kept.nodup (h : r.Kept capacity) : (r.ran ++ r.cancelled ++ r.queued).Nodup :=
  h.parts.nodup_iff.mpr h.once

theorem Kept.cancelled_not_ran (h : r.Kept capacity) {id : UInt64} (hid : id ∈ r.cancelled) :
    id ∉ r.ran := by
  obtain ⟨hsettled, -, -⟩ := List.nodup_append.mp h.nodup
  obtain ⟨-, -, hne⟩ := List.nodup_append.mp hsettled
  exact fun hran => hne id hran id hid rfl

/-- Behind the task that has run last, the queue holds all that was accepted later and not cancelled. -/
theorem Kept.mem_queued (h : r.Kept capacity) {earlier : List UInt64} {id : UInt64}
    (hlast : r.ran = earlier ++ [id]) (later : UInt64) :
    later ∈ r.queued ↔ later ∈ r.accepted ∧ id < later ∧ later ∉ r.cancelled := by
  obtain ⟨hran, -, hqueued⟩ := List.pairwise_append.mp h.ordered
  constructor
  · intro hmem
    refine ⟨h.parts.subset (List.mem_append_right _ hmem), hqueued id (by simp [hlast]) later hmem, ?_⟩
    intro hcancelled
    obtain ⟨-, -, hne⟩ := List.nodup_append.mp h.nodup
    exact hne later (List.mem_append_right _ hcancelled) later hmem rfl
  · rintro ⟨haccepted, hlater, hkept⟩
    have hsome := h.parts.symm.subset haccepted
    rw [List.append_assoc, List.mem_append, List.mem_append] at hsome
    obtain hmem | hmem | hmem := hsome
    · rw [hlast] at hran hmem
      obtain ⟨-, -, hbelow⟩ := List.pairwise_append.mp hran
      rcases List.mem_append.mp hmem with hmem | hmem
      · exact (UInt64.lt_asymm hlater (hbelow later hmem id (List.mem_singleton_self id))).elim
      · rw [List.mem_singleton.mp hmem] at hlater
        exact (UInt64.lt_irrefl id hlater).elim
    · exact (hkept hmem).elim
    · exact hmem

theorem Kept.submit (h : r.Kept capacity) (shard : UInt32) (task : TaskScript ε)
    (hroom : (r.submit shard task).2.accepted.length < 2 ^ 64) : (r.submit shard task).2.Kept capacity := by
  unfold ExecutorRun.submit at hroom ⊢
  obtain ⟨code, detail, herror⟩ | ⟨hfits, hok⟩ := r.executor.submit_cases shard task
  · rw [herror]
    exact h
  · rw [hok] at hroom ⊢
    dsimp only at hroom ⊢
    rw [List.length_append, List.length_singleton] at hroom
    have hid : r.executor.nextId.toNat = r.accepted.length + 1 := by
      rw [h.next, UInt64.toNat_ofNat_of_lt' hroom]
    have hnew : ∀ id ∈ r.accepted, id < r.executor.nextId := by
      intro id hmem
      have hle := h.known id hmem
      rw [UInt64.lt_iff_toNat_lt]
      omega
    have hqueued : queued { r with
        executor := { r.executor with
          nextId := r.executor.nextId + 1
          queue := r.executor.queue ++ [{ id := r.executor.nextId, shard, run := task }] }
        accepted := r.accepted ++ [r.executor.nextId] } = r.queued ++ [r.executor.nextId] := by
      unfold queued
      rw [List.map_append, List.map_singleton]
    refine { fixed := h.fixed, next := ?_, known := ?_, ascending := ?_, parts := ?_, ordered := ?_, bounded := ?_ }
    · dsimp only
      rw [h.next, List.length_append, List.length_singleton, UInt64.ofNat_add (r.accepted.length + 1) 1]
      rfl
    · intro id hmem
      rw [List.length_append, List.length_singleton]
      rcases List.mem_append.mp hmem with hmem | hmem
      · have hle := h.known id hmem
        omega
      · rw [List.mem_singleton.mp hmem, hid]
    · refine List.pairwise_append.mpr ⟨h.ascending, List.pairwise_singleton _ _, ?_⟩
      intro id hmem new hnewId
      rw [List.mem_singleton.mp hnewId]
      exact hnew id hmem
    · rw [hqueued, ← List.append_assoc]
      exact h.parts.append_right _
    · rw [hqueued, ← List.append_assoc]
      refine List.pairwise_append.mpr ⟨h.ordered, List.pairwise_singleton _ _, ?_⟩
      intro id hmem new hnewId
      rw [List.mem_singleton.mp hnewId]
      refine hnew id (h.parts.subset ?_)
      rcases List.mem_append.mp hmem with hmem | hmem
      · exact List.mem_append_left _ (List.mem_append_left _ hmem)
      · exact List.mem_append_right _ hmem
    · rw [hqueued, List.length_append, List.length_singleton, queued, List.length_map, ← h.fixed]
      exact hfits

theorem Kept.cancel (h : r.Kept capacity) (id : UInt64) : (r.cancel id).2.Kept capacity := by
  unfold ExecutorRun.cancel
  obtain ⟨-, error, herror⟩ | ⟨hid, hok⟩ := r.executor.cancel_cases id
  · rw [herror]
    exact h
  · rw [hok]
    dsimp only
    have hnodup : r.queued.Nodup := (List.nodup_append.mp h.nodup).2.1
    have hqueued : queued { r with
        executor := { r.executor with queue := r.executor.queue.filter (·.id ≠ id) }
        cancelled := r.cancelled ++ [id] } = r.queued.erase id := by
      rw [hnodup.erase_eq_filter]
      unfold queued
      rw [List.filter_map]
      refine congrArg (List.map _) (List.filter_congr fun task _ => ?_)
      simp [bne, beq_eq_decide]
    refine { h with parts := ?_, ordered := ?_, bounded := ?_ }
    · rw [hqueued]
      dsimp only
      rw [← List.append_assoc, List.append_assoc _ [id], List.singleton_append]
      exact ((List.perm_cons_erase hid).symm.append_left _).trans h.parts
    · rw [hqueued]
      exact h.ordered.sublist (List.erase_sublist.append_left _)
    · rw [hqueued]
      exact Nat.le_trans List.erase_sublist.length_le h.bounded

theorem Kept.next_task (h : r.Kept capacity) (call : DrainCall) : (r.next call).Kept capacity := by
  unfold ExecutorRun.next
  cases hqueue : r.executor.queue with
  | nil => exact h.moved r.shared (.stopped call (.ok ())) r.drained
  | cons task queue =>
    have hqueued : r.queued = task.id :: queue.map (·.id) := by
      unfold queued
      rw [hqueue, List.map_cons]
    have hparts := h.parts
    have hordered := h.ordered
    have hbounded := h.bounded
    rw [hqueued] at hparts hordered hbounded
    refine { h with parts := ?_, ordered := ?_, bounded := Nat.le_of_succ_le hbounded }
    · refine List.Perm.trans ?_ hparts
      change (r.ran ++ [task.id] ++ r.cancelled ++ queue.map (·.id)).Perm _
      rw [List.append_assoc, List.append_assoc, List.append_assoc, List.singleton_append]
      exact List.perm_middle.symm.append_left _
    · change (r.ran ++ [task.id] ++ queue.map (·.id)).Pairwise (· < ·)
      rw [List.append_assoc, List.singleton_append]
      exact hordered

/-- The drain goes on as long as its tasks succeed. -/
theorem draining_next (call : DrainCall) (htasks : r.drained.map (·.1) <:+ r.ran)
    (hok : ∀ entry ∈ r.drained, entry.2 = .ok ()) : (r.next call).Draining := by
  unfold ExecutorRun.next Draining
  cases hqueue : r.executor.queue with
  | nil =>
    cases call with
    | one => trivial
    | all => exact ⟨htasks, .inl ⟨rfl, by unfold queued; rw [hqueue]; rfl, hok⟩⟩
  | cons task queue => exact ⟨hok, r.ran, rfl, htasks⟩

theorem draining_finish {call : DrainCall} {id : UInt64} {script : TaskScript ε} (h : r.Kept capacity)
    (hdraining : r.Draining) (hcontrol : r.control = .running call id script)
    (result : Except Error Unit) : (r.finish call id result).Draining := by
  unfold Draining at hdraining
  rw [hcontrol] at hdraining
  obtain ⟨hok, earlier, hlast, htasks⟩ := hdraining
  have htasks' : (r.drained ++ [(id, result)]).map (·.1) <:+ r.ran := by
    obtain ⟨others, htasks⟩ := htasks
    refine ⟨others, ?_⟩
    rw [hlast, List.map_append, List.map_singleton, ← List.append_assoc, htasks]
  cases call with
  | one => cases result <;> trivial
  | all =>
    cases result with
    | error error =>
      have hid : r.ran.getLast? = some id := by
        rw [hlast]
        exact List.getLast?_concat
      exact ⟨htasks', .inr ⟨r.drained, id, error, rfl, rfl, hok, hid, h.mem_queued hlast⟩⟩
    | ok done =>
      refine draining_next .all htasks' ?_
      intro entry hentry
      rcases List.mem_append.mp hentry with hentry | hentry
      · exact hok entry hentry
      · rw [List.mem_singleton.mp hentry]

/-- What a task does on the executor leaves the drain where it is. -/
theorem Draining.unmoved {call : DrainCall} {id : UInt64} {script : TaskScript ε} {t : ExecutorRun ε}
    (h : r.Draining) (hcontrol : r.control = .running call id script)
    (hcontrol' : ∃ script', t.control = .running call id script') (hran : t.ran = r.ran)
    (hdrained : t.drained = r.drained) : t.Draining := by
  obtain ⟨script', hcontrol'⟩ := hcontrol'
  unfold Draining at h ⊢
  rw [hcontrol] at h
  rw [hcontrol', hran, hdrained]
  exact h

theorem submit_ran (r : ExecutorRun ε) (shard : UInt32) (task : TaskScript ε) :
    (r.submit shard task).2.ran = r.ran ∧ (r.submit shard task).2.drained = r.drained := by
  unfold ExecutorRun.submit
  split <;> exact ⟨rfl, rfl⟩

theorem cancel_ran (r : ExecutorRun ε) (id : UInt64) :
    (r.cancel id).2.ran = r.ran ∧ (r.cancel id).2.drained = r.drained := by
  unfold ExecutorRun.cancel
  split <;> exact ⟨rfl, rfl⟩

theorem Kept.resume (h : r.Kept capacity) {call : DrainCall} {id : UInt64} {script : TaskScript ε}
    (hdraining : r.Draining) (hcontrol : r.control = .running call id script)
    (hroom : (r.resume call id script).accepted.length < 2 ^ 64) :
    (r.resume call id script).Kept capacity ∧ (r.resume call id script).Draining := by
  cases script with
  | done result =>
    refine ⟨?_, draining_finish h hdraining hcontrol result⟩
    have hfinished := h.moved r.shared r.control (r.drained ++ [(id, result)])
    cases call with
    | one => cases result <;> exact h.moved r.shared _ _
    | all =>
      cases result with
      | error error => exact h.moved r.shared _ _
      | ok done => exact hfinished.next_task .all
  | submit shard task next =>
    obtain ⟨hran, hdrained⟩ := r.submit_ran shard task
    exact ⟨(h.submit shard task hroom).moved _ _ _, hdraining.unmoved hcontrol ⟨_, rfl⟩ hran hdrained⟩
  | cancel target next =>
    obtain ⟨hran, hdrained⟩ := r.cancel_ran target
    exact ⟨(h.cancel target).moved _ _ _, hdraining.unmoved hcontrol ⟨_, rfl⟩ hran hdrained⟩
  | touch update next => exact ⟨h.moved _ _ _, hdraining.unmoved hcontrol ⟨_, rfl⟩ rfl rfl⟩

theorem Kept.own (h : r.Kept capacity) (hdraining : r.Draining) (move : ExecutorTurn ε)
    (hroom : (r.own move).accepted.length < 2 ^ 64) : (r.own move).Kept capacity ∧ (r.own move).Draining := by
  cases move with
  | submit shard task => exact ⟨(h.submit shard task hroom).moved _ _ _, trivial⟩
  | cancel id => exact ⟨(h.cancel id).moved _ _ _, trivial⟩
  | drain call =>
    have hgoing := draining_next (r := { r with drained := [] }) call List.nil_suffix
      (List.forall_mem_nil _)
    exact ⟨(h.moved r.shared r.control []).next_task call, hgoing⟩
  | turn => exact ⟨h, hdraining⟩

theorem Kept.step (h : r.Kept capacity) (hdraining : r.Draining) (move : ExecutorTurn ε)
    (hroom : (r.step move).accepted.length < 2 ^ 64) : (r.step move).Kept capacity ∧ (r.step move).Draining := by
  unfold ExecutorRun.step at hroom ⊢
  split at hroom
  next call id script hcontrol =>
    cases move with
    | turn => exact h.resume hdraining hcontrol hroom
    | _ => exact ⟨h, hdraining⟩
  next => exact h.own hdraining move hroom

end

/-- Nothing that has been accepted or cancelled is forgotten. -/
structure Extends (r t : ExecutorRun ε) : Prop where
  accepted : r.accepted.length ≤ t.accepted.length
  cancelled : r.cancelled ⊆ t.cancelled

theorem extends_submit (r : ExecutorRun ε) (shard : UInt32) (task : TaskScript ε) :
    r.Extends (r.submit shard task).2 := by
  unfold submit
  split
  next => exact ⟨Nat.le_refl _, fun _ hid => hid⟩
  next =>
    refine ⟨?_, fun _ hid => hid⟩
    rw [List.length_append]
    exact Nat.le_add_right _ _

theorem extends_cancel (r : ExecutorRun ε) (id : UInt64) : r.Extends (r.cancel id).2 := by
  unfold cancel
  split
  next => exact ⟨Nat.le_refl _, fun _ hid => hid⟩
  next => exact ⟨Nat.le_refl _, fun _ hid => List.mem_append_left _ hid⟩

theorem extends_next (r : ExecutorRun ε) (call : DrainCall) : r.Extends (r.next call) := by
  unfold next
  split <;> exact ⟨Nat.le_refl _, fun _ hid => hid⟩

theorem extends_resume (r : ExecutorRun ε) (call : DrainCall) (id : UInt64) (script : TaskScript ε) :
    r.Extends (r.resume call id script) := by
  cases script with
  | done result =>
    unfold resume finish
    dsimp only
    split
    next =>
      have hnext := extends_next { r with drained := r.drained ++ [(id, .ok ())] } .all
      exact ⟨hnext.accepted, hnext.cancelled⟩
    next => exact ⟨Nat.le_refl _, fun _ hid => hid⟩
  | submit shard task next =>
    have hsubmit := r.extends_submit shard task
    exact ⟨hsubmit.accepted, hsubmit.cancelled⟩
  | cancel target next =>
    have hcancel := r.extends_cancel target
    exact ⟨hcancel.accepted, hcancel.cancelled⟩
  | touch update next => exact ⟨Nat.le_refl _, fun _ hid => hid⟩

theorem extends_step (r : ExecutorRun ε) (move : ExecutorTurn ε) : r.Extends (r.step move) := by
  have hsame : r.Extends r := ⟨Nat.le_refl _, fun _ hid => hid⟩
  unfold step
  split
  next call id script hcontrol =>
    cases move with
    | turn => exact r.extends_resume call id script
    | _ => exact hsame
  next =>
    cases move with
    | submit shard task =>
      have hsubmit := r.extends_submit shard task
      exact ⟨hsubmit.accepted, hsubmit.cancelled⟩
    | cancel target =>
      have hcancel := r.extends_cancel target
      exact ⟨hcancel.accepted, hcancel.cancelled⟩
    | drain call =>
      have hnext := extends_next { r with drained := [] } call
      exact ⟨hnext.accepted, hnext.cancelled⟩
    | turn => exact hsame

theorem cancelled_run (r : ExecutorRun ε) (moves : List (ExecutorTurn ε)) :
    r.cancelled ⊆ (run step r moves).cancelled :=
  run_induction (I := fun t : ExecutorRun ε => r.cancelled ⊆ t.cancelled)
    (fun t move h => List.Subset.trans h (t.extends_step move).cancelled) moves fun _ hid => hid

theorem kept_start (capacity : Nat) (shards : UInt32) (shared : ε) :
    (start capacity shards shared).Kept capacity where
  fixed := rfl
  next := rfl
  known := nofun
  ascending := .nil
  parts := .refl _
  ordered := .nil
  bounded := Nat.zero_le _

theorem kept_moves (capacity : Nat) (shards : UInt32) (shared : ε) (moves : List (ExecutorTurn ε)) :
    (run step (start capacity shards shared) moves).accepted.length < 2 ^ 64 →
      (run step (start capacity shards shared) moves).Kept capacity ∧
        (run step (start capacity shards shared) moves).Draining := by
  have hstep : ∀ (r : ExecutorRun ε) (move : ExecutorTurn ε), r.Kept capacity ∧ r.Draining →
      (r.step move).accepted.length < 2 ^ 64 → (r.step move).Kept capacity ∧ (r.step move).Draining :=
    fun r move h hroom => h.1.step h.2 move hroom
  have hgrows : ∀ (r : ExecutorRun ε) (move : ExecutorTurn ε),
      r.accepted.length ≤ (r.step move).accepted.length := fun r move => (r.extends_step move).accepted
  exact run_bounded (I := fun r : ExecutorRun ε => r.Kept capacity ∧ r.Draining) hgrows hstep moves
    ⟨kept_start capacity shards shared, trivial⟩

theorem Kept.partitioned {capacity : Nat} {r : ExecutorRun ε} (h : r.Kept capacity)
    (hdraining : r.Draining) : r.Partitioned capacity where
  parts := h.parts
  once := h.once
  bounded := h.bounded
  ordered := (List.pairwise_append.mp h.ordered).1
  drainAll result hcontrol := by
    unfold Draining at hdraining
    rw [hcontrol] at hdraining
    exact hdraining

/-- The executor loses and repeats nothing, whatever its tasks submit and cancel, as long as the ids do
not wrap. -/
theorem tasks_partitioned (capacity : Nat) (shards : UInt32) (shared : ε) (moves more : List (ExecutorTurn ε))
    (few : (run step (start capacity shards shared) (moves ++ more)).accepted.length < 2 ^ 64) :
    (run step (start capacity shards shared) (moves ++ more)).Partitioned capacity ∧
      ∀ id ∈ (run step (start capacity shards shared) moves).cancelled,
        id ∉ (run step (start capacity shards shared) (moves ++ more)).ran := by
  obtain ⟨hkept, hdraining⟩ := kept_moves capacity shards shared (moves ++ more) few
  refine ⟨hkept.partitioned hdraining, fun id hid => hkept.cancelled_not_ran ?_⟩
  rw [run_append]
  exact cancelled_run _ more hid

/-- Cancels the task with id 3, submits one more task and fails. -/
def meddling : TaskScript Nat :=
  .cancel 3 fun _ => .submit 0 (.touch (· + 1) fun _ => .done (.ok ())) fun _ =>
    .done (.error (executorError .illegalState "task failed"))

def meddled : List (ExecutorTurn Nat) :=
  [.submit 0 (.done (.ok ())), .submit 0 meddling, .submit 0 (.done (.ok ())), .submit 0 (.done (.ok ())),
    .drain .all, .turn, .turn, .turn, .turn]

/-- The drain stops behind the second task, with the fourth and the one submitted meanwhile queued. -/
theorem tasks_partitioned_meddled :
    (run step (start 4 1 0) (meddled ++ [])).Partitioned 4 ∧
      (∀ id ∈ (run step (start 4 1 0) meddled).cancelled, id ∉ (run step (start 4 1 0) (meddled ++ [])).ran) ∧
      (run step (start 4 1 0) meddled).ran = [1, 2] ∧ (run step (start 4 1 0) meddled).cancelled = [3] ∧
      (run step (start 4 1 0) meddled).queued = [4, 5] := by
  obtain ⟨hparts, hcancelled⟩ := tasks_partitioned 4 1 0 meddled [] (by decide)
  exact ⟨hparts, hcancelled, rfl, rfl, rfl⟩

/-- A task is submitted and run at once. -/
def oneTask : List (ExecutorTurn Unit) := [.submit 0 (.done (.ok ())), .drain .one, .turn]

theorem run_oneTask (n : Nat) : ∃ r, run step (start 1 1 ()) (List.replicate n oneTask).flatten = r ∧
    (∀ call id script, r.control ≠ .running call id script) ∧
    r.executor = { capacity := 1, nextId := UInt64.ofNat (n + 1) } ∧
    r.ran = (List.range n).map fun i => UInt64.ofNat (i + 1) := by
  induction n with
  | zero => exact ⟨_, rfl, nofun, rfl, rfl⟩
  | succ n ih =>
    obtain ⟨r, hrun, hwaiting, hexecutor, hran⟩ := ih
    have hsubmit : r.step (.submit 0 (.done (.ok ()))) = { r with
        executor := { capacity := 1, nextId := UInt64.ofNat (n + 1) + 1
                      queue := [⟨UInt64.ofNat (n + 1), 0, .done (.ok ())⟩] }
        control := .idle
        accepted := r.accepted ++ [UInt64.ofNat (n + 1)] } := by
      unfold step
      split
      next call id script hcontrol => exact (hwaiting call id script hcontrol).elim
      next =>
        unfold own submit
        rw [hexecutor]
        rfl
    rw [List.replicate_succ', List.flatten_append, List.flatten_singleton, run_append, hrun]
    refine ⟨_, rfl, ?_⟩
    unfold oneTask run
    rw [List.foldl_cons, hsubmit]
    refine ⟨nofun, ?_, ?_⟩
    · rw [UInt64.ofNat_add (n + 1) 1]
      rfl
    · rw [List.range_succ, List.map_append, ← hran]
      rfl

/-- The task after the one with the last id has id 0, and runs behind it. -/
theorem tasks_wrap : ¬ (run step (start 1 1 ()) (List.replicate (2 ^ 64) oneTask).flatten).Partitioned 1 := by
  obtain ⟨r, hrun, -, -, hran⟩ := run_oneTask (2 ^ 64)
  rw [hrun]
  intro h
  have hordered := h.ordered
  rw [hran, List.pairwise_map] at hordered
  have hlt := List.pairwise_iff_getElem.mp hordered 0 (2 ^ 64 - 1) (by simp) (by simp) (by decide)
  rw [List.getElem_range, List.getElem_range] at hlt
  exact absurd hlt (by decide)

end ExecutorRun

end LatticeGateway
