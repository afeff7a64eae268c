import LatticeGateway.Executor
import LatticeGateway.RefCounts

namespace LatticeGateway

variable {τ : Type*}

/-- Where the thread of a shard is: before it has a task, with the task it has popped, or returned. -/
inductive Worker (τ : Type*) where
  | waiting
  | running (task : ExecutorTask τ)
  | exited

def Worker.task : Worker τ → Option (ExecutorTask τ)
  | .running task => some task
  | _ => none

/-- `ThreadedExecutor::Impl::Shard`. -/
structure Shard (τ : Type*) where
  queue : List (ExecutorTask τ) := []
  worker : Worker τ := .waiting

/-- `ThreadedExecutor::Impl`. Of a condition variable there are the threads that it blocks: `ready` those
of the shards, `idle` the callers of `wait_idle`. -/
structure ThreadedExecutor (τ : Type*) where
  capacity : Nat
  shardCount : UInt32 := 1
  nextId : UInt64 := 1
  queues : List (Shard τ)
  ready : List Nat := []
  idle : List Nat := []
  stopping : Bool := false
  queued : Nat := 0
  active : Nat := 0
  firstError : Option Error := none

namespace ThreadedExecutor

def make (capacity : Nat) (shards : UInt32) : ThreadedExecutor τ :=
  let shardCount := if shards = 0 then 1 else shards
  { capacity, shardCount, queues := .replicate shardCount.toNat {} }

/-- The end of `submit`: the task goes to the back of the queue of its shard. -/
def enqueue (executor : ThreadedExecutor τ) (task : ExecutorTask τ) : ThreadedExecutor τ :=
  { executor with
    nextId := executor.nextId + 1
    queues := executor.queues.modify task.shard.toNat fun shard =>
      { shard with queue := shard.queue ++ [task] }
    queued := executor.queued + 1
    ready := [] }

/-- `none` is a `std::function` without a target. -/
def submit (executor : ThreadedExecutor τ) (shard : UInt32) :
    Option τ → Except Error UInt64 × ThreadedExecutor τ
  | none => (.error (executorError .illegalState "executor task is empty"), executor)
  | some run =>
    if executor.stopping then
      (.error (executorError .illegalState "executor is shutting down"), executor)
    else if shard ≥ executor.shardCount then
      (.error (executorError .resourceLimit "executor shard is out of range"), executor)
    else if executor.queued ≥ executor.capacity then
      (.error (executorError .wouldBlock "executor queue is full"), executor)
    else (.ok executor.nextId, executor.enqueue { id := executor.nextId, shard, run })

/-- The first section of a worker, with the task that it goes on to run. A thread that finds nothing to do
stays blocked on `ready`. -/
def takeTask (executor : ThreadedExecutor τ) (index : Nat) :
    Option (ExecutorTask τ) × ThreadedExecutor τ :=
  match executor.queues[index]? with
  | some { queue := [], worker := .waiting } =>
    if executor.stopping then
      (none, { executor with
        queues := executor.queues.set index { worker := .exited }
        ready := executor.ready.filter (· ≠ index) })
    else (none, { executor with ready := executor.ready.insert index })
  | some { queue := task :: queue, worker := .waiting } =>
    (some task, { executor with
      queues := executor.queues.set index { queue, worker := .running task }
      ready := executor.ready.filter (· ≠ index)
      queued := executor.queued - 1
      active := executor.active + 1 })
  | _ => (none, executor)

/-- The second section of a worker, with the task that it has run. -/
def completeTask (executor : ThreadedExecutor τ) (index : Nat) (result : Except Error Unit) :
    Option (ExecutorTask τ) × ThreadedExecutor τ :=
  match executor.queues[index]? with
  | some { queue, worker := .running task } =>
    let active := executor.active - 1
    (some task, { executor with
      queues := executor.queues.set index { queue, worker := .waiting }
      firstError := match executor.firstError, result with
        | none, .error error => some error
        | first, _ => first
      active
      idle := if executor.queued = 0 ∧ active = 0 then [] else executor.idle })
  | _ => (none, executor)

/-- The section of `wait_idle`: what it returns, or `none` when the caller stays blocked on `idle`. -/
def waitIdle (executor : ThreadedExecutor τ) (caller : Nat) :
    Option (Except Error Unit) × ThreadedExecutor τ :=
  if executor.queued = 0 ∧ executor.active = 0 then
    (some (match executor.firstError with | some error => .error error | none => .ok ()),
      { executor with idle := executor.idle.filter (· ≠ caller) })
  else (none, { executor with idle := executor.idle.insert caller })

end ThreadedExecutor

/-- How far a call of `shutdown` is; `joining` counts the workers that it has joined. -/
inductive ShutdownCall where
  | uncalled
  | notifying
  | joining (workers : Nat)
  | returned

/-- The next step of the call of `shutdown`, which stays where it is until the next worker exits. -/
def ThreadedExecutor.shutdown (executor : ThreadedExecutor τ) :
    ShutdownCall → ShutdownCall × ThreadedExecutor τ
  | .uncalled =>
    if executor.stopping then (.returned, executor)
    else (.notifying, { executor with stopping := true })
  | .notifying => (.joining 0, { executor with ready := [] })
  | .joining workers =>
    match executor.queues[workers]? with
    | none => (.returned, executor)
    | some { worker := .exited, .. } => (.joining (workers + 1), executor)
    | some _ => (.joining workers, executor)
  | .returned => (.returned, executor)

namespace ThreadedExecutor

theorem submit_cases (executor : ThreadedExecutor τ) (shard : UInt32) (task : Option τ) :
    (∃ error, executor.submit shard task = (.error error, executor)) ∨
      ∃ run, task = some run ∧ executor.stopping = false ∧ shard < executor.shardCount ∧
        executor.queued < executor.capacity ∧ executor.submit shard task =
          (.ok executor.nextId, executor.enqueue { id := executor.nextId, shard, run }) := by
  cases task with
  | none => exact .inl ⟨_, rfl⟩
  | some run =>
    simp only [submit]
    split
    next => exact .inl ⟨_, rfl⟩
    next hrunning =>
      split
      next => exact .inl ⟨_, rfl⟩
      next hshard =>
        split
        next => exact .inl ⟨_, rfl⟩
        next hroom =>
          exact .inr ⟨run, rfl, by simpa using hrunning, UInt32.not_le.mp hshard, by omega, rfl⟩

/-- The thread of a shard pops a task, exits, blocks, or has not come to this section. -/
theorem takeTask_cases (executor : ThreadedExecutor τ) (index : Nat) :
    (∃ task queue, executor.queues[index]? = some { queue := task :: queue, worker := .waiting } ∧
        executor.takeTask index = (some task, { executor with
          queues := executor.queues.set index { queue, worker := .running task }
          ready := executor.ready.filter (· ≠ index)
          queued := executor.queued - 1
          active := executor.active + 1 })) ∨
      (executor.queues[index]? = some { queue := [], worker := .waiting } ∧ executor.stopping = true ∧
        executor.takeTask index = (none, { executor with
          queues := executor.queues.set index { worker := .exited }
          ready := executor.ready.filter (· ≠ index) })) ∨
      (executor.queues[index]? = some { queue := [], worker := .waiting } ∧ executor.stopping = false ∧
        executor.takeTask index = (none, { executor with ready := executor.ready.insert index })) ∨
      executor.takeTask index = (none, executor) := by
  unfold takeTask
  split
  next hshard =>
    split
    next hstopping => exact .inr (.inl ⟨hshard, hstopping, rfl⟩)
    next hrunning => exact .inr (.inr (.inl ⟨hshard, by simpa using hrunning, rfl⟩))
  next task queue hshard => exact .inl ⟨task, queue, hshard, rfl⟩
  next => exact .inr (.inr (.inr rfl))

theorem completeTask_cases (executor : ThreadedExecutor τ) (index : Nat) (result : Except Error Unit) :
    (∃ queue task firstError, executor.queues[index]? = some { queue, worker := .running task } ∧
        executor.completeTask index result = (some task, { executor with
          queues := executor.queues.set index { queue, worker := .waiting }
          firstError
          active := executor.active - 1
          idle := if executor.queued = 0 ∧ executor.active - 1 = 0 then [] else executor.idle })) ∨
      executor.completeTask index result = (none, executor) := by
  unfold completeTask
  split
  next queue task hshard => exact .inl ⟨queue, task, _, hshard, rfl⟩
  next => exact .inr rfl

/-- The counters are those of the shards. -/
structure Counted (executor : ThreadedExecutor τ) : Prop where
  shards : executor.queues.length = executor.shardCount.toNat
  queued : executor.queued = (executor.queues.map (·.queue.length)).sum
  within : executor.queued ≤ executor.capacity
  active : executor.active = executor.queues.countP (·.worker.task.isSome)

variable {executor : ThreadedExecutor τ}

theorem counted_make (capacity : Nat) (shards : UInt32) :
    (make capacity shards : ThreadedExecutor τ).Counted where
  shards := List.length_replicate
  queued := by simp [make]
  within := Nat.zero_le _
  active := by simp [make, List.countP_replicate, Worker.task]

theorem enqueue_queues {task : ExecutorTask τ} {shard : Shard τ}
    (hshard : executor.queues[task.shard.toNat]? = some shard) : (executor.enqueue task).queues =
      executor.queues.set task.shard.toNat { shard with queue := shard.queue ++ [task] } := by
  simp [enqueue, List.modify_eq_set_getElem?, hshard]

theorem Counted.enqueue (h : executor.Counted) {task : ExecutorTask τ} {shard : Shard τ}
    (hshard : executor.queues[task.shard.toNat]? = some shard)
    (hroom : executor.queued < executor.capacity) : (executor.enqueue task).Counted := by
  have hqueues := enqueue_queues hshard
  have hsum := RefCounts.sum_replace (w := (·.queue.length))
    { shard with queue := shard.queue ++ [task] } hshard
  have hcount := RefCounts.countP_replace (p := (·.worker.task.isSome))
    { shard with queue := shard.queue ++ [task] } hshard
  refine ⟨?_, ?_, hroom, ?_⟩
  · rw [hqueues, List.length_set]
    exact h.shards
  · rw [hqueues]
    simp only [List.length_append, List.length_singleton] at hsum
    show executor.queued + 1 = _
    rw [h.queued]
    omega
  · rw [hqueues]
    show executor.active = _
    rw [h.active]
    exact (Nat.add_right_cancel hcount).symm

theorem Counted.submit (h : executor.Counted) (shard : UInt32) (task : Option τ) :
    (executor.submit shard task).2.Counted := by
  obtain ⟨error, hsubmit⟩ | ⟨run, _, _, hshard, hroom, hsubmit⟩ := submit_cases executor shard task <;>
    rw [hsubmit]
  · exact h
  · have hlt : shard.toNat < executor.queues.length := by
      rw [h.shards]
      exact hshard
    exact h.enqueue (List.getElem?_eq_getElem hlt) hroom

theorem Counted.takeTask (h : executor.Counted) (index : Nat) : (executor.takeTask index).2.Counted := by
  obtain ⟨task, queue, hshard, htake⟩ | ⟨hshard, _, htake⟩ | ⟨_, _, htake⟩ | htake :=
    takeTask_cases executor index <;> rw [htake]
  · have hsum := RefCounts.sum_replace (w := (·.queue.length)) { queue, worker := .running task } hshard
    have hcount := RefCounts.countP_replace (p := (·.worker.task.isSome))
      { queue, worker := .running task } hshard
    simp only [List.length_cons] at hsum
    simp only [Worker.task, Option.isSome_none, Option.isSome_some, if_true, Bool.false_eq_true,
      if_false, Nat.add_zero] at hcount
    have hqueued := h.queued
    have hwithin := h.within
    refine ⟨by simpa using h.shards, ?_, ?_, ?_⟩
    · show executor.queued - 1 = ((executor.queues.set index _).map (·.queue.length)).sum
      omega
    · show executor.queued - 1 ≤ executor.capacity
      omega
    · show executor.active + 1 = _
      rw [h.active]
      exact hcount.symm
  · have hsum := RefCounts.sum_replace (w := (·.queue.length)) { worker := .exited } hshard
    have hcount := RefCounts.countP_replace (p := (·.worker.task.isSome)) { worker := .exited } hshard
    exact ⟨by simpa using h.shards, h.queued.trans hsum.symm, h.within, h.active.trans hcount.symm⟩
  · exact ⟨h.shards, h.queued, h.within, h.active⟩
  · exact h

theorem Counted.completeTask (h : executor.Counted) (index : Nat) (result : Except Error Unit) :
    (executor.completeTask index result).2.Counted := by
  obtain ⟨queue, task, firstError, hshard, hcomplete⟩ | hcomplete :=
    completeTask_cases executor index result <;> rw [hcomplete]
  · have hsum := RefCounts.sum_replace (w := (·.queue.length)) { queue, worker := .waiting } hshard
    have hcount := RefCounts.countP_replace (p := (·.worker.task.isSome))
      { queue, worker := .waiting } hshard
    simp only [Worker.task, Option.isSome_none, Option.isSome_some, if_true, Bool.false_eq_true,
      if_false, Nat.add_zero] at hcount
    refine ⟨by simpa using h.shards, h.queued.trans (Nat.add_right_cancel hsum).symm, h.within, ?_⟩
    show executor.active - 1 = _
    rw [h.active]
    exact (Nat.sub_eq_of_eq_add hcount.symm)
  · exact h

theorem waitIdle_shards (executor : ThreadedExecutor τ) (caller : Nat) :
    (executor.waitIdle caller).2.queues = executor.queues ∧
      (executor.waitIdle caller).2.stopping = executor.stopping := by
  unfold waitIdle
  split <;> exact ⟨rfl, rfl⟩

theorem shutdown_queues (executor : ThreadedExecutor τ) (call : ShutdownCall) :
    (executor.shutdown call).2.queues = executor.queues := by
  unfold shutdown
  split
  next => split <;> rfl
  next => rfl
  next => split <;> rfl
  next => rfl

theorem Counted.waitIdle (h : executor.Counted) (caller : Nat) : (executor.waitIdle caller).2.Counted := by
  unfold ThreadedExecutor.waitIdle
  split <;> exact ⟨h.shards, h.queued, h.within, h.active⟩

theorem Counted.shutdown (h : executor.Counted) (call : ShutdownCall) :
    (executor.shutdown call).2.Counted := by
  unfold ThreadedExecutor.shutdown
  split
  next => split <;> exact ⟨h.shards, h.queued, h.within, h.active⟩
  next => exact ⟨h.shards, h.queued, h.within, h.active⟩
  next => split <;> exact h
  next => exact h

end ThreadedExecutor

end LatticeGateway
