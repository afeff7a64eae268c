import LatticeGateway.Types

namespace LatticeGateway

def executorError (code : ErrorCode) (detail : String) : Error :=
  makeError .internal code .none detail

structure ExecutorTask (τ : Type*) where
  id : UInt64
  shard : UInt32
  run : τ

/-- `DeterministicExecutor`, over the type of what its tasks do. -/
structure DeterministicExecutor (τ : Type*) where
  capacity : Nat
  shards : UInt32 := 1
  nextId : UInt64 := 1
  queue : List (ExecutorTask τ) := []

variable {τ : Type*}

def DeterministicExecutor.make (capacity : Nat) (shards : UInt32) : DeterministicExecutor τ :=
  { capacity, shards := if shards = 0 then 1 else shards }

def DeterministicExecutor.submit (executor : DeterministicExecutor τ) (shard : UInt32) (task : τ) :
    Except Error UInt64 × DeterministicExecutor τ :=
  if shard ≥ executor.shards then
    (.error (executorError .resourceLimit "executor shard is out of range"), executor)
  else if executor.queue.length ≥ executor.capacity then
    (.error (executorError .wouldBlock "executor queue is full"), executor)
  else
    (.ok executor.nextId, { executor with
      nextId := executor.nextId + 1
      queue := executor.queue ++ [{ id := executor.nextId, shard, run := task }] })

def DeterministicExecutor.cancel (executor : DeterministicExecutor τ) (id : UInt64) :
    Except Error Unit × DeterministicExecutor τ :=
  let queue := executor.queue.filter (·.id ≠ id)
  if queue.length = executor.queue.length then
    (.error (executorError .illegalState "executor task is not queued"), { executor with queue })
  else (.ok (), { executor with queue })

/-- The first step of `drain_one`: the task that it goes on to run. -/
def DeterministicExecutor.popFront (executor : DeterministicExecutor τ) :
    Option τ × DeterministicExecutor τ :=
  match executor.queue with
  | [] => (none, executor)
  | task :: queue => (some task.run, { executor with queue })

namespace DeterministicExecutor

theorem submit_cases (executor : DeterministicExecutor τ) (shard : UInt32) (task : τ) :
    (∃ code detail, executor.submit shard task = (.error (executorError code detail), executor)) ∨
      executor.queue.length < executor.capacity ∧
        executor.submit shard task = (.ok executor.nextId, { executor with
          nextId := executor.nextId + 1
          queue := executor.queue ++ [{ id := executor.nextId, shard, run := task }] }) := by
  unfold submit
  split
  next => exact .inl ⟨_, _, rfl⟩
  next =>
    split
    next => exact .inl ⟨_, _, rfl⟩
    next hroom => exact .inr ⟨Nat.not_le.mp hroom, rfl⟩

/-- A refused `cancel` finds nothing to erase. -/
theorem cancel_queue (executor : DeterministicExecutor τ) (id : UInt64) :
    (executor.cancel id).2.queue = executor.queue.filter (·.id ≠ id) := by
  unfold cancel
  dsimp only
  split <;> rfl

theorem cancel_cases (executor : DeterministicExecutor τ) (id : UInt64) :
    (id ∉ executor.queue.map (·.id) ∧ ∃ error, executor.cancel id = (.error error, executor)) ∨
      id ∈ executor.queue.map (·.id) ∧
        executor.cancel id = (.ok (), { executor with queue := executor.queue.filter (·.id ≠ id) }) := by
  have hlength : (executor.queue.filter (·.id ≠ id)).length = executor.queue.length ↔
      id ∉ executor.queue.map (·.id) := by
    rw [List.length_filter_eq_length_iff]
    simp
  unfold cancel
  by_cases hid : id ∈ executor.queue.map (·.id)
  · refine .inr ⟨hid, ?_⟩
    dsimp only
    rw [if_neg fun h => hlength.mp h hid]
  · have hall : executor.queue.filter (·.id ≠ id) = executor.queue :=
      List.filter_sublist.eq_of_length (hlength.mpr hid)
    refine .inl ⟨hid, executorError .illegalState "executor task is not queued", ?_⟩
    dsimp only
    rw [hall, if_pos rfl]

end DeterministicExecutor

end LatticeGateway
