import LatticeGateway.Executor
import LatticeGateway.Runs

namespace LatticeGateway

open Runs

/-- What a task does, call by call: it may submit and cancel, and read and change what the tasks share. -/
inductive TaskScript (ε : Type*)
  | done (result : Except Error Unit)
  | submit (shard : UInt32) (task : TaskScript ε) (next : Except Error UInt64 → TaskScript ε)
  | cancel (id : UInt64) (next : Except Error Unit → TaskScript ε)
  | touch (update : ε → ε) (next : ε → TaskScript ε)

variable {ε : Type*}

/-- `task.run()`, on the executor that the task was taken from. -/
def TaskScript.exec : TaskScript ε → DeterministicExecutor (TaskScript ε) → ε →
    Except Error Unit × DeterministicExecutor (TaskScript ε) × ε
  | .done result, executor, shared => (result, executor, shared)
  | .submit shard task next, executor, shared =>
    let (id, executor) := executor.submit shard task
    (next id).exec executor shared
  | .cancel id next, executor, shared =>
    let (cancelled, executor) := executor.cancel id
    (next cancelled).exec executor shared
  | .touch update next, executor, shared => (next (update shared)).exec executor (update shared)

namespace DeterministicExecutor

def drainOne (executor : DeterministicExecutor (TaskScript ε)) (shared : ε) :
    Except Error Unit × DeterministicExecutor (TaskScript ε) × ε :=
  match executor.queue with
  | [] => (.ok (), executor, shared)
  | task :: queue => task.run.exec { executor with queue } shared

/-- `drain_all`, up to `fuel` rounds of its loop. In the source tasks that submit others can keep it going for
ever; a script is finite, with all that it may submit, so here it always ends. A finite part of an endless
drain is that of the scripts unrolled as far as it goes. -/
def drainAll : Nat → DeterministicExecutor (TaskScript ε) → ε →
    Option (Except Error Unit × DeterministicExecutor (TaskScript ε) × ε)
  | 0, _, _ => none
  | fuel + 1, executor, shared =>
    if executor.queue.isEmpty then some (.ok (), executor, shared)
    else
      match executor.drainOne shared with
      | (.error error, executor, shared) => some (.error error, executor, shared)
      | (.ok _, executor, shared) => executor.drainAll fuel shared

end DeterministicExecutor

inductive DrainCall
  | one | all
  deriving DecidableEq, Repr

inductive DrainControl (ε : Type*)
  | idle
  | running (call : DrainCall) (id : UInt64) (script : TaskScript ε)
  | stopped (call : DrainCall) (result : Except Error Unit)

/-- The owner's calls, and one step of the task that is running. -/
inductive ExecutorTurn (ε : Type*)
  | submit (shard : UInt32) (task : TaskScript ε)
  | cancel (id : UInt64)
  | drain (call : DrainCall)
  | turn

/-- An executor with its history: the ids that `submit` has returned, those of the tasks that were started,
those whose `cancel` has succeeded, and the results of the tasks of the current or last drain. -/
structure ExecutorRun (ε : Type*) where
  executor : DeterministicExecutor (TaskScript ε)
  shared : ε
  control : DrainControl ε := .idle
  accepted : List UInt64 := []
  ran : List UInt64 := []
  cancelled : List UInt64 := []
  drained : List (UInt64 × Except Error Unit) := []

namespace ExecutorRun

def start (capacity : Nat) (shards : UInt32) (shared : ε) : ExecutorRun ε :=
  { executor := .make capacity shards, shared }

def submit (r : ExecutorRun ε) (shard : UInt32) (task : TaskScript ε) :
    Except Error UInt64 × ExecutorRun ε :=
  match r.executor.submit shard task with
  | (.error error, executor) => (.error error, { r with executor })
  | (.ok id, executor) => (.ok id, { r with executor, accepted := r.accepted ++ [id] })

def cancel (r : ExecutorRun ε) (id : UInt64) : Except Error Unit × ExecutorRun ε :=
  match r.executor.cancel id with
  | (.error error, executor) => (.error error, { r with executor })
  | (.ok _, executor) => (.ok (), { r with executor, cancelled := r.cancelled ++ [id] })

/-- Up to the start of the next task, or to the return of a drain that finds none. -/
def next (r : ExecutorRun ε) (call : DrainCall) : ExecutorRun ε :=
  match r.executor.queue with
  | [] => { r with control := .stopped call (.ok ()) }
  | task :: queue => { r with
      executor := { r.executor with queue }
      control := .running call task.id task.run
      ran := r.ran ++ [task.id] }

/-- Only a `drain_all` whose task has succeeded goes on. -/
def finish (r : ExecutorRun ε) (call : DrainCall) (id : UInt64) (result : Except Error Unit) :
    ExecutorRun ε :=
  let r := { r with drained := r.drained ++ [(id, result)] }
  match call, result with
  | .all, .ok _ => r.next .all
  | call, result => { r with control := .stopped call result }

def resume (r : ExecutorRun ε) (call : DrainCall) (id : UInt64) : TaskScript ε → ExecutorRun ε
  | .done result => r.finish call id result
  | .submit shard task next =>
    let (answer, r) := r.submit shard task
    { r with control := .running call id (next answer) }
  | .cancel target next =>
    let (answer, r) := r.cancel target
    { r with control := .running call id (next answer) }
  | .touch update next =>
    let shared := update r.shared
    { r with shared, control := .running call id (next shared) }

/-- A call of the owner, who waits while a drain is running. -/
def own (r : ExecutorRun ε) : ExecutorTurn ε → ExecutorRun ε
  | .submit shard task => { (r.submit shard task).2 with control := .idle }
  | .cancel id => { (r.cancel id).2 with control := .idle }
  | .drain call => { r with drained := [] }.next call
  | .turn => r

def step (r : ExecutorRun ε) (move : ExecutorTurn ε) : ExecutorRun ε :=
  match r.control with
  | .running call id script =>
    match move with
    | .turn => r.resume call id script
    | _ => r
  | _ => r.own move

def queued (r : ExecutorRun ε) : List UInt64 := r.executor.queue.map (·.id)

theorem step_turn {r : ExecutorRun ε} {call : DrainCall} {id : UInt64} {script : TaskScript ε}
    (h : r.control = .running call id script) : r.step .turn = r.resume call id script := by
  unfold step
  rw [h]

theorem run_turn {r : ExecutorRun ε} {call : DrainCall} {id : UInt64} {script : TaskScript ε}
    (h : r.control = .running call id script) (n : Nat) :
    run step r (List.replicate (n + 1) .turn) =
      run step (r.resume call id script) (List.replicate n .turn) := by
  rw [List.replicate_succ, run, List.foldl_cons, step_turn h]
  rfl

theorem submit_executor (r : ExecutorRun ε) (shard : UInt32) (task : TaskScript ε) :
    (r.submit shard task).1 = (r.executor.submit shard task).1 ∧
      (r.submit shard task).2.executor = (r.executor.submit shard task).2 ∧
      (r.submit shard task).2.shared = r.shared := by
  unfold submit
  split
  next error executor h => exact ⟨by rw [h], by rw [h], rfl⟩
  next id executor h => exact ⟨by rw [h], by rw [h], rfl⟩

theorem cancel_executor (r : ExecutorRun ε) (id : UInt64) :
    (r.cancel id).1 = (r.executor.cancel id).1 ∧
      (r.cancel id).2.executor = (r.executor.cancel id).2 ∧ (r.cancel id).2.shared = r.shared := by
  unfold cancel
  split
  next error executor h => exact ⟨by rw [h], by rw [h], rfl⟩
  next done executor h => exact ⟨by rw [h], by rw [h], rfl⟩

/-- Taking its turns, a task reaches the result of `exec`, on the executor that `exec` leaves. -/
theorem turns_exec {call : DrainCall} {id : UInt64} (script : TaskScript ε) (r : ExecutorRun ε)
    (hcontrol : r.control = .running call id script) : ∃ n t,
      run step r (List.replicate n .turn) = t ∧
      (∃ result, t.control = .running call id (.done result) ∧
        script.exec r.executor r.shared = (result, t.executor, t.shared)) := by
  induction script generalizing r with
  | done result => exact ⟨0, r, rfl, result, hcontrol, rfl⟩
  | submit shard task next _ ih =>
    obtain ⟨hanswer, hexecutor, hshared⟩ := r.submit_executor shard task
    obtain ⟨n, t, hrun, result, hdone, hexec⟩ := ih (r.submit shard task).1
      { (r.submit shard task).2 with control := .running call id (next (r.submit shard task).1) } rfl
    refine ⟨n + 1, t, (run_turn hcontrol n).trans hrun, result, hdone, ?_⟩
    rw [← hexec]
    dsimp only
    rw [hanswer, hexecutor, hshared]
    rfl
  | cancel target next ih =>
    obtain ⟨hanswer, hexecutor, hshared⟩ := r.cancel_executor target
    obtain ⟨n, t, hrun, result, hdone, hexec⟩ := ih (r.cancel target).1
      { (r.cancel target).2 with control := .running call id (next (r.cancel target).1) } rfl
    refine ⟨n + 1, t, (run_turn hcontrol n).trans hrun, result, hdone, ?_⟩
    rw [← hexec]
    dsimp only
    rw [hanswer, hexecutor, hshared]
    rfl
  | touch update next ih =>
    obtain ⟨n, t, hrun, result, hdone, hexec⟩ := ih (update r.shared)
      { r with shared := update r.shared, control := .running call id (next (update r.shared)) } rfl
    exact ⟨n + 1, t, (run_turn hcontrol n).trans hrun, result, hdone, hexec⟩

theorem turns_next (call : DrainCall) {r : ExecutorRun ε} {task : ExecutorTask (TaskScript ε)}
    {queue : List (ExecutorTask (TaskScript ε))} (hqueue : r.executor.queue = task :: queue) :
    ∃ (n : Nat) (t : ExecutorRun ε) (outcome : Except Error Unit),
      run step (r.next call) (List.replicate n .turn) = t.finish call task.id outcome ∧
        task.run.exec { r.executor with queue } r.shared = (outcome, t.executor, t.shared) := by
  have hnext : r.next call = { r with
      executor := { r.executor with queue }
      control := .running call task.id task.run
      ran := r.ran ++ [task.id] } := by
    unfold next
    rw [hqueue]
  obtain ⟨n, t, hrun, outcome, hdone, hexec⟩ := turns_exec task.run (r.next call) (by rw [hnext])
  rw [hnext] at hexec
  refine ⟨n + 1, t, outcome, ?_, hexec⟩
  rw [List.replicate_succ', run_append, hrun]
  exact step_turn hdone

/-- A started `drain_one` comes to the result, the executor and the shared state of the source's. -/
theorem turns_drainOne (r : ExecutorRun ε) : ∃ n t result,
    run step (r.next .one) (List.replicate n .turn) = t ∧ t.control = .stopped .one result ∧
      r.executor.drainOne r.shared = (result, t.executor, t.shared) := by
  unfold DeterministicExecutor.drainOne
  cases hqueue : r.executor.queue with
  | nil =>
    have hnext : r.next .one = { r with control := .stopped .one (.ok ()) } := by
      unfold next
      rw [hqueue]
    exact ⟨0, _, .ok (), hnext, rfl, rfl⟩
  | cons task queue =>
    obtain ⟨n, t, outcome, hrun, hexec⟩ := turns_next .one hqueue
    exact ⟨n, _, outcome, hrun, rfl, hexec⟩

/-- A started `drain_all` that the source's loop ends comes to what the loop comes to. -/
theorem turns_drainAll {fuel : Nat} {r : ExecutorRun ε} {result : Except Error Unit}
    {executor : DeterministicExecutor (TaskScript ε)} {shared : ε}
    (h : r.executor.drainAll fuel r.shared = some (result, executor, shared)) : ∃ n t,
      run step (r.next .all) (List.replicate n .turn) = t ∧
      t.control = .stopped .all result ∧ t.executor = executor ∧ t.shared = shared := by
  induction fuel generalizing r with
  | zero => cases h
  | succ fuel ih =>
    unfold DeterministicExecutor.drainAll DeterministicExecutor.drainOne at h
    cases hqueue : r.executor.queue with
    | nil =>
      rw [hqueue, List.isEmpty_nil, if_pos rfl] at h
      cases h
      have hnext : r.next .all = { r with control := .stopped .all (.ok ()) } := by
        unfold next
        rw [hqueue]
      exact ⟨0, _, hnext, rfl, rfl, rfl⟩
    | cons task queue =>
      rw [hqueue, List.isEmpty_cons, if_neg Bool.false_ne_true] at h
      dsimp only at h
      obtain ⟨n, t, outcome, hrun, hexec⟩ := turns_next .all hqueue
      rw [hexec] at h
      cases outcome with
      | error error =>
        cases h
        exact ⟨n, _, hrun, rfl, rfl, rfl⟩
      | ok done =>
        let t' : ExecutorRun ε := { t with drained := t.drained ++ [(task.id, .ok done)] }
        have hrest : t'.executor.drainAll fuel t'.shared = some (result, executor, shared) := h
        obtain ⟨m, u, hrun', hstopped⟩ := ih hrest
        refine ⟨n + m, u, ?_, hstopped⟩
        rw [List.replicate_add, run_append, hrun]
        exact hrun'

end ExecutorRun

end LatticeGateway
