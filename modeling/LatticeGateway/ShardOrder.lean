import LatticeGateway.Runs
import LatticeGateway.ThreadedExecutor
import Mathlib.Data.List.Perm.Subperm

namespace LatticeGateway

open Runs

variable {τ : Type*}

/-- One mutex section of a thread, or one step of the call of `shutdown` outside of the mutex. -/
inductive Turn (τ : Type*) where
  | submit (shard : UInt32) (task : Option τ)
  | take (shard : Nat)
  | complete (shard : Nat) (result : Except Error Unit)
  | waitIdle (caller : Nat)
  | shutdown

/-- An executor with the one call of its `shutdown`, and what its tasks have been through so far. -/
structure Execution (τ : Type*) where
  executor : ThreadedExecutor τ
  shutdown : ShutdownCall := .uncalled
  accepted : List (ExecutorTask τ) := []
  started : List (ExecutorTask τ) := []
  finished : List (ExecutorTask τ) := []

/-- What `submit` has accepted if it returned that. -/
def acceptedTask (shard : UInt32) : Option τ → Except Error UInt64 → Option (ExecutorTask τ)
  | some run, .ok id => some { id, shard, run }
  | _, _ => none

namespace Execution

def start (capacity : Nat) (shards : UInt32) : Execution τ :=
  { executor := .make capacity shards }

def step (x : Execution τ) : Turn τ → Execution τ
  | .submit shard task =>
    let (result, executor) := x.executor.submit shard task
    { x with executor, accepted := x.accepted ++ (acceptedTask shard task result).toList }
  | .take shard =>
    let (task, executor) := x.executor.takeTask shard
    { x with executor, started := x.started ++ task.toList }
  | .complete shard result =>
    let (task, executor) := x.executor.completeTask shard result
    { x with executor, finished := x.finished ++ task.toList }
  | .waitIdle caller => { x with executor := (x.executor.waitIdle caller).2 }
  | .shutdown =>
    let (shutdown, executor) := x.executor.shutdown x.shutdown
    { x with executor, shutdown }

end Execution

/-- The tasks of one shard. -/
def onShard (tasks : List (ExecutorTask τ)) (shard : Nat) : List (ExecutorTask τ) :=
  tasks.filter (·.shard.toNat = shard)

def waitingOn (queues : List (Shard τ)) (shard : Nat) : List (ExecutorTask τ) :=
  (queues[shard]?.map (·.queue)).getD []

def runningOn (queues : List (Shard τ)) (shard : Nat) : Option (ExecutorTask τ) :=
  queues[shard]?.bind (·.worker.task)

theorem onShard_append {more : List (ExecutorTask τ)} {i : Nat} (h : ∀ task ∈ more, task.shard.toNat = i)
    (tasks : List (ExecutorTask τ)) (j : Nat) :
    onShard (tasks ++ more) j = onShard tasks j ++ if i = j then more else [] := by
  unfold onShard
  rw [List.filter_append]
  congr 1
  split
  next hij =>
    subst hij
    exact List.filter_eq_self.mpr fun task htask => by simpa using h task htask
  next hij =>
    refine List.filter_eq_nil_iff.mpr fun task htask => ?_
    rw [h task htask]
    simpa using hij

theorem waitingOn_set {queues : List (Shard τ)} {i : Nat} {old : Shard τ} (new : Shard τ)
    (h : queues[i]? = some old) (j : Nat) :
    waitingOn (queues.set i new) j = if i = j then new.queue else waitingOn queues j := by
  unfold waitingOn
  split
  next hij =>
    subst hij
    rw [List.getElem?_set_self (List.getElem?_eq_some_iff.mp h).1]
    rfl
  next hij => rw [List.getElem?_set_ne hij]

theorem runningOn_set {queues : List (Shard τ)} {i : Nat} {old : Shard τ} (new : Shard τ)
    (h : queues[i]? = some old) (j : Nat) :
    runningOn (queues.set i new) j = if i = j then new.worker.task else runningOn queues j := by
  unfold runningOn
  split
  next hij =>
    subst hij
    rw [List.getElem?_set_self (List.getElem?_eq_some_iff.mp h).1]
    rfl
  next hij => rw [List.getElem?_set_ne hij]

theorem waitingOn_of_getElem? {queues : List (Shard τ)} {i : Nat} {shard : Shard τ}
    (h : queues[i]? = some shard) : waitingOn queues i = shard.queue := by
  simp [waitingOn, h]

theorem runningOn_of_getElem? {queues : List (Shard τ)} {i : Nat} {shard : Shard τ}
    (h : queues[i]? = some shard) : runningOn queues i = shard.worker.task := by
  simp [runningOn, h]

/-- Shard by shard, the tasks that have not started are those in its queue, and of the others all but one
with its thread have finished. -/
structure ShardsInOrder (queues : List (Shard τ)) (accepted started finished : List (ExecutorTask τ)) :
    Prop where
  waits : ∀ i, onShard accepted i = onShard started i ++ waitingOn queues i
  runs : ∀ i, onShard started i = onShard finished i ++ (runningOn queues i).toList

/-- One shard passes tasks on: from its queue to its thread, and from its thread to those that have
finished. -/
theorem ShardsInOrder.update {queues : List (Shard τ)} {accepted started finished : List (ExecutorTask τ)}
    (h : ShardsInOrder queues accepted started finished) {i : Nat} {old : Shard τ} (new : Shard τ)
    (hold : queues[i]? = some old) {a s f : List (ExecutorTask τ)} (ha : ∀ task ∈ a, task.shard.toNat = i)
    (hqueue : old.queue ++ a = s ++ new.queue)
    (hworker : old.worker.task.toList ++ s = f ++ new.worker.task.toList) :
    ShardsInOrder (queues.set i new) (accepted ++ a) (started ++ s) (finished ++ f) := by
  have hwaits := h.waits i
  have hruns := h.runs i
  rw [waitingOn_of_getElem? hold] at hwaits
  rw [runningOn_of_getElem? hold] at hruns
  -- Whatever a shard passes on is its own.
  have hs : ∀ task ∈ s, task.shard.toNat = i := by
    intro task htask
    have hmem : task ∈ old.queue ++ a := hqueue ▸ List.mem_append_left _ htask
    obtain hmem | hmem := List.mem_append.mp hmem
    · have hon : task ∈ onShard accepted i := hwaits ▸ List.mem_append_right _ hmem
      simpa using (List.mem_filter.mp hon).2
    · exact ha task hmem
  have hf : ∀ task ∈ f, task.shard.toNat = i := by
    intro task htask
    have hmem : task ∈ old.worker.task.toList ++ s := hworker ▸ List.mem_append_left _ htask
    obtain hmem | hmem := List.mem_append.mp hmem
    · have hon : task ∈ onShard started i := hruns ▸ List.mem_append_right _ hmem
      simpa using (List.mem_filter.mp hon).2
    · exact hs task hmem
  refine ⟨fun j => ?_, fun j => ?_⟩
  · rw [onShard_append ha, onShard_append hs, waitingOn_set _ hold]
    split
    next hij => rw [← hij, hwaits, List.append_assoc, hqueue, List.append_assoc]
    next => simpa using h.waits j
  · rw [onShard_append hs, onShard_append hf, runningOn_set _ hold]
    split
    next hij => rw [← hij, hruns, List.append_assoc, hworker, List.append_assoc]
    next => simpa using h.runs j

theorem ShardsInOrder.accept {queues : List (Shard τ)} {accepted started finished : List (ExecutorTask τ)}
    (h : ShardsInOrder queues accepted started finished) {task : ExecutorTask τ} {shard : Shard τ}
    (hshard : queues[task.shard.toNat]? = some shard) :
    ShardsInOrder (queues.set task.shard.toNat { shard with queue := shard.queue ++ [task] })
      (accepted ++ [task]) started finished := by
  have hnext := h.update { shard with queue := shard.queue ++ [task] } hshard (a := [task]) (s := [])
    (f := []) (by simp) rfl (List.append_nil _)
  simpa only [List.append_nil] using hnext

section

variable {queues : List (Shard τ)} {accepted started finished : List (ExecutorTask τ)} {i : Nat}
  {task : ExecutorTask τ} {queue : List (ExecutorTask τ)}

theorem ShardsInOrder.start (h : ShardsInOrder queues accepted started finished)
    (hshard : queues[i]? = some { queue := task :: queue, worker := .waiting }) :
    ShardsInOrder (queues.set i { queue, worker := .running task }) accepted (started ++ [task])
      finished := by
  have hnext := h.update { queue, worker := .running task } hshard (a := []) (s := [task]) (f := [])
    (by simp) (List.append_nil _) rfl
  simpa only [List.append_nil] using hnext

theorem ShardsInOrder.finish (h : ShardsInOrder queues accepted started finished)
    (hshard : queues[i]? = some { queue, worker := .running task }) :
    ShardsInOrder (queues.set i { queue, worker := .waiting }) accepted started (finished ++ [task]) := by
  have hnext := h.update { queue, worker := .waiting } hshard (a := []) (s := []) (f := [task])
    (by simp) (List.append_nil _) rfl
  simpa only [List.append_nil] using hnext

theorem ShardsInOrder.exit (h : ShardsInOrder queues accepted started finished)
    (hshard : queues[i]? = some { queue := [], worker := .waiting }) :
    ShardsInOrder (queues.set i { worker := .exited }) accepted started finished := by
  have hnext := h.update { worker := .exited } hshard (a := []) (s := []) (f := []) (by simp) rfl rfl
  simpa only [List.append_nil] using hnext

end

theorem make_shard {capacity : Nat} {shards : UInt32} {i : Nat} {shard : Shard τ}
    (h : (ThreadedExecutor.make capacity shards : ThreadedExecutor τ).queues[i]? = some shard) :
    shard = {} :=
  List.eq_of_mem_replicate (List.mem_of_getElem? h)

theorem shardsInOrder_start (capacity : Nat) (shards : UInt32) :
    ShardsInOrder (ThreadedExecutor.make capacity shards : ThreadedExecutor τ).queues [] [] [] := by
  refine ⟨fun i => ?_, fun i => ?_⟩
  · unfold waitingOn
    cases hshard : (ThreadedExecutor.make capacity shards : ThreadedExecutor τ).queues[i]? with
    | none => rfl
    | some shard => rw [make_shard hshard]; rfl
  · unfold runningOn
    cases hshard : (ThreadedExecutor.make capacity shards : ThreadedExecutor τ).queues[i]? with
    | none => rfl
    | some shard => rw [make_shard hshard]; rfl

/-- The call has joined the thread of that shard. -/
def ShutdownCall.Joined : ShutdownCall → Nat → Prop
  | .joining workers, i => i < workers
  | .returned, _ => True
  | _, _ => False

/-- A thread has exited only with its queue drained for good, and a joined one has exited. -/
structure Joining (queues : List (Shard τ)) (stopping : Bool) (shutdown : ShutdownCall) : Prop where
  uncalled : shutdown = .uncalled → stopping = false
  exited : ∀ {i : Nat} {shard : Shard τ}, queues[i]? = some shard → shard.worker = .exited →
    stopping = true ∧ shard.queue = []
  joined : ∀ {i : Nat} {shard : Shard τ}, queues[i]? = some shard → shutdown.Joined i →
    shard.worker = .exited

theorem Joining.update {queues : List (Shard τ)} {stopping : Bool} {shutdown : ShutdownCall}
    (h : Joining queues stopping shutdown) {i : Nat} {old new : Shard τ} (hold : queues[i]? = some old)
    (hlive : old.worker ≠ .exited)
    (hnew : new.worker = .exited → stopping = true ∧ new.queue = []) :
    Joining (queues.set i new) stopping shutdown := by
  refine ⟨h.uncalled, ?_, ?_⟩
  · intro j shard hshard hexited
    rw [List.getElem?_set] at hshard
    split at hshard
    next =>
      obtain rfl : new = shard := by simpa [(List.getElem?_eq_some_iff.mp hold).1] using hshard
      exact hnew hexited
    next => exact h.exited hshard hexited
  · intro j shard hshard hjoined
    rw [List.getElem?_set] at hshard
    split at hshard
    next hij =>
      subst hij
      exact absurd (h.joined hold hjoined) hlive
    next => exact h.joined hshard hjoined

/-- What the call of `shutdown` does next. -/
theorem Joining.shutdown {executor : ThreadedExecutor τ} {call : ShutdownCall}
    (h : Joining executor.queues executor.stopping call) :
    Joining (executor.shutdown call).2.queues (executor.shutdown call).2.stopping
      (executor.shutdown call).1 := by
  cases call with
  | uncalled =>
    have hrunning := h.uncalled rfl
    simp only [ThreadedExecutor.shutdown, hrunning, Bool.false_eq_true, if_false]
    refine ⟨nofun, ?_, fun _ hjoined => hjoined.elim⟩
    intro i shard hshard hexited
    exact ⟨rfl, (h.exited hshard hexited).2⟩
  | notifying => exact ⟨nofun, h.exited, fun _ hjoined => absurd hjoined (Nat.not_lt_zero _)⟩
  | joining workers =>
    unfold ThreadedExecutor.shutdown
    dsimp only
    split
    next hnone =>
      refine ⟨nofun, h.exited, ?_⟩
      intro i shard hshard _
      have hlt : i < executor.queues.length := (List.getElem?_eq_some_iff.mp hshard).1
      have hle := List.getElem?_eq_none_iff.mp hnone
      exact h.joined hshard (show i < workers by omega)
    next queue hexited =>
      refine ⟨nofun, h.exited, ?_⟩
      intro i shard hshard hjoined
      obtain hlt | rfl := Nat.lt_succ_iff_lt_or_eq.mp (show i < workers + 1 from hjoined)
      · exact h.joined hshard hlt
      · obtain rfl := Option.some.inj (hshard.symm.trans hexited)
        rfl
    next => exact h
  | returned => exact h

/-- All that holds between two turns. -/
structure Execution.Sound (x : Execution τ) : Prop where
  counted : x.executor.Counted
  inOrder : ShardsInOrder x.executor.queues x.accepted x.started x.finished
  joining : Joining x.executor.queues x.executor.stopping x.shutdown

namespace Execution

theorem sound_start (capacity : Nat) (shards : UInt32) : (start capacity shards : Execution τ).Sound where
  counted := ThreadedExecutor.counted_make capacity shards
  inOrder := shardsInOrder_start capacity shards
  joining := {
    uncalled := fun _ => rfl
    exited := by
      intro i shard hshard hexited
      rw [make_shard hshard] at hexited
      exact nomatch hexited
    joined := fun _ hjoined => hjoined.elim }

variable {x : Execution τ}

theorem Sound.submit (h : x.Sound) (shard : UInt32) (task : Option τ) :
    (x.step (.submit shard task)).Sound := by
  have hcounted := h.counted.submit shard task
  obtain ⟨error, hsubmit⟩ | ⟨run, rfl, hrunning, hshard, hroom, hsubmit⟩ :=
    x.executor.submit_cases shard task
  · have hnone : acceptedTask shard task (.error error) = none := by cases task <;> rfl
    simp only [step, hsubmit, hnone, Option.toList_none, List.append_nil]
    exact h
  · let accepted : ExecutorTask τ := { id := x.executor.nextId, shard, run }
    have hlt : shard.toNat < x.executor.queues.length := by
      rw [h.counted.shards]
      exact hshard
    have hold := List.getElem?_eq_getElem hlt
    have hqueues : (x.executor.enqueue accepted).queues = _ := ThreadedExecutor.enqueue_queues hold
    rw [hsubmit] at hcounted
    simp only [step, hsubmit]
    refine ⟨hcounted, ?_, ?_⟩
    · rw [hqueues]
      exact h.inOrder.accept hold
    · rw [hqueues]
      -- An exited thread would have found the executor stopping.
      have hlive : x.executor.queues[shard.toNat].worker ≠ .exited := by
        intro hexited
        exact absurd (h.joining.exited hold hexited).1 (by simp [hrunning])
      exact h.joining.update hold hlive fun hexited => absurd hexited hlive

theorem Sound.take (h : x.Sound) (shard : Nat) : (x.step (.take shard)).Sound := by
  have hcounted := h.counted.takeTask shard
  obtain ⟨task, queue, hold, htake⟩ | ⟨hold, hstopping, htake⟩ | ⟨_, _, htake⟩ | htake :=
    x.executor.takeTask_cases shard <;>
    simp only [step, htake] at hcounted ⊢
  · exact ⟨hcounted, h.inOrder.start hold, h.joining.update hold nofun nofun⟩
  · refine ⟨hcounted, ?_, h.joining.update hold nofun fun _ => ⟨hstopping, rfl⟩⟩
    simpa using h.inOrder.exit hold
  · refine ⟨hcounted, ?_, h.joining⟩
    simpa using h.inOrder
  · refine ⟨hcounted, ?_, h.joining⟩
    simpa using h.inOrder

theorem Sound.complete (h : x.Sound) (shard : Nat) (result : Except Error Unit) :
    (x.step (.complete shard result)).Sound := by
  have hcounted := h.counted.completeTask shard result
  obtain ⟨queue, task, firstError, hold, hcomplete⟩ | hcomplete :=
    x.executor.completeTask_cases shard result <;>
    simp only [step, hcomplete] at hcounted ⊢
  · exact ⟨hcounted, h.inOrder.finish hold, h.joining.update hold nofun nofun⟩
  · refine ⟨hcounted, ?_, h.joining⟩
    simpa using h.inOrder

theorem Sound.step (h : x.Sound) : ∀ turn, (x.step turn).Sound
  | .submit shard task => h.submit shard task
  | .take shard => h.take shard
  | .complete shard result => h.complete shard result
  | .waitIdle caller => by
    obtain ⟨hqueues, hstopping⟩ := x.executor.waitIdle_shards caller
    refine ⟨h.counted.waitIdle caller, ?_, ?_⟩
    · simpa only [Execution.step, hqueues] using h.inOrder
    · simpa only [Execution.step, hqueues, hstopping] using h.joining
  | .shutdown => by
    refine ⟨h.counted.shutdown x.shutdown, ?_, h.joining.shutdown⟩
    simpa only [Execution.step, x.executor.shutdown_queues] using h.inOrder

theorem Sound.run (h : x.Sound) (turns : List (Turn τ)) : (Runs.run Execution.step x turns).Sound :=
  run_induction (fun _ turn h => h.step turn) turns h

theorem step_capacity (x : Execution τ) (turn : Turn τ) :
    (x.step turn).executor.capacity = x.executor.capacity := by
  cases turn with
  | submit shard task =>
    obtain ⟨error, hsubmit⟩ | ⟨run, _, _, _, _, hsubmit⟩ := x.executor.submit_cases shard task <;>
      simp only [Execution.step, hsubmit]
    rfl
  | take shard =>
    obtain ⟨_, _, _, htake⟩ | ⟨_, _, htake⟩ | ⟨_, _, htake⟩ | htake := x.executor.takeTask_cases shard <;>
      simp only [Execution.step, htake]
  | complete shard result =>
    obtain ⟨_, _, _, _, hcomplete⟩ | hcomplete := x.executor.completeTask_cases shard result <;>
      simp only [Execution.step, hcomplete]
  | waitIdle caller =>
    simp only [Execution.step, ThreadedExecutor.waitIdle]
    split <;> rfl
  | shutdown =>
    simp only [Execution.step, ThreadedExecutor.shutdown]
    split
    next => split <;> rfl
    next => rfl
    next => split <;> rfl
    next => rfl

/-- Every task accepted so far has finished, on each shard in their order. -/
def AllFinished (x : Execution τ) : Prop := ∀ shard, onShard x.finished shard = onShard x.accepted shard

theorem Sound.allFinished (h : x.Sound)
    (hdone : ∀ shard ∈ x.executor.queues, shard.queue = [] ∧ shard.worker.task = none) :
    x.AllFinished := by
  intro i
  rw [h.inOrder.waits i, h.inOrder.runs i]
  unfold waitingOn runningOn
  cases hshard : x.executor.queues[i]? with
  | none => simp
  | some shard =>
    obtain ⟨hqueue, htask⟩ := hdone shard (List.mem_of_getElem? hshard)
    simp [hqueue, htask]

theorem Sound.idle (h : x.Sound) (hqueued : x.executor.queued = 0) (hactive : x.executor.active = 0) :
    x.AllFinished := by
  refine h.allFinished fun shard hshard => ⟨?_, ?_⟩
  · have hsum := h.counted.queued.symm.trans hqueued
    have hlength := List.sum_eq_zero_iff_forall_eq_nat.mp hsum _ (List.mem_map_of_mem hshard)
    exact List.length_eq_zero_iff.mp hlength
  · have hcount := h.counted.active.symm.trans hactive
    have hnone := List.countP_eq_zero.mp hcount shard hshard
    simpa using hnone

theorem Sound.returned (h : x.Sound) (hreturned : x.shutdown = .returned) : x.AllFinished := by
  refine h.allFinished fun shard hshard => ?_
  obtain ⟨i, hi⟩ := List.mem_iff_getElem?.mp hshard
  have hexited := h.joining.joined hi (by rw [hreturned]; trivial)
  exact ⟨(h.joining.exited hi hexited).2, by rw [hexited]; rfl⟩

/-- No wake-up is lost: a blocked thread has nothing to do, or the call of `shutdown` is yet to notify it. -/
structure Woken (x : Execution τ) : Prop where
  ready : ∀ i ∈ x.executor.ready, x.executor.queues[i]? = some { queue := [], worker := .waiting } ∧
    (x.executor.stopping = true → x.shutdown = .notifying)
  idle : ∀ caller ∈ x.executor.idle, ¬(x.executor.queued = 0 ∧ x.executor.active = 0)

theorem woken_start (capacity : Nat) (shards : UInt32) : (start capacity shards : Execution τ).Woken :=
  ⟨nofun, nofun⟩

/-- A turn of another shard's thread leaves a blocked thread with nothing to do. -/
theorem Woken.other (h : x.Woken) {shard i : Nat} (hne : shard ≠ i) (hi : i ∈ x.executor.ready)
    (new : Shard τ) : (x.executor.queues.set shard new)[i]? = some { queue := [], worker := .waiting } ∧
      (x.executor.stopping = true → x.shutdown = .notifying) := by
  rw [List.getElem?_set_ne hne]
  exact h.ready i hi

/-- Only while the call is about to notify does a blocked thread wait for it. -/
theorem Woken.call (h : x.Woken) (hcall : x.shutdown ≠ .notifying) (call : ShutdownCall) :
    ({ x with shutdown := call } : Execution τ).Woken where
  ready := fun i hi => ⟨(h.ready i hi).1, fun hstopping => absurd ((h.ready i hi).2 hstopping) hcall⟩
  idle := h.idle

theorem Woken.shutdown (h : x.Woken) : (x.step .shutdown).Woken := by
  unfold Execution.step
  cases hcall : x.shutdown with
  | uncalled =>
    simp only [ThreadedExecutor.shutdown]
    split
    next => exact h.call (by simp [hcall]) _
    next => exact ⟨fun i hi => ⟨(h.ready i hi).1, fun _ => rfl⟩, h.idle⟩
  | notifying => exact ⟨nofun, h.idle⟩
  | joining workers =>
    simp only [ThreadedExecutor.shutdown]
    split <;> exact h.call (by simp [hcall]) _
  | returned => exact h.call (by simp [hcall]) _

theorem Woken.step (h : x.Woken) (turn : Turn τ) : (x.step turn).Woken := by
  cases turn with
  | submit shard task =>
    obtain ⟨error, hsubmit⟩ | ⟨run, _, _, _, _, hsubmit⟩ := x.executor.submit_cases shard task <;>
      simp only [Execution.step, hsubmit]
    · exact ⟨h.ready, h.idle⟩
    · exact ⟨nofun, fun _ _ hzero => absurd hzero.1 (Nat.succ_ne_zero _)⟩
  | take shard =>
    obtain ⟨_, _, hold, htake⟩ | ⟨hold, _, htake⟩ | ⟨hold, hrunning, htake⟩ | htake :=
      x.executor.takeTask_cases shard <;> simp only [Execution.step, htake]
    · refine ⟨?_, fun _ _ hzero => absurd hzero.2 (Nat.succ_ne_zero _)⟩
      intro i hi
      obtain ⟨hi, hne⟩ := List.mem_filter.mp hi
      exact h.other (Ne.symm (of_decide_eq_true hne)) hi _
    · refine ⟨?_, h.idle⟩
      intro i hi
      obtain ⟨hi, hne⟩ := List.mem_filter.mp hi
      exact h.other (Ne.symm (of_decide_eq_true hne)) hi _
    · refine ⟨?_, h.idle⟩
      intro i hi
      obtain rfl | hi := List.mem_insert_iff.mp hi
      · exact ⟨hold, fun hstopping => absurd (hrunning.symm.trans hstopping) Bool.false_ne_true⟩
      · exact h.ready i hi
    · exact ⟨h.ready, h.idle⟩
  | complete shard result =>
    obtain ⟨_, _, _, hold, hcomplete⟩ | hcomplete := x.executor.completeTask_cases shard result <;>
      simp only [Execution.step, hcomplete]
    · refine ⟨?_, ?_⟩
      · intro i hi
        have hne : shard ≠ i := by
          rintro rfl
          exact nomatch hold.symm.trans (h.ready shard hi).1
        exact h.other hne hi _
      · intro caller hcaller
        dsimp only at hcaller ⊢
        split at hcaller
        next => exact nomatch hcaller
        next hbusy => exact hbusy
    · exact ⟨h.ready, h.idle⟩
  | waitIdle caller =>
    simp only [Execution.step, ThreadedExecutor.waitIdle]
    split
    next => exact ⟨h.ready, fun other hother => h.idle other (List.mem_filter.mp hother).1⟩
    next hbusy => exact ⟨h.ready, fun _ _ => hbusy⟩
  | shutdown => exact h.shutdown

theorem woken_run (capacity : Nat) (shards : UInt32) (turns : List (Turn τ)) :
    (Runs.run Execution.step (start capacity shards : Execution τ) turns).Woken :=
  run_induction (fun _ turn h => h.step turn) turns (woken_start capacity shards)

end Execution

/-- Tasks that are some of the others shard by shard are some of the others. -/
theorem subperm_of_onShard {tasks all : List (ExecutorTask τ)}
    (h : ∀ shard, onShard tasks shard <+: onShard all shard) : tasks.Subperm all := by
  classical
  refine List.subperm_ext_iff.mpr fun task _ => ?_
  have hcount := (h task.shard.toNat).sublist.count_le task
  rw [onShard, onShard, List.count_filter (by simp), List.count_filter (by simp)] at hcount
  exact hcount

/-- The shards run every accepted task once and in order. -/
structure Execution.Serial (capacity : Nat) (x : Execution τ) : Prop where
  queued : x.executor.queued = (x.executor.queues.map (·.queue.length)).sum
  within : x.executor.queued ≤ capacity
  active : x.executor.active = x.executor.queues.countP (·.worker.task.isSome)
  in_order : ∀ shard, onShard x.started shard <+: onShard x.accepted shard
  one_at_a_time : ∀ shard, onShard x.started shard =
    onShard x.finished shard ++ (runningOn x.executor.queues shard).toList
  once : x.started.Subperm x.accepted
  idle : ∀ caller result, (x.executor.waitIdle caller).1 = some result → x.AllFinished
  returned : x.shutdown = .returned → x.AllFinished

/-- Whatever the order in which the threads take their turns. -/
theorem Execution.shards_run_in_order (capacity : Nat) (shards : UInt32) (turns : List (Turn τ)) :
    (run Execution.step (Execution.start capacity shards) turns).Serial capacity := by
  have hsound := (Execution.sound_start capacity shards).run turns
  have hcapacity := run_induction (I := fun x : Execution τ => x.executor.capacity = capacity)
    (fun x turn hx => (x.step_capacity turn).trans hx) turns
    (show (Execution.start capacity shards).executor.capacity = capacity from rfl)
  generalize run Execution.step (Execution.start capacity shards) turns = x at hsound hcapacity
  have hstarted : ∀ shard, onShard x.started shard <+: onShard x.accepted shard := by
    intro shard
    rw [hsound.inOrder.waits shard]
    exact List.prefix_append _ _
  exact {
    queued := hsound.counted.queued
    within := hcapacity ▸ hsound.counted.within
    active := hsound.counted.active
    in_order := hstarted
    one_at_a_time := hsound.inOrder.runs
    once := subperm_of_onShard hstarted
    idle := by
      intro caller result hidle
      unfold ThreadedExecutor.waitIdle at hidle
      split at hidle
      next hzero => exact hsound.idle hzero.1 hzero.2
      next => exact nomatch hidle
    returned := hsound.returned }

/-- The thread of one shard overtakes that of another, and the call of `shutdown` waits for both. -/
example : (run Execution.step (Execution.start 2 2) [.submit 0 (some "first"), .submit 1 (some "second"),
    .take 0, .take 1, .shutdown, .complete 1 (.ok ()), .shutdown, .take 1, .shutdown, .complete 0 (.ok ()),
    .take 0, .shutdown, .shutdown, .shutdown]).finished.map (·.run) = ["second", "first"] := by
  decide

end LatticeGateway
