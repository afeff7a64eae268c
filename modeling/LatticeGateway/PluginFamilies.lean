import LatticeGateway.SteadyParts

namespace LatticeGateway

open Runs

namespace ConnectionEngine

/-- The family and the message that `handleData` goes on to dispatch, when it gets so far. -/
def completed? (e : ConnectionEngine) (frame : Frame) : Option (UInt32 × LogicalMessage) :=
  match e.channels with
  | none => none
  | some channels =>
    if e.state ≠ .active then none
    else
      match channels.find frame.channel with
      | none => none
      | some slot =>
        if slot.remoteHalfClosed then none
        else
          match extensionU32 frame kExtMessageSeq, extensionU32 frame kExtFragmentOffset,
              extensionU32 frame kExtMessageTotal, extensionU32 frame kExtFamilyId with
          | .ok seq, .ok offset, .ok total, .ok family =>
            if seq < slot.nextRecvSeq then none
            else
              match slot.flow.reserve frame.payload.length with
              | (.error _, _) => none
              | (.ok _, _) =>
                match (slot.reassembler.insert frame.channel seq offset total frame.payload).1 with
                | .ok (some completed) =>
                  if completed.sequence ≠ slot.nextRecvSeq then none else some (family, completed)
                | _ => none
          | _, _, _, _ => none

theorem handleData_completed (e : ConnectionEngine) (frame : Frame) :
    (e.completed? frame = none ∧ Steady e (e.handleData frame).2) ∨
      ∃ family completed e', e.completed? frame = some (family, completed) ∧ Steady e e' ∧
        e.handleData frame = e'.dispatch frame.channel family completed := by
  unfold handleData completed?
  cases e.channels with
  | none => exact .inl ⟨rfl, .refl e⟩
  | some t =>
    dsimp only
    split
    next => exact .inl ⟨rfl, .refl e⟩
    next =>
      cases t.find frame.channel with
      | none => exact .inl ⟨rfl, .refl e⟩
      | some slot =>
        dsimp only
        split
        next => exact .inl ⟨rfl, .refl e⟩
        next =>
          rcases extensionU32 frame kExtMessageSeq with _ | seq
          · exact .inl ⟨rfl, .refl e⟩
          rcases extensionU32 frame kExtFragmentOffset with _ | offset
          · exact .inl ⟨rfl, .refl e⟩
          rcases extensionU32 frame kExtMessageTotal with _ | total
          · exact .inl ⟨rfl, .refl e⟩
          rcases extensionU32 frame kExtFamilyId with _ | family
          · exact .inl ⟨rfl, .refl e⟩
          dsimp only
          split
          next => exact .inl ⟨rfl, .refl e⟩
          next =>
            rcases slot.flow.reserve frame.payload.length with ⟨_ | _, flow⟩
            · exact .inl ⟨rfl, rfl, rfl, rfl⟩
            · dsimp only
              rcases slot.reassembler.insert frame.channel seq offset total frame.payload with
                ⟨_ | _ | completed, reassembler⟩
              · exact .inl ⟨rfl, rfl, rfl, rfl⟩
              · exact .inl ⟨rfl, rfl, rfl, rfl⟩
              · dsimp only
                split
                next => exact .inl ⟨rfl, rfl, rfl, rfl⟩
                next =>
                  right
                  refine ⟨family, completed, _, rfl, ?_, rfl⟩
                  exact ⟨rfl, rfl, rfl⟩

/-- The families that plugins are leased for when the frame is handled. -/
def leases (e : ConnectionEngine) (frame : Frame) : List UInt32 :=
  if frame.type = .data then
    match e.completed? frame with
    | none => []
    | some (family, _) =>
      match e.registry.createLease family with
      | .error _ => []
      | .ok _ => [family]
  else []

/-- The family of the plugin that a task goes on to run. -/
def taskFamilies : EngineTask → List UInt32
  | .dispatch _ _ completion => [completion.familyId]
  | .foreign _ => []

def queuedFamilies (e : ConnectionEngine) : List UInt32 :=
  (e.executor.elim [] (·.queue)).flatMap fun task => taskFamilies task.run

/-- The families whose plugins run when the executor takes its next task. -/
def popped (e : ConnectionEngine) : List UInt32 :=
  match e.executor with
  | none => []
  | some executor => executor.popFront.1.elim [] taskFamilies

def drained : Nat → ConnectionEngine → List UInt32
  | 0, _ => []
  | fuel + 1, e =>
    e.popped ++
      match e.drainOne with
      | (.error _, _) => []
      | (.ok _, e) => drained fuel e

def callLeases (e : ConnectionEngine) : Call → List UInt32
  | .receive bytes eof =>
    (handled (e.decoded bytes eof).1 (e.decoded bytes eof).2).flatMap fun p => p.1.leases p.2
  | _ => []

/-- Without an executor a leased plugin runs at once, else when its task is taken. -/
def callInvokes (e : ConnectionEngine) : Call → List UInt32
  | .receive bytes eof =>
    if e.executor.isSome then [] else e.callLeases (.receive bytes eof)
  | .drainOne => e.popped
  | .drainAll => drained (e.executor.elim 0 (·.queue.length)) e
  | _ => []

/-- The family is one of `capabilities().plugins`. -/
def Negotiated (e : ConnectionEngine) (family : UInt32) : Prop :=
  ∃ caps, e.capabilities = some caps ∧ ∃ plugin ∈ caps.plugins, plugin.familyId = family

theorem submit_queue {executor executor' : DeterministicExecutor EngineTask} {shard : UInt32}
    {task : EngineTask} {result : Except Error UInt64}
    (h : executor.submit shard task = (result, executor')) :
    ∀ queued ∈ executor'.queue, queued ∈ executor.queue ∨ queued.run = task := by
  intro queued hqueued
  obtain ⟨code, detail, herror⟩ | ⟨-, hok⟩ := executor.submit_cases shard task
  · rw [herror] at h
    cases h
    exact .inl hqueued
  · rw [hok] at h
    cases h
    rcases List.mem_append.mp hqueued with hold | hnew
    · exact .inl hold
    · rw [List.mem_singleton.mp hnew]
      exact .inr rfl

theorem mem_queuedFamilies {e : ConnectionEngine} {family : UInt32} :
    family ∈ e.queuedFamilies ↔ ∃ executor, e.executor = some executor ∧
      ∃ task ∈ executor.queue, family ∈ taskFamilies task.run := by
  unfold queuedFamilies
  cases e.executor with
  | none => simp
  | some executor => simp

theorem submit_families {e e' : ConnectionEngine} {executor executor' : DeterministicExecutor EngineTask}
    {shard : UInt32} {task : EngineTask} {result : Except Error UInt64}
    (he : e.executor = some executor) (he' : e'.executor = some executor')
    (h : executor.submit shard task = (result, executor')) :
    ∀ family ∈ e'.queuedFamilies, family ∈ e.queuedFamilies ∨ family ∈ taskFamilies task := by
  intro family hfamily
  obtain ⟨found, hfound, queued, hqueued, hmem⟩ := mem_queuedFamilies.mp hfamily
  rw [he'] at hfound
  cases hfound
  rcases submit_queue h queued hqueued with hold | hnew
  · exact .inl (mem_queuedFamilies.mpr ⟨executor, he, queued, hold, hmem⟩)
  · rw [hnew] at hmem
    exact .inr hmem

theorem Steady.queued {e e' : ConnectionEngine} (h : Steady e e') :
    e'.queuedFamilies = e.queuedFamilies := by
  unfold queuedFamilies
  rw [h.executor]

/-- A step that changes no plugin, and queues tasks of the families `more` at most. -/
structure Queues (e e' : ConnectionEngine) (more : List UInt32) : Prop where
  registry : e'.registry = e.registry
  executor : e'.executor.isSome = e.executor.isSome
  queued : ∀ family ∈ e'.queuedFamilies, family ∈ e.queuedFamilies ∨ family ∈ more

theorem Steady.queues {e e' : ConnectionEngine} (h : Steady e e') (more : List UInt32) :
    Queues e e' more := by
  refine ⟨h.registry, by rw [h.executor], fun family hfamily => .inl ?_⟩
  rwa [← h.queued]

theorem Queues.trans {e e' e'' : ConnectionEngine} {more more' : List UInt32} (h : Queues e e' more)
    (h' : Queues e' e'' more') : Queues e e'' (more ++ more') := by
  refine ⟨h'.registry.trans h.registry, h'.executor.trans h.executor, fun family hfamily => ?_⟩
  rcases h'.queued family hfamily with hmem | hnew
  · rcases h.queued family hmem with hold | hmore
    · exact .inl hold
    · exact .inr (List.mem_append_left _ hmore)
  · exact .inr (List.mem_append_right _ hnew)

theorem dispatch_queues (e : ConnectionEngine) (channel : ChannelId) (family : UInt32)
    (completed : LogicalMessage) : Queues e (e.dispatch channel family completed).2
      (match e.registry.createLease family with
        | .error _ => []
        | .ok _ => [family]) := by
  unfold dispatch
  dsimp only
  cases e.registry.createLease family with
  | error => exact (Steady.refl e).queues _
  | ok lease =>
    dsimp only
    split
    next executor hexecutor =>
      split
      next hsubmit =>
        exact ⟨rfl, by simp [hexecutor], submit_families hexecutor rfl hsubmit⟩
      next hsubmit =>
        exact ⟨rfl, by simp [hexecutor], submit_families hexecutor rfl hsubmit⟩
    next hnone =>
      have htoken : Steady e { e with nextPluginToken := e.nextPluginToken + 1 } := ⟨rfl, rfl, rfl⟩
      split
      next => exact htoken.queues _
      next response _ =>
        have hcomplete := completePlugin_steady { e with nextPluginToken := e.nextPluginToken + 1 }
          { token := e.nextPluginToken, channel, sequence := completed.sequence, familyId := family
            response }
        split
        next h =>
          rw [h] at hcomplete
          exact (htoken.trans hcomplete).queues _
        next h =>
          rw [h] at hcomplete
          exact (htoken.trans hcomplete).queues _

theorem handleFrame_queues (e : ConnectionEngine) (frame : Frame) :
    Queues e (e.handleFrame frame).2 (e.leases frame) := by
  by_cases hdata : frame.type = .data
  · have hframe : e.handleFrame frame = e.handleData frame := by simp only [handleFrame, hdata]
    rw [hframe, leases, if_pos hdata]
    rcases handleData_completed e frame with ⟨hnone, hsteady⟩ | ⟨family, completed, e', hsome, hsteady, h⟩
    · rw [hnone]
      exact hsteady.queues _
    · rw [hsome, h]
      have hdispatch := dispatch_queues e' frame.channel family completed
      rw [hsteady.registry] at hdispatch
      exact (hsteady.queues []).trans hdispatch
  · by_cases hhello : frame.type = .hello
    · have hframe : e.handleFrame frame = e.handleHello frame := by simp only [handleFrame, hhello]
      rw [hframe]
      rcases handleHello_cases e frame with ⟨error, h⟩ | ⟨_, _, _, _, _, h⟩
      · rw [h]
        exact (Steady.refl e).queues _
      · rw [h]
        exact ⟨rfl, rfl, fun _ hmem => .inl hmem⟩
    · exact (handleFrame_steady e hhello hdata).queues _

def eventLeases (e : ConnectionEngine) : DecodeEvent → List UInt32
  | .frame frame => e.leases frame
  | _ => []

theorem handleEvent_queues (e : ConnectionEngine) (event : DecodeEvent) :
    Queues e (e.handleEvent event).2 (e.eventLeases event) := by
  cases event with
  | needMore => exact (Steady.refl e).queues _
  | error error =>
    have hclosed : Steady e { e.diagnostic error with state := .closed } := ⟨rfl, rfl, rfl⟩
    exact hclosed.queues _
  | frame frame =>
    have hframe := handleFrame_queues e frame
    unfold handleEvent eventLeases
    dsimp only
    split
    next error e' h =>
      rw [h] at hframe
      dsimp only
      split
      next =>
        have hclosed : Steady e' { e'.diagnostic error with state := .closed } := ⟨rfl, rfl, rfl⟩
        rw [← List.append_nil (e.leases frame)]
        exact hframe.trans (hclosed.queues [])
      next =>
        have hdiagnostic : Steady e' (e'.diagnostic error) := ⟨rfl, rfl, rfl⟩
        rw [← List.append_nil (e.leases frame)]
        exact hframe.trans (hdiagnostic.queues [])
    next h =>
      rw [h] at hframe
      exact hframe

theorem handled_leases (event : DecodeEvent) (events : List DecodeEvent) (e : ConnectionEngine) :
    ((handled (event :: events) e).flatMap fun p => p.1.leases p.2) = e.eventLeases event ++
      match e.handleEvent event with
      | (.error _, _) => []
      | (.ok _, e') => (handled events e').flatMap fun p => p.1.leases p.2 := by
  cases event with
  | frame frame =>
    rw [handled, List.flatMap_append]
    rcases e.handleEvent (.frame frame) with ⟨_ | produced, e'⟩ <;> simp [eventLeases]
  | needMore =>
    rw [handled, List.flatMap_append]
    · rcases e.handleEvent .needMore with ⟨_ | produced, e'⟩ <;> simp [eventLeases]
    · simp
  | error error =>
    rw [handled, List.flatMap_append]
    · rcases e.handleEvent (.error error) with ⟨_ | produced, e'⟩ <;> simp [eventLeases]
    · simp

theorem receiveLoop_queues (events : List DecodeEvent) (e : ConnectionEngine) (out : List Bytes) :
    Queues e (receiveLoop events e out).2 ((handled events e).flatMap fun p => p.1.leases p.2) := by
  induction events generalizing e out with
  | nil => exact (Steady.refl e).queues _
  | cons event events ih =>
    have hevent := handleEvent_queues e event
    rw [handled_leases]
    unfold receiveLoop
    rcases h : e.handleEvent event with ⟨_ | produced, e'⟩
    · rw [h] at hevent
      dsimp only
      rw [List.append_nil]
      exact hevent
    · rw [h] at hevent
      exact hevent.trans (ih e' _)

theorem runTask_steady (e : ConnectionEngine) (task : EngineTask) : Steady e (e.runTask task).2 := by
  cases task with
  | foreign => exact .refl e
  | dispatch lease message completion =>
    unfold runTask
    dsimp only
    split
    next => exact .refl e
    next => exact completePlugin_steady _ _

/-- Taking a task from the executor runs a plugin of a queued family, and queues none. -/
theorem drainOne_queues (e : ConnectionEngine) :
    Queues e e.drainOne.2 [] ∧ e.drainOne.2.capabilities = e.capabilities ∧
      ∀ family ∈ e.popped, family ∈ e.queuedFamilies := by
  unfold drainOne popped
  cases hexecutor : e.executor with
  | none => exact ⟨(Steady.refl e).queues _, rfl, by simp⟩
  | some executor =>
    dsimp only
    unfold DeterministicExecutor.popFront
    cases hqueue : executor.queue with
    | nil => exact ⟨(Steady.refl e).queues _, rfl, by simp⟩
    | cons task queue =>
      dsimp only
      have hrun := runTask_steady { e with executor := some { executor with queue } } task.run
      refine ⟨⟨hrun.registry, by rw [hrun.executor, hexecutor]; rfl, ?_⟩, hrun.capabilities, ?_⟩
      · intro family hfamily
        rw [hrun.queued] at hfamily
        obtain ⟨_, hfound, queued, hqueued, hmem⟩ := mem_queuedFamilies.mp hfamily
        cases hfound
        refine .inl (mem_queuedFamilies.mpr ⟨executor, hexecutor, queued, ?_, hmem⟩)
        rw [hqueue]
        exact List.mem_cons_of_mem _ hqueued
      · intro family hfamily
        refine mem_queuedFamilies.mpr ⟨executor, hexecutor, task, ?_, hfamily⟩
        rw [hqueue]
        exact List.mem_cons_self

theorem drainAllLoop_queues (fuel : Nat) (e : ConnectionEngine) :
    Queues e (drainAllLoop fuel e).2 [] ∧ (drainAllLoop fuel e).2.capabilities = e.capabilities ∧
      ∀ family ∈ drained fuel e, family ∈ e.queuedFamilies := by
  induction fuel generalizing e with
  | zero => exact ⟨(Steady.refl e).queues _, rfl, by simp [drained]⟩
  | succ fuel ih =>
    obtain ⟨hone, hcapabilities, hpopped⟩ := drainOne_queues e
    unfold drainAllLoop drained
    rcases h : e.drainOne with ⟨_ | _, e'⟩
    · rw [h] at hone hcapabilities
      dsimp only
      rw [List.append_nil]
      exact ⟨hone, hcapabilities, hpopped⟩
    · rw [h] at hone hcapabilities
      obtain ⟨hrest, hcapabilities', hdrained⟩ := ih e'
      refine ⟨hone.trans hrest, hcapabilities'.trans hcapabilities, fun family hfamily => ?_⟩
      rcases List.mem_append.mp hfamily with hfirst | hlater
      · exact hpopped family hfirst
      · rcases hone.queued family (hdrained family hlater) with hmem | hnone
        · exact hmem
        · cases hnone

end ConnectionEngine

end LatticeGateway
