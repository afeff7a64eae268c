import LatticeGateway.NegotiatedPlugins
import LatticeGateway.RecordedEvents

namespace LatticeGateway

open Runs

/-- The event at `p` delivers that message. -/
def DeliveredAt (events : List ConnectionEvent) (p : Nat) (channel : ChannelId) (sequence : UInt32) : Prop :=
  ∃ event, events[p]? = some event ∧ event.kind = .messageDelivered ∧ event.channel = channel ∧
    event.sequence = sequence

/-- The responses, each with its place among the events. -/
def responses (events : List ConnectionEvent) : List (ConnectionEvent × Nat) :=
  events.zipIdx.filter (·.1.kind = .pluginResponse)

/-- The response answers the message that was delivered at `p`, which is an earlier place. -/
def Answers (events : List ConnectionEvent) (response : ConnectionEvent × Nat) (p : Nat) : Prop :=
  p < response.2 ∧ DeliveredAt events p response.1.channel response.1.sequence

/-- Every response answers a delivery, and a later response a later delivery. -/
def Answered (events : List ConnectionEvent) : Prop :=
  ∃ answered : List Nat, answered.Pairwise (· < ·) ∧
    List.Forall₂ (Answers events) (responses events) answered

/-- What the engine is to be told when the task is done. -/
def EngineTask.completion? : EngineTask → Option PluginCompletion
  | .dispatch _ _ completion => some completion
  | .foreign _ => none

def awaited (queue : List (ExecutorTask EngineTask)) : List PluginCompletion :=
  queue.filterMap fun task => task.run.completion?

def Awaits (events : List ConnectionEvent) (completion : PluginCompletion) (p : Nat) : Prop :=
  DeliveredAt events p completion.channel completion.sequence

/-- The queued tasks of the engine are for later messages than those that are answered, in their order. -/
structure Serving (events : List ConnectionEvent) (queue : List (ExecutorTask EngineTask))
    (answered waiting : List Nat) : Prop where
  order : (answered ++ waiting).Pairwise (· < ·)
  places : ∀ p ∈ answered ++ waiting, p < events.length
  answers : List.Forall₂ (Answers events) (responses events) answered
  awaits : List.Forall₂ (Awaits events) (awaited queue) waiting

theorem DeliveredAt.append {events : List ConnectionEvent} {p : Nat} {channel : ChannelId}
    {sequence : UInt32} (h : DeliveredAt events p channel sequence) (more : List ConnectionEvent) :
    DeliveredAt (events ++ more) p channel sequence := by
  obtain ⟨event, hevent, hdelivers⟩ := h
  have hlt := (List.getElem?_eq_some_iff.mp hevent).1
  exact ⟨event, by rw [List.getElem?_append_left hlt, hevent], hdelivers⟩

theorem deliveredAt_last (events : List ConnectionEvent) (channel : ChannelId) (sequence : UInt32)
    (payload : Bytes) : DeliveredAt (events ++ [{ kind := .messageDelivered, channel, sequence, payload }])
      events.length channel sequence :=
  ⟨_, List.getElem?_concat_length, rfl, rfl, rfl⟩

theorem responses_mute (events : List ConnectionEvent) {more : List ConnectionEvent}
    (h : ∀ event ∈ more, event.kind ≠ .pluginResponse) : responses (events ++ more) = responses events := by
  unfold responses
  have hnone : (more.zipIdx (0 + events.length)).filter (·.1.kind = .pluginResponse) = [] := by
    refine List.filter_eq_nil_iff.mpr ?_
    rintro ⟨event, place⟩ hevent
    simpa using h event (List.fst_mem_of_mem_zipIdx hevent)
  rw [List.zipIdx_append, List.filter_append, hnone, List.append_nil]

theorem responses_concat (events : List ConnectionEvent) {event : ConnectionEvent}
    (h : event.kind = .pluginResponse) :
    responses (events ++ [event]) = responses events ++ [(event, events.length)] := by
  unfold responses
  rw [List.zipIdx_append, List.filter_append]
  simp [h]

/-- Fewer of the ones are related to fewer of the others. -/
theorem forall₂_sublist {α β : Type*} {R : α → β → Prop} {xs xs' : List α} {ys : List β}
    (hsub : xs'.Sublist xs) (h : List.Forall₂ R xs ys) :
    ∃ ys', ys'.Sublist ys ∧ List.Forall₂ R xs' ys' := by
  induction hsub generalizing ys with
  | slnil => exact ⟨[], List.nil_sublist ys, .nil⟩
  | cons x _ ih =>
    cases h with
    | cons _ hrest =>
      obtain ⟨ys', hys, hall⟩ := ih hrest
      exact ⟨ys', hys.cons _, hall⟩
  | cons_cons x _ ih =>
    cases h with
    | cons hx hrest =>
      obtain ⟨ys', hys, hall⟩ := ih hrest
      exact ⟨_ :: ys', hys.cons_cons _, .cons hx hall⟩

section

variable {events : List ConnectionEvent} {queue : List (ExecutorTask EngineTask)}
  {answered waiting : List Nat}

theorem Serving.answered_all (h : Serving events queue answered waiting) : Answered events :=
  ⟨answered, (List.pairwise_append.mp h.order).1, h.answers⟩

/-- Other events change nothing. -/
theorem Serving.mute (h : Serving events queue answered waiting) {more : List ConnectionEvent}
    (hmute : ∀ event ∈ more, event.kind ≠ .pluginResponse) :
    Serving (events ++ more) queue answered waiting := by
  refine ⟨h.order, fun p hp => ?_, ?_, h.awaits.imp fun _ _ hawaits => hawaits.append more⟩
  · rw [List.length_append]
    exact Nat.lt_add_right _ (h.places p hp)
  · rw [responses_mute events hmute]
    exact h.answers.imp fun _ _ hanswers => ⟨hanswers.1, hanswers.2.append more⟩

/-- A queue with fewer tasks. -/
theorem Serving.fewer (h : Serving events queue answered waiting)
    {queue' : List (ExecutorTask EngineTask)} (hsub : (awaited queue').Sublist (awaited queue)) :
    ∃ waiting', Serving events queue' answered waiting' := by
  obtain ⟨waiting', hwaiting, hawaits⟩ := forall₂_sublist hsub h.awaits
  have hplaces := (List.Sublist.refl answered).append hwaiting
  exact ⟨waiting', h.order.sublist hplaces, fun p hp => h.places p (hplaces.subset hp), h.answers, hawaits⟩

/-- A message is delivered and its task queued. -/
theorem Serving.queued (h : Serving events queue answered waiting) {channel : ChannelId}
    {sequence : UInt32} (payload : Bytes) {task : ExecutorTask EngineTask} {completion : PluginCompletion}
    (htask : task.run.completion? = some completion) (hchannel : completion.channel = channel)
    (hsequence : completion.sequence = sequence) :
    Serving (events ++ [{ kind := .messageDelivered, channel, sequence, payload }]) (queue ++ [task])
      answered (waiting ++ [events.length]) := by
  have hmute := @Serving.mute _ _ _ _ h [{ kind := .messageDelivered, channel, sequence, payload }]
    (by simp)
  have hlast := deliveredAt_last events channel sequence payload
  refine ⟨?_, ?_, hmute.answers, ?_⟩
  · rw [← List.append_assoc]
    refine List.pairwise_append.mpr ⟨h.order, List.pairwise_singleton _ _, fun p hp last hlast => ?_⟩
    rw [List.mem_singleton.mp hlast]
    exact h.places p hp
  · rw [← List.append_assoc]
    refine List.forall_mem_append.mpr ⟨hmute.places, List.forall_mem_singleton.mpr ?_⟩
    rw [List.length_append]
    exact Nat.lt_add_one _
  · unfold awaited
    have hone : [task].filterMap (fun task => task.run.completion?) = [completion] := by
      rw [List.filterMap_cons, htask, List.filterMap_nil]
    rw [List.filterMap_append, hone]
    refine List.rel_append hmute.awaits (.cons ?_ .nil)
    unfold Awaits
    rwa [hchannel, hsequence]

/-- The front task is done, and the response to it recorded. -/
theorem Serving.responded (h : Serving events queue answered waiting) {task : ExecutorTask EngineTask}
    {rest : List (ExecutorTask EngineTask)} (hqueue : queue = task :: rest) {completion : PluginCompletion}
    (htask : task.run.completion? = some completion) (response : Bytes) : ∃ answered' waiting',
      Serving (events ++ [{ kind := .pluginResponse, channel := completion.channel
                            sequence := completion.sequence, payload := response }]) rest
        answered' waiting' := by
  have hawaits := h.awaits
  have horder := h.order
  have hplaces := h.places
  rw [hqueue, awaited, List.filterMap_cons, htask] at hawaits
  cases hawaits with
  | @cons _ p _ waiting' hp hrest =>
    rw [List.append_cons] at horder hplaces
    refine ⟨answered ++ [p], waiting', horder, fun q hq => ?_, ?_, ?_⟩
    · rw [List.length_append]
      exact Nat.lt_add_right _ (hplaces q hq)
    · rw [responses_concat events rfl]
      refine List.rel_append (h.answers.imp fun _ _ hanswers => ⟨hanswers.1, hanswers.2.append _⟩)
        (.cons ⟨?_, hp.append _⟩ .nil)
      exact hplaces p (by simp)
    · exact hrest.imp fun _ _ hawaits => hawaits.append _

end

namespace ConnectionEngine

/-- The engine has an executor, which serves its messages. -/
def Serves (e : ConnectionEngine) : Prop :=
  ∃ executor, e.executor = some executor ∧ ∃ answered waiting,
    Serving e.events executor.queue answered waiting

/-- What was recorded in between are no responses. -/
def Unanswering (e e' : ConnectionEngine) : Prop :=
  ∃ more, e'.events = e.events ++ more ∧ ∀ event ∈ more, event.kind ≠ .pluginResponse

theorem Mute.unanswering {e e' : ConnectionEngine} (h : Mute e e') : Unanswering e e' := by
  obtain ⟨more, hevents, hmute⟩ := h
  exact ⟨more, hevents, fun event hevent => (hmute event hevent).2⟩

theorem Unanswering.trans {e e' e'' : ConnectionEngine} (h : Unanswering e e')
    (h' : Unanswering e' e'') : Unanswering e e'' := by
  obtain ⟨more, hevents, hmute⟩ := h
  obtain ⟨more', hevents', hmute'⟩ := h'
  refine ⟨more ++ more', ?_, List.forall_mem_append.mpr ⟨hmute, hmute'⟩⟩
  rw [hevents', hevents, List.append_assoc]

theorem Serves.mute {e e' : ConnectionEngine} (h : Serves e) (hexecutor : e'.executor = e.executor)
    (hmute : Mute e e') : Serves e' := by
  obtain ⟨executor, hsome, answered, waiting, hserving⟩ := h
  obtain ⟨more, hevents, hmute⟩ := hmute.unanswering
  refine ⟨executor, hexecutor.trans hsome, answered, waiting, ?_⟩
  rw [hevents]
  exact hserving.mute hmute

theorem submit_appends (executor : DeterministicExecutor EngineTask) (shard : UInt32) (task : EngineTask) :
    (executor.submit shard task).2.queue = executor.queue ∨ ∃ queued, queued.run = task ∧
      (executor.submit shard task).2.queue = executor.queue ++ [queued] := by
  obtain ⟨code, detail, herror⟩ | ⟨-, hok⟩ := executor.submit_cases shard task
  · rw [herror]
    exact .inl rfl
  · rw [hok]
    exact .inr ⟨_, rfl, rfl⟩

/-- With an executor, a dispatch queues at most a task for its message. -/
theorem dispatch_deferred {e : ConnectionEngine} {executor : DeterministicExecutor EngineTask}
    (h : e.executor = some executor) (channel : ChannelId) (family : UInt32)
    (completed : LogicalMessage) :
    (e.dispatch channel family completed).2.events = e.events ∧
      ∃ executor', (e.dispatch channel family completed).2.executor = some executor' ∧
        (executor'.queue = executor.queue ∨ ∃ task completion, task.run.completion? = some completion ∧
          completion.channel = channel ∧ completion.sequence = completed.sequence ∧
          executor'.queue = executor.queue ++ [task]) := by
  unfold dispatch
  dsimp only
  split
  next => exact ⟨rfl, executor, h, .inl rfl⟩
  next lease _ =>
    rw [h]
    dsimp only
    let completion : PluginCompletion :=
      { token := e.nextPluginToken, channel, sequence := completed.sequence, familyId := family }
    have hqueue := submit_appends executor
      (if executor.shards = 0 then 0 else channel.number % executor.shards)
      (.dispatch lease completed completion)
    split
    next hsubmit =>
      rw [hsubmit] at hqueue
      exact ⟨rfl, _, rfl, hqueue.imp id fun ⟨task, htask, hsame⟩ =>
        ⟨task, completion, by rw [htask]; rfl, rfl, rfl, hsame⟩⟩
    next hsubmit =>
      rw [hsubmit] at hqueue
      exact ⟨rfl, _, rfl, hqueue.imp id fun ⟨task, htask, hsame⟩ =>
        ⟨task, completion, by rw [htask]; rfl, rfl, rfl, hsame⟩⟩

theorem handleData_serves {e : ConnectionEngine} (h : Serves e) (frame : Frame) :
    Serves (e.handleData frame).2 ∧ Unanswering e (e.handleData frame).2 := by
  rcases handleData_records e frame with ⟨hsteady, hmute⟩ | ⟨family, completed, e', hsteady, hevents, hdata⟩
  · exact ⟨h.mute hsteady.executor hmute, hmute.unanswering⟩
  · obtain ⟨executor, hsome, answered, waiting, hserving⟩ := h
    obtain ⟨hsame, executor', hsome', hqueue⟩ :=
      dispatch_deferred (hsteady.executor.trans hsome) frame.channel family completed
    rw [hdata]
    refine ⟨⟨executor', hsome', ?_⟩, [_], hsame.trans hevents, by simp⟩
    rw [hsame, hevents]
    rcases hqueue with hqueue | ⟨task, completion, htask, hchannel, hsequence, hqueue⟩
    · rw [hqueue]
      exact ⟨answered, waiting, hserving.mute (by simp)⟩
    · rw [hqueue]
      exact ⟨answered, _, hserving.queued completed.payload htask hchannel hsequence⟩

theorem handleFrame_serves {e : ConnectionEngine} (h : Serves e) (frame : Frame) :
    Serves (e.handleFrame frame).2 ∧ Unanswering e (e.handleFrame frame).2 := by
  by_cases hdata : frame.type = .data
  · have hframe : e.handleFrame frame = e.handleData frame := by simp only [handleFrame, hdata]
    rw [hframe]
    exact handleData_serves h frame
  · have hmute := handleFrame_mute e hdata
    refine ⟨h.mute ?_ hmute, hmute.unanswering⟩
    by_cases hhello : frame.type = .hello
    · have hframe : e.handleFrame frame = e.handleHello frame := by simp only [handleFrame, hhello]
      rw [hframe]
      rcases handleHello_cases e frame with ⟨error, h⟩ | ⟨_, caps, _, _, _, h⟩
      · rw [h]
      · rw [h]
        rfl
    · exact (handleFrame_steady e hhello hdata).executor

theorem handleEvent_serves {e : ConnectionEngine} (h : Serves e) (event : DecodeEvent) :
    Serves (e.handleEvent event).2 ∧ Unanswering e (e.handleEvent event).2 := by
  have hdiagnostic : ∀ (e : ConnectionEngine) (error : Error) (state : ConnectionState), Serves e →
      Serves { e.diagnostic error with state } ∧ Unanswering e { e.diagnostic error with state } := by
    intro e error state h
    have hmute : Mute e { e.diagnostic error with state } := .diagnostic e error
    exact ⟨h.mute rfl hmute, hmute.unanswering⟩
  cases event with
  | needMore => exact ⟨h, (Mute.refl e).unanswering⟩
  | error error => exact hdiagnostic e error .closed h
  | frame frame =>
    obtain ⟨hserves, hunanswering⟩ := handleFrame_serves h frame
    unfold handleEvent
    dsimp only
    split
    next error e' hframe =>
      rw [hframe] at hserves hunanswering
      dsimp only
      split
      next =>
        obtain ⟨hclosed, hrecord⟩ := hdiagnostic e' error .closed hserves
        exact ⟨hclosed, hunanswering.trans hrecord⟩
      next =>
        obtain ⟨hopen, hrecord⟩ := hdiagnostic e' error e'.state hserves
        exact ⟨hopen, hunanswering.trans hrecord⟩
    next hframe =>
      rw [hframe] at hserves hunanswering
      exact ⟨hserves, hunanswering⟩

theorem receiveLoop_serves (events : List DecodeEvent) {e : ConnectionEngine} (h : Serves e)
    (out : List Bytes) :
    Serves (receiveLoop events e out).2 ∧ Unanswering e (receiveLoop events e out).2 := by
  induction events generalizing e out with
  | nil => exact ⟨h, (Mute.refl e).unanswering⟩
  | cons event events ih =>
    obtain ⟨hserves, hunanswering⟩ := handleEvent_serves h event
    unfold receiveLoop
    split
    next hevent =>
      rw [hevent] at hserves hunanswering
      exact ⟨hserves, hunanswering⟩
    next hevent =>
      rw [hevent] at hserves hunanswering
      obtain ⟨hrest, hmore⟩ := ih hserves _
      exact ⟨hrest, hunanswering.trans hmore⟩

/-- The channel is live. -/
def HasLive (e : ConnectionEngine) (id : ChannelId) : Prop :=
  ∃ t slot, e.channels = some t ∧ t.find id = some slot

/-- Responses are recorded on channels that are live before and after, and all the while. -/
def AnswersLive (e e' : ConnectionEngine) : Prop :=
  ∃ more, e'.events = e.events ++ more ∧
    ∀ event ∈ more, event.kind = .pluginResponse → e'.channels = e.channels ∧ e.HasLive event.channel

theorem Unanswering.answersLive {e e' : ConnectionEngine} (h : Unanswering e e') : AnswersLive e e' := by
  obtain ⟨more, hevents, hnone⟩ := h
  exact ⟨more, hevents, fun event hevent hkind => absurd hkind (hnone event hevent)⟩

theorem completePlugin_live (e : ConnectionEngine) (completion : PluginCompletion) :
    (e.completePlugin completion).2 = e ∨ e.HasLive completion.channel ∧ (e.completePlugin completion).2 =
      e.record .pluginResponse completion.channel completion.sequence completion.response := by
  unfold completePlugin
  split
  next => exact .inl rfl
  next t ht =>
    split
    next => exact .inl rfl
    next slot hfind =>
      split
      next => exact .inl rfl
      next => exact .inr ⟨⟨t, slot, ht, hfind⟩, rfl⟩

/-- What a run of queued tasks does to an engine that is served. -/
structure Drains (e e' : ConnectionEngine) : Prop where
  serves : Serves e'
  channels : e'.channels = e.channels
  live : AnswersLive e e'

theorem Drains.refl {e : ConnectionEngine} (h : Serves e) : Drains e e :=
  ⟨h, rfl, (Mute.refl e).unanswering.answersLive⟩

theorem Drains.trans {e e' e'' : ConnectionEngine} (h : Drains e e') (h' : Drains e' e'') :
    Drains e e'' := by
  obtain ⟨more, hevents, hlive⟩ := h.live
  obtain ⟨more', hevents', hlive'⟩ := h'.live
  have hchannels := h'.channels.trans h.channels
  refine ⟨h'.serves, hchannels, more ++ more', ?_, List.forall_mem_append.mpr ⟨?_, ?_⟩⟩
  · rw [hevents', hevents, List.append_assoc]
  · exact fun event hevent hkind => ⟨hchannels, (hlive event hevent hkind).2⟩
  · intro event hevent hkind
    obtain ⟨_, t, slot, ht, hfind⟩ := hlive' event hevent hkind
    exact ⟨hchannels, t, slot, h.channels ▸ ht, hfind⟩

theorem drainOne_drains {e : ConnectionEngine} (h : Serves e) : Drains e e.drainOne.2 := by
  obtain ⟨executor, hsome, answered, waiting, hserving⟩ := id h
  unfold drainOne DeterministicExecutor.popFront
  rw [hsome]
  dsimp only
  cases hqueue : executor.queue with
  | nil => exact .refl h
  | cons task rest =>
    let popped : ConnectionEngine := { e with executor := some { executor with queue := rest } }
    have hsub : (awaited rest).Sublist (awaited executor.queue) := by
      rw [hqueue]
      exact (List.sublist_cons_self task rest).filterMap _
    obtain ⟨waiting', hrest⟩ := hserving.fewer hsub
    have hpopped : Drains e popped :=
      ⟨⟨_, rfl, answered, waiting', hrest⟩, rfl, (Mute.of_eq rfl).unanswering.answersLive⟩
    change Drains e (popped.runTask task.run).2
    cases hrun : task.run with
    | foreign result => exact hpopped
    | dispatch lease message completion =>
      unfold runTask
      dsimp only
      split
      next => exact hpopped
      next response _ =>
        rcases completePlugin_live popped { completion with response } with hnone | ⟨hlive, hrecorded⟩
        · rw [hnone]
          exact hpopped
        · rw [hrecorded]
          have hserved := hserving.responded hqueue
            (show task.run.completion? = some completion by rw [hrun]; rfl) response
          exact ⟨⟨_, rfl, hserved⟩, rfl, [_], rfl,
            List.forall_mem_singleton.mpr fun _ => ⟨rfl, hlive⟩⟩

theorem drainAllLoop_drains (fuel : Nat) {e : ConnectionEngine} (h : Serves e) :
    Drains e (drainAllLoop fuel e).2 := by
  induction fuel generalizing e with
  | zero => exact .refl h
  | succ fuel ih =>
    have hone := drainOne_drains h
    unfold drainAllLoop
    split
    next hdrain => rw [hdrain] at hone; exact hone
    next hdrain =>
      rw [hdrain] at hone
      exact hone.trans (ih hone.serves)

theorem Serves.of_mute {e e' : ConnectionEngine} (h : Serves e) (hsteady : Steady e e')
    (hmute : Mute e e') : Serves e' ∧ AnswersLive e e' :=
  ⟨h.mute hsteady.executor hmute, hmute.unanswering.answersLive⟩

/-- A foreign task is for nothing that the engine awaits. -/
theorem Serves.submitTask {e : ConnectionEngine} (h : Serves e) (shard : UInt32) (result : Except Error Unit) :
    Serves (e.call (.submitTask shard result)) := by
  obtain ⟨executor, hsome, answered, waiting, hserving⟩ := h
  have hexecutor : (e.call (.submitTask shard result)).executor =
      some (executor.submit shard (.foreign result)).2 := by
    change e.executor.map _ = _
    rw [hsome]
    rfl
  refine ⟨_, hexecutor, answered, hserving.fewer ?_⟩
  rcases submit_appends executor shard (.foreign result) with hqueue | ⟨queued, hqueued, hqueue⟩
  · rw [hqueue]
  · have hnone : awaited [queued] = [] := by
      unfold awaited
      rw [List.filterMap_cons, hqueued]
      rfl
    rw [hqueue, awaited, List.filterMap_append]
    change (awaited executor.queue ++ awaited [queued]).Sublist _
    rw [hnone, List.append_nil]

theorem Serves.cancelTask {e : ConnectionEngine} (h : Serves e) (id : UInt64) :
    Serves (e.call (.cancelTask id)) := by
  obtain ⟨executor, hsome, answered, waiting, hserving⟩ := h
  have hexecutor : (e.call (.cancelTask id)).executor = some (executor.cancel id).2 := by
    change e.executor.map _ = _
    rw [hsome]
    rfl
  refine ⟨_, hexecutor, answered, hserving.fewer ?_⟩
  rw [executor.cancel_queue]
  exact List.filter_sublist.filterMap _

/-- Every call but `complete_plugin` goes on to serve, and answers on live channels only. -/
theorem call_serves {e : ConnectionEngine} (h : Serves e) {c : Call}
    (hother : ∀ completion, c ≠ .completePlugin completion) :
    Serves (e.call c) ∧ AnswersLive e (e.call c) := by
  cases c with
  | completePlugin completion => exact absurd rfl (hother completion)
  | start => exact h.of_mute (start_steady e) (start_mute e)
  | receive bytes eof =>
    obtain ⟨executor, hsome, hserving⟩ := h
    have hdecoded : Serves (e.decoded bytes eof).2 := ⟨executor, hsome, hserving⟩
    obtain ⟨hserves, hunanswering⟩ := receiveLoop_serves (e.decoded bytes eof).1 hdecoded []
    exact ⟨hserves, hunanswering.answersLive⟩
  | openChannel request => exact h.of_mute (openChannel_steady e request) (openChannel_mute e request)
  | send id payload => exact h.of_mute (send_steady e id payload) (send_mute e id payload)
  | grantCredit id amount => exact h.of_mute (emitFrame_steady e _ _ _ _) (emitFrame_mute e _ _ _ _)
  | acknowledge ranges => exact h.of_mute (acknowledge_steady e ranges) (acknowledge_mute e ranges)
  | ping token => exact h.of_mute (emitFrame_steady e _ _ _ _) (emitFrame_mute e _ _ _ _)
  | resume request => exact h.of_mute (emitFrame_steady e _ _ _ _) (emitFrame_mute e _ _ _ _)
  | advanceTime nowMs =>
    have hmute : Mute e (e.advanceTime nowMs).2 :=
      advanceLoop_mute _ { e with nowMs, timers := (e.timers.expire nowMs).2 } []
    exact h.of_mute (advanceTime_steady e nowMs) hmute
  | flushOutbound writableBytes => exact h.of_mute ⟨rfl, rfl, rfl⟩ (.of_eq rfl)
  | loadReplaySnapshot text => exact h.of_mute (loadReplaySnapshot_steady e text) (loadReplaySnapshot_mute e text)
  | halfClose id direction => exact h.of_mute (halfClose_steady e id direction) (halfClose_mute e id direction)
  | reset id => exact h.of_mute (reset_steady e id) (reset_mute e id)
  | goaway => exact h.of_mute (goaway_steady e) (goaway_mute e)
  | submitTask shard result => exact ⟨h.submitTask shard result, (Mute.of_eq rfl).unanswering.answersLive⟩
  | cancelTask id => exact ⟨h.cancelTask id, (Mute.of_eq rfl).unanswering.answersLive⟩
  | drainOne =>
    have hdrains := drainOne_drains h
    exact ⟨hdrains.serves, hdrains.live⟩
  | drainAll =>
    have hdrains := drainAllLoop_drains (e.executor.elim 0 (·.queue.length)) h
    exact ⟨hdrains.serves, hdrains.live⟩

/-- Call after call the engine goes on to serve. -/
theorem serves_along (calls : List Call) (hother : ∀ c ∈ calls, ∀ completion, c ≠ .completePlugin completion)
    {e : ConnectionEngine} (h : Serves e) :
    Serves (run call e calls) ∧ Along call (fun e c => AnswersLive e (e.call c)) e calls := by
  induction calls generalizing e with
  | nil => exact ⟨h, trivial⟩
  | cons c calls ih =>
    obtain ⟨hfirst, hrest⟩ := List.forall_mem_cons.mp hother
    obtain ⟨hserves, hlive⟩ := call_serves h hfirst
    obtain ⟨hend, halong⟩ := ih hrest hserves
    exact ⟨hend, hlive, halong⟩

/-- Whatever an engine with an executor goes through, each plugin response answers an earlier delivery on
its channel, in the order of the deliveries and each at most once, and is recorded while the channel is
live. -/
theorem deferred_results_answer (policy : LocalPolicy) (registry : PluginRegistry) (capacity : Nat)
    (shards : UInt32) (calls : List Call)
    (hother : ∀ c ∈ calls, ∀ completion, c ≠ .completePlugin completion) :
    Answered (run call (make policy registry (some (.make capacity shards))) calls).events ∧
      Along call (fun e c => AnswersLive e (e.call c))
        (make policy registry (some (.make capacity shards))) calls := by
  have hmake : Serves (make policy registry (some (.make capacity shards))) :=
    ⟨_, rfl, [], [], .nil, fun p hp => absurd hp List.not_mem_nil, .nil, .nil⟩
  obtain ⟨⟨_, _, answered, waiting, hserving⟩, halong⟩ := serves_along calls hother hmake
  exact ⟨hserving.answered_all, halong⟩

/-- One message, and its task after the next `drain_one`. -/
theorem deferred_results_answer_echo :
    Answered (run call (make { maxChannels := 1 } echoRegistry (some (.make 4 2)))
      (receives 7 ++ [.drainOne])).events ∧
    (responses (run call (make { maxChannels := 1 } echoRegistry (some (.make 4 2)))
      (receives 7 ++ [.drainOne])).events).length = 1 := by
  refine ⟨(deferred_results_answer { maxChannels := 1 } echoRegistry 4 2 _ ?_).1, by decide +kernel⟩
  simp [receives, negotiation]

end ConnectionEngine

end LatticeGateway
