import LatticeGateway.ReplayLog

namespace LatticeGateway

open Runs BoundedLog

namespace ConnectionEngine

theorem sendLoop_emits (id : ChannelId) (sequence : UInt32) (total : Nat) (rounds : List (Nat × Bytes))
    (e : ConnectionEngine) (out : List Bytes) : ∃ more,
    Notes e (loopEmissions id sequence total rounds e)
      ((loopEmissions id sequence total rounds e).flatMap Emission.noted) more
      (sendLoop id sequence total rounds e out).2 ∧
    ∀ chunks, (sendLoop id sequence total rounds e out).1 = .ok chunks → chunks = out ++ more := by
  induction rounds generalizing e out with
  | nil => exact ⟨[], .same (.refl e), fun chunks hok => by cases hok; rw [List.append_nil]⟩
  | cons round rounds ih =>
    obtain ⟨offset, fragment⟩ := round
    obtain ⟨first, hfirst, hout⟩ :=
      emitFrame_emits e .data id fragment (fragmentExtensions sequence offset total)
    unfold loopEmissions sendLoop
    rcases hemit : e.emitFrame .data id fragment (fragmentExtensions sequence offset total) with
      ⟨error | produced, e'⟩
    · rw [hemit] at hfirst
      exact ⟨first, hfirst, fun _ hok => by cases hok⟩
    · rw [hemit] at hfirst hout
      obtain rfl := hout produced rfl
      obtain ⟨more, hrest, hmore⟩ := ih e' (out ++ produced)
      refine ⟨produced ++ more, ?_, fun chunks hok => ?_⟩
      · have hboth := hfirst.append hrest
        rw [List.flatMap_singleton] at hboth
        exact hboth
      · rw [hmore chunks hok, List.append_assoc]

theorem start_emits (e : ConnectionEngine) : Emits e e.startEmissions e.start := by
  unfold startEmissions start
  by_cases hcreated : e.state ≠ .created
  · simp only [if_pos hcreated]
    exact (Unlogged.refl e).fails
  · simp only [if_neg hcreated]
    cases encodeHelloPayload e.localHello with
    | error error => exact (Unlogged.refl e).fails
    | ok payload => exact .emit rfl ⟨rfl, rfl, rfl, rfl, rfl⟩

theorem openChannel_emits (e : ConnectionEngine) (request : OpenRequest) :
    Emits e (e.openEmissions request)
      ((e.openChannel request).1.map Prod.snd, (e.openChannel request).2) := by
  unfold openEmissions openChannel
  rcases e.channels with _ | t
  · exact (Unlogged.refl e).fails
  rcases hcaps : e.capabilities with _ | capabilities
  · exact (Unlogged.refl e).fails
  dsimp only
  by_cases hactive : e.state ≠ .active
  · simp only [if_pos hactive]
    exact (Unlogged.refl e).fails
  simp only [if_neg hactive]
  by_cases hfamily : capabilities.plugins.all (·.familyId ≠ request.familyId) = true
  · simp only [if_pos hfamily]
    exact (Unlogged.refl e).fails
  simp only [if_neg hfamily]
  have htable : ∀ t', Unlogged e { e with channels := some t', capabilities := some capabilities } :=
    fun _ => ⟨rfl, rfl, rfl, rfl, rfl⟩
  rcases t.allocate with ⟨_ | id, t'⟩
  · exact (htable t').fails
  dsimp only
  rcases t'.activate id with ⟨_ | _, t''⟩
  · exact (htable t'').fails
  dsimp only
  have hemit : Emits e [{ e with channels := some t'', capabilities := some capabilities }.framed .open id
      (u32Bytes request.familyId ++ u32Bytes (UInt32.ofNat request.initialWindow))]
      ({ e with channels := some t'', capabilities := some capabilities }.emitFrame .open id
        (u32Bytes request.familyId ++ u32Bytes (UInt32.ofNat request.initialWindow))) :=
    .emit rfl ⟨rfl, rfl, rfl, rfl, rfl⟩
  split
  next h =>
    rw [h] at hemit
    exact hemit
  next h =>
    rw [h] at hemit
    exact hemit.then_unlogged ⟨rfl, rfl, rfl, rfl, rfl⟩

theorem releaseFlow_unlogged (e : ConnectionEngine) (number : UInt32) (amount : Nat) :
    Unlogged e (e.releaseFlow number amount) := by
  unfold releaseFlow
  repeat' split
  all_goals exact ⟨rfl, rfl, rfl, rfl, rfl⟩

theorem send_emits (e : ConnectionEngine) (id : ChannelId) (payload : Bytes) :
    Emits e (e.sendEmissions id payload) (e.send id payload) := by
  unfold sendEmissions send
  rcases e.channels with _ | t
  · exact (Unlogged.refl e).fails
  rcases e.capabilities with _ | capabilities
  · exact (Unlogged.refl e).fails
  dsimp only
  by_cases hactive : e.state ≠ .active
  · simp only [if_pos hactive]
    exact (Unlogged.refl e).fails
  simp only [if_neg hactive]
  rcases t.find id with _ | slot
  · exact (Unlogged.refl e).fails
  dsimp only
  by_cases hclosed : slot.localHalfClosed = true
  · simp only [if_pos hclosed]
    exact (Unlogged.refl e).fails
  simp only [if_neg hclosed]
  by_cases hcap : payload.length > capabilities.maxMessage
  · simp only [if_pos hcap]
    exact (Unlogged.refl e).fails
  simp only [if_neg hcap]
  have htable : ∀ t', Unlogged e { e with channels := some t', capabilities := some capabilities } :=
    fun _ => ⟨rfl, rfl, rfl, rfl, rfl⟩
  rcases slot.flow.reserve payload.length with ⟨_ | _, flow⟩
  · have hslot : Unlogged e (e.setSlot t id.number { slot with flow }) := ⟨rfl, rfl, rfl, rfl, rfl⟩
    exact hslot.fails
  dsimp only
  rcases (t.setSlot id.number { slot with flow }).reserveSendSequence id with ⟨_ | sequence, t'⟩
  · exact ((htable t').trans (releaseFlow_unlogged _ _ _)).fails
  · obtain ⟨out, hnotes, hout⟩ := sendLoop_emits id sequence payload.length
      (fragments (max 1 (capabilities.maxFrame / 2)) payload payload.length 0)
      { e with channels := some t', capabilities := some capabilities } []
    exact (htable t').then_answers ⟨out, hnotes.then_unlogged (releaseFlow_unlogged _ _ _), hout⟩

theorem acknowledge_emits (e : ConnectionEngine) (ranges : List AckRange) :
    Emits e (e.acknowledgeEmissions ranges) (e.acknowledge ranges) := by
  unfold acknowledgeEmissions acknowledge
  cases encodeAckPayload 1 ranges with
  | error error => exact (Unlogged.refl e).fails
  | ok payload => exact emitFrame_emits e _ _ _ _

theorem halfClose_emits (e : ConnectionEngine) (id : ChannelId) (direction : Direction) :
    Emits e (e.halfCloseEmissions id direction) (e.halfClose id direction) := by
  unfold halfCloseEmissions halfClose
  rcases e.channels with _ | t
  · exact (Unlogged.refl e).fails
  dsimp only
  rcases t.halfClose id direction with ⟨_ | _, t'⟩
  · have htable : Unlogged e { e with channels := some t' } := ⟨rfl, rfl, rfl, rfl, rfl⟩
    exact htable.fails
  · exact .emit rfl ⟨rfl, rfl, rfl, rfl, rfl⟩

theorem reset_emits (e : ConnectionEngine) (id : ChannelId) :
    Emits e (e.resetEmissions id) (e.reset id) := by
  unfold resetEmissions reset
  rcases e.channels with _ | t
  · exact (Unlogged.refl e).fails
  dsimp only
  rcases t.reset id with ⟨_ | _, t'⟩
  · have htable : Unlogged e { e with channels := some t' } := ⟨rfl, rfl, rfl, rfl, rfl⟩
    exact htable.fails
  · exact .emit rfl ⟨rfl, rfl, rfl, rfl, rfl⟩

theorem goaway_emits (e : ConnectionEngine) : Emits e (e.emissions .goaway) e.goaway :=
  .emit rfl ⟨rfl, rfl, rfl, rfl, rfl⟩

theorem completePlugin_unlogged (e : ConnectionEngine) (completion : PluginCompletion) :
    Unlogged e (e.completePlugin completion).2 := by
  obtain ⟨more, hrecords, _⟩ := completePlugin_records e completion
  rw [hrecords]
  exact ⟨rfl, rfl, rfl, rfl, rfl⟩

/-- What a delivery leads to is not answered. -/
theorem dispatch_answers (e : ConnectionEngine) (channel : ChannelId) (family : UInt32)
    (completed : LogicalMessage) : Answers e [] [] (e.dispatch channel family completed) := by
  have hmoves : Unlogged e (e.dispatch channel family completed).2 := by
    obtain ⟨_, _, _, hmoves, _⟩ := dispatch_moves e channel family completed
    rw [hmoves]
    exact ⟨rfl, rfl, rfl, rfl, rfl⟩
  refine ⟨[], .same hmoves, fun chunks hok => ?_⟩
  unfold dispatch at hok
  dsimp only at hok
  repeat' split at hok
  all_goals first
    | exact (Except.ok.inj hok).symm
    | cases hok

theorem handleData_answers (e : ConnectionEngine) (frame : Frame) : Answers e [] [] (e.handleData frame) := by
  unfold handleData
  dsimp only
  repeat' split
  all_goals first
    | exact Unlogged.fails ⟨rfl, rfl, rfl, rfl, rfl⟩
    | exact Unlogged.succeeds ⟨rfl, rfl, rfl, rfl, rfl⟩
    | refine Unlogged.then_answers ?_ (dispatch_answers _ _ _ _)
      exact ⟨rfl, rfl, rfl, rfl, rfl⟩

theorem handleAck_answers (e : ConnectionEngine) {frame : Frame} (hack : frame.type = .ack) :
    Answers e [] (frameNotes (e, frame)) (e.handleAck frame) := by
  unfold frameNotes handleAck
  rw [hack]
  dsimp only
  by_cases hcontrol : frame.channel.isControl = false
  · rw [if_pos hcontrol, if_pos hcontrol]
    exact (Unlogged.refl e).fails
  rw [if_neg hcontrol, if_neg hcontrol]
  cases decodeAckPayload frame.payload with
  | error error => exact (Unlogged.refl e).fails
  | ok request =>
    obtain ⟨epoch, ranges⟩ := request
    dsimp only
    rcases hacked : e.replay.acknowledge epoch ranges with ⟨error | acked, w⟩
    · have hsame : w = e.replay := by
        unfold ReplayWindow.acknowledge at hacked
        repeat' split at hacked
        all_goals first
          | exact (congrArg Prod.snd hacked).symm
          | cases hacked
      rw [hsame]
      exact (Unlogged.refl e).fails
    · exact ⟨[], .acks hacked, fun _ hok => by cases hok; rfl⟩

/-- A RESUME is answered with frames that the window has retained. -/
theorem handleResume_answers (e : ConnectionEngine) (frame : Frame) :
    Answers e [] [] (e.handleResume frame) := by
  unfold handleResume
  split
  next => exact (Unlogged.refl e).fails
  split
  next => exact (Unlogged.refl e).fails
  split
  next => exact (Unlogged.refl e).fails
  split
  next => exact (Unlogged.refl e).fails
  split
  next => exact (Unlogged.refl e).fails
  next hretained =>
    exact ⟨_, .repeats hretained ⟨rfl, rfl, rfl, rfl, rfl⟩, fun _ hok => (Except.ok.inj hok).symm⟩

/-- Only an ACK and a PING do something to the log. -/
theorem handleFrame_unlogged (e : ConnectionEngine) {frame : Frame} (hping : frame.type ≠ .ping)
    (hack : frame.type ≠ .ack) : Answers e [] [] (e.handleFrame frame) := by
  unfold handleFrame
  cases htype : frame.type with
  | ping => exact absurd htype hping
  | ack => exact absurd htype hack
  | hello =>
    dsimp only
    rcases handleHello_cases e frame with ⟨error, h⟩ | ⟨peer, caps, _, _, _, h⟩
    · rw [h]
      exact (Unlogged.refl e).fails
    · rw [h]
      exact Unlogged.succeeds ⟨rfl, rfl, rfl, rfl, rfl⟩
  | data => exact handleData_answers e frame
  | resume => exact handleResume_answers e frame
  | «open» =>
    unfold handleOpen
    dsimp only
    repeat' split
    all_goals first
      | exact Unlogged.fails ⟨rfl, rfl, rfl, rfl, rfl⟩
      | exact Unlogged.succeeds ⟨rfl, rfl, rfl, rfl, rfl⟩
  | credit =>
    unfold handleCredit
    dsimp only
    repeat' split
    all_goals first
      | exact Unlogged.fails ⟨rfl, rfl, rfl, rfl, rfl⟩
      | exact Unlogged.succeeds ⟨rfl, rfl, rfl, rfl, rfl⟩
  | pong =>
    unfold handlePong
    dsimp only
    repeat' split
    all_goals first
      | exact Unlogged.fails ⟨rfl, rfl, rfl, rfl, rfl⟩
      | exact Unlogged.succeeds ⟨rfl, rfl, rfl, rfl, rfl⟩
  | halfClose =>
    unfold handleHalfClose
    dsimp only
    repeat' split
    all_goals first
      | exact Unlogged.fails ⟨rfl, rfl, rfl, rfl, rfl⟩
      | exact Unlogged.succeeds ⟨rfl, rfl, rfl, rfl, rfl⟩
  | reset => exact Unlogged.succeeds ⟨rfl, rfl, rfl, rfl, rfl⟩
  | goaway => exact Unlogged.succeeds ⟨rfl, rfl, rfl, rfl, rfl⟩

theorem handleFrame_answers (e : ConnectionEngine) (frame : Frame) :
    Answers e (frameEmissions (e, frame)) (frameNotes (e, frame)) (e.handleFrame frame) := by
  by_cases hack : frame.type = .ack
  · have hnone : frameEmissions (e, frame) = [] := by
      unfold frameEmissions
      rw [hack]
    have hframe : e.handleFrame frame = e.handleAck frame := by
      unfold handleFrame
      rw [hack]
    rw [hnone, hframe]
    exact handleAck_answers e hack
  have hnotes : frameNotes (e, frame) = (frameEmissions (e, frame)).flatMap Emission.noted := by
    unfold frameNotes
    dsimp only
    split
    next h => exact absurd h hack
    next => rfl
  rw [hnotes]
  by_cases hping : frame.type = .ping
  · have hframe : e.handleFrame frame = e.handlePing frame := by
      unfold handleFrame
      rw [hping]
    rw [hframe]
    unfold frameEmissions handlePing
    rw [hping]
    dsimp only
    by_cases hcontrol : frame.channel.isControl = false
    · rw [if_pos hcontrol, if_pos hcontrol]
      exact (Unlogged.refl e).fails
    · rw [if_neg hcontrol, if_neg hcontrol]
      cases decodeU64Be frame.payload with
      | error error => exact (Unlogged.refl e).fails
      | ok token => exact emitFrame_emits e _ _ _ _
  · have hnone : frameEmissions (e, frame) = [] := by
      unfold frameEmissions
      dsimp only
      split
      next h => exact absurd h hping
      next => rfl
    rw [hnone]
    exact handleFrame_unlogged e hping hack

/-- The frame of an event, behind the engine that meets it. -/
def metFrame (e : ConnectionEngine) : DecodeEvent → List (ConnectionEngine × Frame)
  | .frame frame => [(e, frame)]
  | _ => []

theorem handled_cons (event : DecodeEvent) (events : List DecodeEvent) (e : ConnectionEngine) :
    handled (event :: events) e = e.metFrame event ++
      match e.handleEvent event with
      | (.error _, _) => []
      | (.ok _, e') => handled events e' := by
  cases event <;> rfl

theorem handleEvent_answers (e : ConnectionEngine) (event : DecodeEvent) :
    Answers e ((e.metFrame event).flatMap frameEmissions) ((e.metFrame event).flatMap frameNotes)
      (e.handleEvent event) := by
  cases event with
  | needMore => exact (Unlogged.refl e).succeeds
  | error error => exact Unlogged.fails ⟨rfl, rfl, rfl, rfl, rfl⟩
  | frame frame =>
    have hframe := handleFrame_answers e frame
    unfold metFrame
    rw [List.flatMap_singleton, List.flatMap_singleton]
    unfold handleEvent
    dsimp only
    rcases hhandled : e.handleFrame frame with ⟨error | produced, e'⟩
    · rw [hhandled] at hframe
      dsimp only
      split
      next => exact hframe.then_unlogged ⟨rfl, rfl, rfl, rfl, rfl⟩
      next => exact hframe.then_unlogged ⟨rfl, rfl, rfl, rfl, rfl⟩
    · rw [hhandled] at hframe
      exact hframe

theorem receiveLoop_notes (events : List DecodeEvent) (e : ConnectionEngine) (out : List Bytes) : ∃ more,
    Notes e ((handled events e).flatMap frameEmissions) ((handled events e).flatMap frameNotes) more
      (receiveLoop events e out).2 ∧
    ∀ chunks, (receiveLoop events e out).1 = .ok chunks → chunks = out ++ more := by
  induction events generalizing e out with
  | nil => exact ⟨[], .same (.refl e), fun chunks hok => by cases hok; rw [List.append_nil]⟩
  | cons event events ih =>
    obtain ⟨first, hfirst, hout⟩ := handleEvent_answers e event
    rw [handled_cons, List.flatMap_append, List.flatMap_append]
    unfold receiveLoop
    rcases hhandled : e.handleEvent event with ⟨error | produced, e'⟩
    · rw [hhandled] at hfirst
      rw [List.flatMap_nil, List.flatMap_nil, List.append_nil, List.append_nil]
      exact ⟨first, hfirst, fun _ hok => by cases hok⟩
    · rw [hhandled] at hfirst hout
      obtain rfl := hout produced rfl
      obtain ⟨more, hrest, hmore⟩ := ih e' (out ++ produced)
      refine ⟨produced ++ more, hfirst.append hrest, fun chunks hok => ?_⟩
      rw [hmore chunks hok, List.append_assoc]

/-- A frame is met after all that the frames before it have done. -/
theorem handled_notes {events : List DecodeEvent} {e e' : ConnectionEngine} {frame : Frame}
    {before after : List (ConnectionEngine × Frame)}
    (h : handled events e = before ++ (e', frame) :: after) :
    ∃ out, Notes e (before.flatMap frameEmissions) (before.flatMap frameNotes) out e' := by
  induction events generalizing e before with
  | nil => simp [handled] at h
  | cons event events ih =>
    obtain ⟨first, hfirst, _⟩ := handleEvent_answers e event
    rw [handled_cons] at h
    have hrest : ∀ rest, e.metFrame event ++ rest = before ++ (e', frame) :: after →
        before = [] ∧ e' = e ∨ ∃ more, before = e.metFrame event ++ more ∧
          rest = more ++ (e', frame) :: after := by
      intro rest hrest
      cases event with
      | frame met =>
        cases before with
        | nil => exact .inl ⟨rfl, (congrArg Prod.fst (List.cons_eq_cons.mp hrest).1).symm⟩
        | cons p before =>
          obtain ⟨rfl, hmore⟩ := List.cons_eq_cons.mp hrest
          exact .inr ⟨before, rfl, hmore⟩
      | needMore => exact .inr ⟨before, rfl, hrest⟩
      | error error => exact .inr ⟨before, rfl, hrest⟩
    rcases hrest _ h with ⟨rfl, rfl⟩ | ⟨more, rfl, hmore⟩
    · exact ⟨[], .same (.refl _)⟩
    · rcases hhandled : e.handleEvent event with ⟨error | produced, e₁⟩
      · rw [hhandled] at hmore
        simp at hmore
      · rw [hhandled] at hmore hfirst
        rw [List.flatMap_append, List.flatMap_append]
        obtain ⟨out, hnotes⟩ := ih hmore
        exact ⟨first ++ out, hfirst.append hnotes⟩

theorem handleTimer_emits (e : ConnectionEngine) (timer : TimerEvent) :
    Emits e (timerEmissions (e, timer)) (e.handleTimer timer) := by
  unfold timerEmissions handleTimer
  cases timer.kind with
  | handshake =>
    dsimp only
    split
    next => exact Unlogged.fails ⟨rfl, rfl, rfl, rfl, rfl⟩
    next => exact (Unlogged.refl e).succeeds
  | retry =>
    dsimp only
    split
    next h => exact ⟨[], .spent h, fun _ hok => by cases hok⟩
    next h => exact ⟨_, .retries h, fun _ hok => (Except.ok.inj hok).symm⟩
  | idle =>
    dsimp only
    generalize (if e.nowMs = 0 then (1 : UInt64) else e.nowMs) = token
    have hping : Emits e [{ e with pendingPongToken := some token }.framed .ping {} (u64Bytes token)]
        ({ e with pendingPongToken := some token }.ping token) := .emit rfl ⟨rfl, rfl, rfl, rfl, rfl⟩
    split
    next h =>
      rw [h] at hping
      exact hping
    next h =>
      rw [h] at hping
      exact hping.then_unlogged ⟨rfl, rfl, rfl, rfl, rfl⟩
  | pongDeadline =>
    dsimp only
    split
    next => exact Unlogged.fails ⟨rfl, rfl, rfl, rfl, rfl⟩
    next => exact (Unlogged.refl e).succeeds
  | drain =>
    dsimp only
    split
    next => exact Unlogged.succeeds ⟨rfl, rfl, rfl, rfl, rfl⟩
    next => exact (Unlogged.refl e).succeeds
  | fragmentGap =>
    dsimp only
    split
    next => exact (Unlogged.refl e).succeeds
    next => exact Unlogged.succeeds ⟨rfl, rfl, rfl, rfl, rfl⟩

theorem advanceLoop_emits (timers : List TimerEvent) (e : ConnectionEngine) (out : List Bytes) : ∃ more,
    Notes e ((timersMet timers e).flatMap timerEmissions)
      (((timersMet timers e).flatMap timerEmissions).flatMap Emission.noted) more
      (advanceLoop timers e out).2 ∧
    ∀ chunks, (advanceLoop timers e out).1 = .ok chunks → chunks = out ++ more := by
  induction timers generalizing e out with
  | nil => exact ⟨[], .same (.refl e), fun chunks hok => by cases hok; rw [List.append_nil]⟩
  | cons timer timers ih =>
    have hrecord : Unlogged e (e.record .timerExpired timer.channel) := ⟨rfl, rfl, rfl, rfl, rfl⟩
    obtain ⟨first, hfirst, hout⟩ := hrecord.then_answers
      (handleTimer_emits (e.record .timerExpired timer.channel) timer)
    unfold timersMet advanceLoop
    dsimp only
    split
    next =>
      obtain ⟨more, hrest, hmore⟩ := ih (e.record .timerExpired timer.channel) out
      exact ⟨more, Notes.append (.same hrecord) hrest, hmore⟩
    next =>
      rw [List.flatMap_cons, List.flatMap_append]
      rcases hmet : (e.record .timerExpired timer.channel).handleTimer timer with ⟨error | produced, e'⟩
      · rw [hmet] at hfirst
        rw [List.flatMap_nil, List.flatMap_nil, List.append_nil, List.append_nil]
        exact ⟨first, hfirst, fun _ hok => by cases hok⟩
      · rw [hmet] at hfirst hout
        obtain rfl := hout produced rfl
        obtain ⟨more, hrest, hmore⟩ := ih e' (out ++ produced)
        refine ⟨produced ++ more, hfirst.append hrest, fun chunks hok => ?_⟩
        rw [hmore chunks hok, List.append_assoc]

theorem runTask_unlogged (e : ConnectionEngine) (task : EngineTask) : Unlogged e (e.runTask task).2 := by
  cases task with
  | foreign => exact .refl e
  | dispatch lease message completion =>
    unfold runTask
    dsimp only
    split
    next => exact .refl e
    next => exact completePlugin_unlogged _ _

theorem drainOne_unlogged (e : ConnectionEngine) : Unlogged e e.drainOne.2 := by
  unfold drainOne
  split
  next => exact .refl e
  next executor _ =>
    split
    next => exact .refl e
    next task executor' _ =>
      have hpop : Unlogged e { e with executor := some executor' } := ⟨rfl, rfl, rfl, rfl, rfl⟩
      exact hpop.trans (runTask_unlogged _ _)

theorem drainAllLoop_unlogged (fuel : Nat) (e : ConnectionEngine) : Unlogged e (drainAllLoop fuel e).2 := by
  induction fuel generalizing e with
  | zero => exact .refl e
  | succ fuel ih =>
    have hone := drainOne_unlogged e
    unfold drainAllLoop
    split
    next h =>
      rw [h] at hone
      exact hone
    next h =>
      rw [h] at hone
      exact hone.trans (ih _)

/-- The chunks that a call gives its caller to send. -/
def answer (e : ConnectionEngine) : Call → Except Error (List Bytes)
  | .start => e.start.1
  | .receive bytes eof => (e.receive bytes eof).1
  | .openChannel request => (e.openChannel request).1.map Prod.snd
  | .send id payload => (e.send id payload).1
  | .grantCredit id amount => (e.grantCredit id amount).1
  | .acknowledge ranges => (e.acknowledge ranges).1
  | .ping token => (e.ping token).1
  | .resume request => (e.resume request).1
  | .completePlugin completion => (e.completePlugin completion).1.map fun _ => []
  | .advanceTime nowMs => (e.advanceTime nowMs).1
  | .flushOutbound writableBytes => .ok (e.flushOutbound writableBytes).1
  | .loadReplaySnapshot text => (e.loadReplaySnapshot text).1.map fun _ => []
  | .halfClose id direction => (e.halfClose id direction).1
  | .reset id => (e.reset id).1
  | .goaway => e.goaway.1
  | .submitTask _ _ | .cancelTask _ => .ok []
  | .drainOne => e.drainOne.1.map fun _ => []
  | .drainAll => e.drainAll.1.map fun _ => []

/-- Nothing is sent by a call that is only told whether it has succeeded. -/
theorem Unlogged.told {e e' : ConnectionEngine} (h : Unlogged e e') (told : Except Error Unit) :
    Answers e [] [] (told.map fun _ => [], e') := by
  cases told with
  | error error => exact h.fails
  | ok => exact h.succeeds

/-- A call does to the log what its notes say, unless it loads a snapshot. -/
theorem call_answers (e : ConnectionEngine) {c : Call} (hload : ∀ text, c ≠ .loadReplaySnapshot text) :
    Answers e (e.emissions c) (e.callNotes c) (e.answer c, e.call c) := by
  cases c with
  | start => exact start_emits e
  | receive bytes eof =>
    have hdecoded : Unlogged e (e.decoded bytes eof).2 := ⟨rfl, rfl, rfl, rfl, rfl⟩
    obtain ⟨out, hnotes, hout⟩ := receiveLoop_notes (e.decoded bytes eof).1 (e.decoded bytes eof).2 []
    exact hdecoded.then_answers ⟨out, hnotes, hout⟩
  | openChannel request => exact openChannel_emits e request
  | send id payload => exact send_emits e id payload
  | grantCredit id amount => exact emitFrame_emits e _ _ _ _
  | acknowledge ranges => exact acknowledge_emits e ranges
  | ping token => exact emitFrame_emits e _ _ _ _
  | resume request => exact emitFrame_emits e _ _ _ _
  | completePlugin completion => exact (completePlugin_unlogged e completion).told _
  | advanceTime nowMs =>
    have htimers : Unlogged e { e with nowMs, timers := (e.timers.expire nowMs).2 } :=
      ⟨rfl, rfl, rfl, rfl, rfl⟩
    obtain ⟨out, hnotes, hout⟩ := advanceLoop_emits (e.timers.expire nowMs).1
      { e with nowMs, timers := (e.timers.expire nowMs).2 } []
    exact htimers.then_answers ⟨out, hnotes, hout⟩
  | flushOutbound writableBytes => exact ⟨_, .flush writableBytes, fun _ hok => (Except.ok.inj hok).symm⟩
  | loadReplaySnapshot text => exact absurd rfl (hload text)
  | halfClose id direction => exact halfClose_emits e id direction
  | reset id => exact reset_emits e id
  | goaway => exact goaway_emits e
  | submitTask shard result => exact Unlogged.succeeds ⟨rfl, rfl, rfl, rfl, rfl⟩
  | cancelTask id => exact Unlogged.succeeds ⟨rfl, rfl, rfl, rfl, rfl⟩
  | drainOne => exact (drainOne_unlogged e).told _
  | drainAll => exact (drainAllLoop_unlogged _ e).told _

end ConnectionEngine

end LatticeGateway
