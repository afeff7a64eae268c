import LatticeGateway.HandlerEffects

namespace LatticeGateway

open Runs

namespace ConnectionEngine

/-- The engine after an accepted HELLO. -/
def negotiated (e : ConnectionEngine) (caps : CapabilitySet) : ConnectionEngine :=
  let channels := ChannelTable.make caps.maxChannels
    (caps.connectionWindow / caps.maxChannels.toNat) caps.maxMessage
  let e := { e with capabilities := some caps, channels := some channels, state := .active }
  (e.scheduleTimer .idle {} kIdlePingMs).record .negotiated {}

theorem handleHello_cases (e : ConnectionEngine) (frame : Frame) :
    (∃ error, e.handleHello frame = (.error error, e)) ∨
      ∃ peer caps, e.state = .negotiating ∧ decodeHelloPayload frame.payload = .ok peer ∧
        negotiate e.localHello peer = .ok caps ∧
        e.handleHello frame = (.ok [], e.negotiated caps) := by
  unfold handleHello
  split
  next => exact .inl ⟨_, rfl⟩
  next hstate =>
    split
    next => exact .inl ⟨_, rfl⟩
    next peer hpeer =>
      split
      next => exact .inl ⟨_, rfl⟩
      next caps hcaps => exact .inr ⟨peer, caps, not_not.mp hstate, hpeer, hcaps, rfl⟩

/-- A RESUME frame that passes every check of `handle_resume`. -/
def Resumable (e : ConnectionEngine) (frame : Frame) : Prop :=
  frame.channel.isControl = true ∧ ∃ request, decodeResumePayload frame.payload = .ok request ∧
    e.capabilities.map (·.transcriptHash) = some request.transcriptHash ∧
    e.replay.canResume { epoch := request.epoch, firstRequiredSeq := request.firstRequiredSeq } =
      .ok ()

theorem handleResume_cases (e : ConnectionEngine) (frame : Frame) :
    (∃ error, e.handleResume frame = (.error error, e)) ∨
      e.Resumable frame ∧ ∃ out, e.handleResume frame =
        (.ok out, { e with state := .active }.record .resumed {}) := by
  unfold handleResume
  split
  next => exact .inl ⟨_, rfl⟩
  next hcontrol =>
    split
    next => exact .inl ⟨_, rfl⟩
    next request hrequest =>
      split
      next => exact .inl ⟨_, rfl⟩
      next hhash =>
        split
        next => exact .inl ⟨_, rfl⟩
        next hresume =>
          split
          next => exact .inl ⟨_, rfl⟩
          next retained _ =>
            exact .inr ⟨⟨by simpa using hcontrol, request, hrequest, not_not.mp hhash, hresume⟩,
              _, rfl⟩

/-- A step of the engine: one event of `receive`, or any other call. -/
inductive Step (e e' : ConnectionEngine) : Prop
  | silent (h : Silent e e')
  | hello {payload peer caps} (negotiating : e.state = .negotiating)
      (decoded : decodeHelloPayload payload = .ok peer)
      (agreed : negotiate e.localHello peer = .ok caps) (h : Silent (e.negotiated caps) e')
  | delivers (h : Delivers e e')

theorem Step.trans_silent {e e' e'' : ConnectionEngine} (h : Step e e') (h' : Silent e' e'') :
    Step e e'' := by
  cases h with
  | silent h => exact .silent (h.trans h')
  | hello hnegotiating hdecoded hagreed h => exact .hello hnegotiating hdecoded hagreed (h.trans h')
  | delivers h =>
    obtain ⟨t, id, slot, slot', payload, ht, hactive, hfind, hremote, hslot, h⟩ := h
    exact .delivers ⟨t, id, slot, slot', payload, ht, hactive, hfind, hremote, hslot, h.trans h'⟩

theorem Quiet.step {e e' : ConnectionEngine} (h : Quiet e e') : Step e e' := .silent h.toSilent

theorem Step.of_eq {e e' : ConnectionEngine} (hstate : e'.state = e.state)
    (hchannels : e'.channels = e.channels) (hevents : e'.events = e.events) : Step e e' :=
  .silent (.of_eq hstate hchannels hevents)

/-- Before the HELLO exchange is over there are no channels. -/
def Unopened (e : ConnectionEngine) : Prop := e.Early → e.channels = none

theorem Unopened.silent {e e' : ConnectionEngine} (hi : Unopened e) (h : Silent e e') :
    Unopened e' := by
  intro hearly
  have hchannels := h.channels
  rw [hi (h.early hearly)] at hchannels
  generalize e'.channels = channels at hchannels
  cases hchannels
  rfl

theorem Unopened.step {e e' : ConnectionEngine} (hi : Unopened e) (h : Step e e') : Unopened e' := by
  cases h with
  | silent h => exact hi.silent h
  | @hello _ _ capabilities _ _ _ h =>
    have hopen : Unopened (e.negotiated capabilities) := by
      rintro (hstate | hstate) <;> cases hstate
    exact hopen.silent h
  | delivers h =>
    obtain ⟨t, id, slot, slot', payload, _, hactive, _, _, _, h⟩ := h
    have hopen : Unopened (e.delivered t id slot slot' payload) := by
      intro hearly
      have hearly : e.Early := hearly
      rw [Early, hactive] at hearly
      rcases hearly with hstate | hstate <;> cases hstate
    exact hopen.silent h

/-- Leaving the early states, or moving between later ones, is silent. -/
theorem Silent.moved (e : ConnectionEngine) {state : ConnectionState} (hcreated : state ≠ .created)
    (hnegotiating : state ≠ .negotiating) : Silent e { e with state } := by
  refine ⟨?_, rel_refl _, [], by simp, by simp⟩
  rintro (h | h)
  · exact absurd h hcreated
  · exact absurd h hnegotiating

theorem handleGoaway_silent (e : ConnectionEngine) (frame : Frame) :
    Silent e (e.handleGoaway frame).2 := by
  have hmoved : Silent e { e with state := .draining } := .moved e (by decide) (by decide)
  have htimer : Quiet { e with state := .draining }
      ({ e with state := .draining }.scheduleTimer .drain {} kDrainTimeoutMs) := .of_eq rfl rfl rfl rfl
  exact hmoved.trans (htimer.trans (.record _ (by decide) _ _ _)).toSilent

theorem handleFrame_step (e : ConnectionEngine) (frame : Frame) : Step e (e.handleFrame frame).2 := by
  unfold handleFrame
  cases frame.type with
  | hello =>
    dsimp only
    rcases handleHello_cases e frame with ⟨error, h⟩ | ⟨peer, caps, hstate, hpeer, hcaps, h⟩
    · rw [h]
      exact (Quiet.refl e).step
    · rw [h]
      exact .hello hstate hpeer hcaps (.refl _)
  | «open» => exact (handleOpen_quiet e frame).step
  | data =>
    rcases handleData_effect e frame with h | ⟨h, _, _⟩
    · exact h.step
    · exact .delivers h
  | ack => exact (handleAck_quiet e frame).step
  | credit => exact (handleCredit_quiet e frame).step
  | ping => exact (handlePing_quiet e frame).step
  | pong => exact (handlePong_quiet e frame).step
  | resume =>
    dsimp only
    rcases handleResume_cases e frame with ⟨error, h⟩ | ⟨_, out, h⟩
    · rw [h]
      exact (Quiet.refl e).step
    · rw [h]
      have hmoved : Silent e { e with state := .active } := .moved e (by decide) (by decide)
      exact .silent (hmoved.trans (Quiet.record _ (by decide) _ _ _).toSilent)
  | halfClose => exact (handleHalfClose_quiet e frame).step
  | reset => exact (handleReset_quiet e frame).step
  | goaway => exact .silent (handleGoaway_silent e frame)

theorem handleEvent_step (e : ConnectionEngine) (event : DecodeEvent) :
    Step e (e.handleEvent event).2 := by
  cases event with
  | needMore => exact (Quiet.refl e).step
  | error error =>
    exact .silent ((Quiet.diagnostic e error).toSilent.trans (.moved _ (by decide) (by decide)))
  | frame frame =>
    have hstep := handleFrame_step e frame
    unfold handleEvent
    dsimp only
    split
    next error e' h =>
      rw [h] at hstep
      have hdiagnostic := (Quiet.diagnostic e' error).toSilent
      dsimp only
      split
      next => exact hstep.trans_silent (hdiagnostic.trans (.moved _ (by decide) (by decide)))
      next => exact hstep.trans_silent hdiagnostic
    next h =>
      rw [h] at hstep
      exact hstep

theorem handleTimer_silent (e : ConnectionEngine) (timer : TimerEvent) :
    Silent e (e.handleTimer timer).2 := by
  unfold handleTimer
  cases timer.kind with
  | handshake =>
    dsimp only
    split
    next => exact (Quiet.diagnostic e _).toSilent.trans (.moved _ (by decide) (by decide))
    next => exact .refl e
  | retry =>
    dsimp only
    split <;> exact .of_eq rfl rfl rfl
  | idle =>
    dsimp only
    generalize (if e.nowMs = 0 then (1 : UInt64) else e.nowMs) = token
    have htoken : Quiet e { e with pendingPongToken := some token } := .of_eq rfl rfl rfl rfl
    have hping : Quiet { e with pendingPongToken := some token }
        ({ e with pendingPongToken := some token }.ping token).2 := emitFrame_quiet _ _ _ _ _
    split
    next h =>
      rw [h] at hping
      exact (htoken.trans hping).toSilent
    next e' h =>
      rw [h] at hping
      have htimers : Quiet e' ((e'.scheduleTimer .pongDeadline {} kPongTimeoutMs).scheduleTimer .idle
          {} kIdlePingMs) := .of_eq rfl rfl rfl rfl
      exact ((htoken.trans hping).trans htimers).toSilent
  | pongDeadline =>
    dsimp only
    split
    next =>
      have hclosed := (Quiet.diagnostic e (makeError .connection .timeout .closeConnection
        "PONG timeout")).toSilent.trans (.moved _ (show ConnectionState.closed ≠ .created by decide)
          (by decide))
      exact hclosed.trans (Quiet.record _ (by decide) _ _ _).toSilent
    next => exact .refl e
  | drain =>
    dsimp only
    split
    next =>
      have hclosed : Silent e { e with state := .closed } := .moved e (by decide) (by decide)
      exact hclosed.trans (Quiet.record _ (by decide) _ _ _).toSilent
    next => exact .refl e
  | fragmentGap =>
    dsimp only
    split
    next => exact .refl e
    next t ht =>
      have htable := Quiet.table ht (reset_ops t timer.channel)
      exact (htable.trans (.record _ (by decide) _ _ _)).toSilent

theorem advanceLoop_silent (timers : List TimerEvent) (e : ConnectionEngine) (out : List Bytes) :
    Silent e (advanceLoop timers e out).2 := by
  induction timers generalizing e out with
  | nil => exact .refl e
  | cons timer timers ih =>
    have hrecord : Silent e (e.record .timerExpired timer.channel) :=
      (Quiet.record e (by decide) _ _ _).toSilent
    unfold advanceLoop
    dsimp only
    split
    next => exact hrecord.trans (ih _ _)
    next =>
      have htimer := handleTimer_silent (e.record .timerExpired timer.channel) timer
      split
      next h =>
        rw [h] at htimer
        exact hrecord.trans htimer
      next h =>
        rw [h] at htimer
        exact (hrecord.trans htimer).trans (ih _ _)

theorem start_silent (e : ConnectionEngine) : Silent e e.start.2 := by
  unfold start
  split
  next => exact .refl e
  next hcreated =>
    split
    next => exact .refl e
    next =>
      have hearly : Silent e ({ e with state := .negotiating }.scheduleTimer .handshake {}
          kHandshakeTimeoutMs) :=
        ⟨fun _ => .inl (not_not.mp hcreated), rel_refl _, [], by simp [scheduleTimer], by simp⟩
      exact hearly.trans (emitFrame_quiet _ _ _ _ _).toSilent

theorem goaway_silent (e : ConnectionEngine) : Silent e e.goaway.2 := by
  unfold goaway
  have hmoved : Silent e { e with state := .draining } := .moved e (by decide) (by decide)
  have htimer : Quiet { e with state := .draining }
      ({ e with state := .draining }.scheduleTimer .drain {} kDrainTimeoutMs) := .of_eq rfl rfl rfl rfl
  exact hmoved.trans (htimer.trans (emitFrame_quiet _ _ _ _ _)).toSilent

/-- `receive` between its `feed` and its loop: the events, and the engine that handles them. -/
def decoded (e : ConnectionEngine) (bytes : Bytes) (eof : Bool) : List DecodeEvent × ConnectionEngine :=
  ((e.codec.feed bytes eof).1, { e with codec := (e.codec.feed bytes eof).2 })

theorem receive_eq (e : ConnectionEngine) (bytes : Bytes) (eof : Bool) :
    e.receive bytes eof = receiveLoop (e.decoded bytes eof).1 (e.decoded bytes eof).2 [] := rfl

/-- The engines that the loop of `receive` passes through, one for each event it handles. -/
def receiveStates : List DecodeEvent → ConnectionEngine → List ConnectionEngine
  | [], _ => []
  | event :: events, e =>
    match e.handleEvent event with
    | (.error _, e') => [e']
    | (.ok _, e') => e' :: receiveStates events e'

/-- The frames that `receive` goes on to handle, each with the engine that it meets. -/
def handled : List DecodeEvent → ConnectionEngine → List (ConnectionEngine × Frame)
  | [], _ => []
  | event :: events, e =>
    (match event with
      | .frame frame => [(e, frame)]
      | _ => []) ++
    match e.handleEvent event with
    | (.error _, _) => []
    | (.ok _, e') => handled events e'

/-- The engines a call passes through: for `receive` one for each event, else only the last. -/
def callStates (e : ConnectionEngine) : Call → List ConnectionEngine
  | .receive bytes eof =>
    (e.decoded bytes eof).2 :: receiveStates (e.decoded bytes eof).1 (e.decoded bytes eof).2
  | other => [e.call other]

/-- Every engine that a run passes through after its first one. -/
def visited (e : ConnectionEngine) : List Call → List ConnectionEngine
  | [] => []
  | c :: calls => e.callStates c ++ visited (e.call c) calls

theorem receiveStates_steps (events : List DecodeEvent) (e : ConnectionEngine) (out : List Bytes) :
    List.IsChain Step (e :: receiveStates events e) ∧
      (e :: receiveStates events e).getLast? = some (receiveLoop events e out).2 := by
  induction events generalizing e out with
  | nil => exact ⟨.singleton _, rfl⟩
  | cons event events ih =>
    have hstep := handleEvent_step e event
    unfold receiveStates receiveLoop
    rcases h : e.handleEvent event with ⟨_ | produced, e'⟩
    · rw [h] at hstep
      exact ⟨.cons_cons hstep (.singleton _), rfl⟩
    · rw [h] at hstep
      obtain ⟨hchain, hlast⟩ := ih e' (out ++ produced)
      exact ⟨.cons_cons hstep hchain, by rw [List.getLast?_cons_cons]; exact hlast⟩

/-- What every step keeps holds of each engine that meets a frame. -/
theorem handled_invariant {I : ConnectionEngine → Prop} (hstep : ∀ e e', I e → Step e e' → I e')
    (events : List DecodeEvent) {e : ConnectionEngine} (he : I e) : ∀ p ∈ handled events e, I p.1 := by
  induction events generalizing e with
  | nil => simp [handled]
  | cons event events ih =>
    have hnext := hstep e _ he (handleEvent_step e event)
    intro p hp
    unfold handled at hp
    rcases List.mem_append.mp hp with hp | hp
    · cases event with
      | needMore => cases hp
      | error error => cases hp
      | frame frame =>
        rw [List.mem_singleton.mp hp]
        exact he
    · split at hp
      next => cases hp
      next e' h =>
        rw [h] at hnext
        exact ih hnext p hp

theorem callStates_steps (e : ConnectionEngine) (c : Call) :
    List.IsChain Step (e :: e.callStates c) ∧
      (e :: e.callStates c).getLast? = some (e.call c) := by
  have hsingle : Step e (e.call c) → List.IsChain Step [e, e.call c] ∧
      [e, e.call c].getLast? = some (e.call c) := fun h => ⟨.cons_cons h (.singleton _), rfl⟩
  cases c with
  | receive bytes eof =>
    have hdecoded : Step e (e.decoded bytes eof).2 := .of_eq rfl rfl rfl
    obtain ⟨hchain, hlast⟩ :=
      receiveStates_steps (e.decoded bytes eof).1 (e.decoded bytes eof).2 []
    exact ⟨.cons_cons hdecoded hchain, hlast⟩
  | start => exact hsingle (.silent (start_silent e))
  | openChannel request => exact hsingle (openChannel_quiet e request).step
  | send id payload => exact hsingle (send_quiet e id payload).step
  | grantCredit id amount => exact hsingle (emitFrame_quiet e _ _ _ _).step
  | acknowledge ranges => exact hsingle (acknowledge_quiet e ranges).step
  | ping token => exact hsingle (emitFrame_quiet e _ _ _ _).step
  | resume request => exact hsingle (emitFrame_quiet e _ _ _ _).step
  | completePlugin completion => exact hsingle (completePlugin_quiet e completion).step
  | advanceTime nowMs =>
    have htimers : Quiet e { e with nowMs, timers := (e.timers.expire nowMs).2 } :=
      .of_eq rfl rfl rfl rfl
    exact hsingle (.silent (htimers.toSilent.trans (advanceLoop_silent _ _ _)))
  | flushOutbound writableBytes => exact hsingle (.of_eq rfl rfl rfl)
  | loadReplaySnapshot text => exact hsingle (loadReplaySnapshot_quiet e text).step
  | halfClose id direction => exact hsingle (halfClose_quiet e id direction).step
  | reset id => exact hsingle (reset_quiet e id).step
  | goaway => exact hsingle (.silent (goaway_silent e))
  | submitTask shard result => exact hsingle (.of_eq rfl rfl rfl)
  | cancelTask id => exact hsingle (.of_eq rfl rfl rfl)
  | drainOne => exact hsingle (drainOne_quiet e).step
  | drainAll => exact hsingle (drainAllLoop_quiet _ e).step

/-- A run is a chain of steps that ends where the calls lead. -/
theorem visited_steps (e : ConnectionEngine) (calls : List Call) :
    List.IsChain Step (e :: e.visited calls) ∧
      (e :: e.visited calls).getLast? = some (run call e calls) := by
  induction calls generalizing e with
  | nil => exact ⟨.singleton _, rfl⟩
  | cons c calls ih =>
    obtain ⟨hchain, hlast⟩ := callStates_steps e c
    obtain ⟨hchain', hlast'⟩ := ih (e.call c)
    obtain ⟨hjoin, hend⟩ := isChain_join hchain hlast hchain'
    exact ⟨hjoin, hend.trans hlast'⟩

end ConnectionEngine

end LatticeGateway
