import LatticeGateway.ClosedAbsorbing
import LatticeGateway.NegotiatedPlugins
import LatticeGateway.PongDeadline

namespace LatticeGateway

open Runs

namespace ConnectionEngine

section

variable (e : ConnectionEngine)

theorem emitFrame_nowMs (type : FrameType) (channel : ChannelId) (payload : Bytes)
    (extensions : List Extension) : (e.emitFrame type channel payload extensions).2.nowMs = e.nowMs :=
  (emitFrame_sent e type channel payload extensions).nowMs

theorem openChannel_nowMs (request : OpenRequest) : (e.openChannel request).2.nowMs = e.nowMs := by
  unfold openChannel
  dsimp only
  split
  next t capabilities _ _ =>
    split
    next => rfl
    next =>
      split
      next => rfl
      next =>
        split
        next => rfl
        next id t' _ =>
          split
          next => rfl
          next t'' _ =>
            have hemit := emitFrame_nowMs { e with channels := some t'' } .open id
              (u32Bytes request.familyId ++ u32Bytes (UInt32.ofNat request.initialWindow)) []
            split
            next h => rw [h] at hemit; exact hemit
            next h => rw [h] at hemit; exact hemit
  next => rfl

theorem send_nowMs (id : ChannelId) (payload : Bytes) : (e.send id payload).2.nowMs = e.nowMs := by
  rcases send_cases e id payload with
    ⟨error, h⟩ | ⟨capabilities, t, slot, flow, _, ⟨_, error, h⟩ | ⟨_, h⟩⟩
  · rw [h]
  · rw [h]
  · rw [h]
    exact (sendLoop_sent _ _ _ _ _ _).nowMs

theorem acknowledge_nowMs (ranges : List AckRange) : (e.acknowledge ranges).2.nowMs = e.nowMs := by
  unfold acknowledge
  split
  next => rfl
  next => exact emitFrame_nowMs _ _ _ _ _

theorem completePlugin_nowMs (completion : PluginCompletion) :
    (e.completePlugin completion).2.nowMs = e.nowMs := by
  unfold completePlugin
  repeat' split
  all_goals rfl

theorem loadReplaySnapshot_nowMs (text : Bytes) : (e.loadReplaySnapshot text).2.nowMs = e.nowMs := by
  unfold loadReplaySnapshot
  repeat' split
  all_goals rfl

theorem halfClose_nowMs (id : ChannelId) (direction : Direction) :
    (e.halfClose id direction).2.nowMs = e.nowMs := by
  unfold halfClose
  repeat' split
  all_goals first | rfl | exact (emit_sent _ _).nowMs

theorem reset_nowMs (id : ChannelId) : (e.reset id).2.nowMs = e.nowMs := by
  unfold reset
  split
  next => rfl
  next =>
    split
    next => rfl
    next t' _ =>
      have hsent := emit_sent ({ e with channels := some t', nextFrameSeq := e.nextFrameSeq + 1 }.record
        .channelReset id) (e.makeFrame .reset id []).1
      exact hsent.nowMs

theorem drainOne_nowMs : e.drainOne.2.nowMs = e.nowMs := by
  unfold drainOne
  split
  next => rfl
  next executor _ =>
    split
    next => rfl
    next task executor' _ =>
      cases task with
      | foreign => rfl
      | dispatch lease message completion =>
        unfold runTask
        dsimp only
        split
        next => rfl
        next => exact completePlugin_nowMs _ _

theorem drainAllLoop_nowMs (fuel : Nat) : (drainAllLoop fuel e).2.nowMs = e.nowMs := by
  induction fuel generalizing e with
  | zero => rfl
  | succ fuel ih =>
    have hone := drainOne_nowMs e
    unfold drainAllLoop
    split
    next h => rw [h] at hone; exact hone
    next h => rw [h] at hone; exact (ih _).trans hone

theorem handleData_nowMs (frame : Frame) : (e.handleData frame).2.nowMs = e.nowMs := by
  unfold handleData
  repeat' split
  all_goals try rfl
  dsimp only
  repeat' split
  all_goals try rfl
  obtain ⟨_, _, _, hmoves, _⟩ := dispatch_moves _ _ _ _
  rw [hmoves]
  rfl

theorem handleFrame_nowMs (frame : Frame) : (e.handleFrame frame).2.nowMs = e.nowMs := by
  unfold handleFrame
  cases frame.type with
  | hello =>
    rcases handleHello_cases e frame with ⟨error, h⟩ | ⟨_, _, _, _, _, h⟩
    all_goals
      dsimp only
      rw [h]
    rfl
  | resume =>
    rcases handleResume_cases e frame with ⟨error, h⟩ | ⟨_, _, h⟩
    all_goals
      dsimp only
      rw [h]
    rfl
  | data => exact handleData_nowMs e frame
  | ping =>
    dsimp only
    unfold handlePing
    repeat' split
    all_goals first | rfl | exact emitFrame_nowMs _ _ _ _ _
  | «open» =>
    dsimp only
    unfold handleOpen
    dsimp only
    repeat' split
    all_goals rfl
  | credit =>
    dsimp only
    unfold handleCredit
    dsimp only
    repeat' split
    all_goals rfl
  | ack =>
    dsimp only
    unfold handleAck
    repeat' split
    all_goals rfl
  | pong =>
    dsimp only
    unfold handlePong
    repeat' split
    all_goals rfl
  | halfClose =>
    dsimp only
    unfold handleHalfClose
    dsimp only
    repeat' split
    all_goals rfl
  | reset => rfl
  | goaway => rfl

end

/-- The states that a timer ends, its kind and how long after their beginning it is due. -/
inductive Deadline : ConnectionState → TimerKind → UInt64 → Prop
  | handshake : Deadline .negotiating .handshake kHandshakeTimeoutMs
  | drain : Deadline .draining .drain kDrainTimeoutMs

/-- A timer of the kind is due at that time or before. -/
def DueBy (kind : TimerKind) (time : Nat) (timers : List TimerEvent) : Prop :=
  ∃ t ∈ timers, t.kind = kind ∧ t.dueMs.toNat ≤ time

theorem DueBy.mono {kind : TimerKind} {time later : Nat} {timers more : List TimerEvent}
    (h : DueBy kind time timers) (htime : time ≤ later) (hsub : timers ⊆ more) :
    DueBy kind later more := by
  obtain ⟨t, ht, hkind, hdue⟩ := h
  exact ⟨t, hsub ht, hkind, hdue.trans htime⟩

/-- What a step that hands no timer over does to the clockwork: no timer is lost, a state with a deadline
begins with its timer and so does the keepalive, and there is no retry timer, nor an idle one before. -/
structure Wound (e e' : ConnectionEngine) : Prop where
  nowMs : e'.nowMs = e.nowMs
  early : e'.Early → e.Early
  ordered : e.timers.Ordered → e'.timers.Ordered
  kept : e.timers.timers ⊆ e'.timers.timers
  kinds : ∀ t ∈ e'.timers.timers, t ∈ e.timers.timers ∨ t.kind ≠ .retry ∧ (e'.Early → t.kind ≠ .idle)
  begun : ∀ {s kind limit}, Deadline s kind limit → e'.state = s →
    e.state = s ∨ DueBy kind (e.nowMs.toNat + limit.toNat) e'.timers.timers
  greeted : e'.capabilities = e.capabilities ∨
    DueBy .idle (e.nowMs.toNat + kIdlePingMs.toNat) e'.timers.timers

section

variable {e e' e'' : ConnectionEngine}

theorem Wound.trans (h : Wound e e') (h' : Wound e' e'') : Wound e e'' where
  nowMs := h'.nowMs.trans h.nowMs
  early := h.early ∘ h'.early
  ordered := h'.ordered ∘ h.ordered
  kept := fun _ ht => h'.kept (h.kept ht)
  kinds t ht := by
    rcases h'.kinds t ht with hmid | hnew
    · exact (h.kinds t hmid).imp_right fun ⟨hretry, hidle⟩ => ⟨hretry, hidle ∘ h'.early⟩
    · exact .inr hnew
  begun := by
    intro s kind limit hs hend
    rcases h'.begun hs hend with hmid | hdue
    · exact (h.begun hs hmid).imp_right fun hdue => hdue.mono (Nat.le_refl _) h'.kept
    · rw [h.nowMs] at hdue
      exact .inr hdue
  greeted := by
    rcases h'.greeted with hmid | hdue
    · rw [hmid]
      exact h.greeted.imp_right fun hdue => hdue.mono (Nat.le_refl _) h'.kept
    · rw [h.nowMs] at hdue
      exact .inr hdue

theorem late_of_state {s : ConnectionState} (h : e.state = s) (hs : s ≠ .created ∧ s ≠ .negotiating) :
    ¬ e.Early := by
  unfold Early
  rw [h]
  exact not_or.mpr hs

theorem begins_nothing (h : e'.state = e.state ∨ e'.state = .active ∨ e'.state = .closed) :
    (e'.Early → e.Early) ∧
      ∀ {s kind limit}, Deadline s kind limit → e'.state = s → e.state = s := by
  rcases h with h | h | h
  · exact ⟨fun hearly => by rwa [Early, h] at hearly, fun _ hend => h.symm.trans hend⟩
  · refine ⟨fun hearly => absurd hearly (late_of_state h (by decide)), fun hs hend => ?_⟩
    rw [← hend, h] at hs
    cases hs
  · refine ⟨fun hearly => absurd hearly (late_of_state h (by decide)), fun hs hend => ?_⟩
    rw [← hend, h] at hs
    cases hs

theorem Wound.unscheduled (hstate : e'.state = e.state ∨ e'.state = .active ∨ e'.state = .closed)
    (htimers : e'.timers = e.timers) (hclock : e'.nowMs = e.nowMs)
    (hcapabilities : e'.capabilities = e.capabilities) : Wound e e' where
  nowMs := hclock
  early := (begins_nothing hstate).1
  ordered := by
    rw [htimers]
    exact id
  kept := by
    rw [htimers]
    exact List.Subset.refl _
  kinds t ht := .inl (htimers ▸ ht)
  begun hs hend := .inl ((begins_nothing hstate).2 hs hend)
  greeted := .inl hcapabilities

theorem Wound.still (hstate : e'.state = e.state) (htimers : e'.timers = e.timers)
    (hclock : e'.nowMs = e.nowMs) (hcapabilities : e'.capabilities = e.capabilities) : Wound e e' :=
  .unscheduled (.inl hstate) htimers hclock hcapabilities

theorem Wound.closed (hstate : e'.state = .closed) (htimers : e'.timers = e.timers)
    (hclock : e'.nowMs = e.nowMs) (hcapabilities : e'.capabilities = e.capabilities) : Wound e e' :=
  .unscheduled (.inr (.inr hstate)) htimers hclock hcapabilities

theorem schedule_dueBy {wheel : TimerWheel} (kind : TimerKind) (channel : ChannelId)
    (nowMs limit : UInt64) :
    DueBy kind (nowMs.toNat + limit.toNat) (wheel.schedule kind channel (nowMs + limit)).2.timers := by
  refine ⟨{ id := wheel.nextId, kind, channel, dueMs := nowMs + limit }, ?_, rfl, ?_⟩
  · rw [(wheel.schedule_perm kind channel (nowMs + limit)).mem_iff]
    exact List.mem_append_right _ (List.mem_singleton.mpr rfl)
  · -- the clock may wrap, which only makes the timer due sooner
    rw [UInt64.toNat_add]
    exact Nat.mod_le _ _

theorem schedule_kept {wheel : TimerWheel} (kind : TimerKind) (channel : ChannelId) (dueMs : UInt64) :
    wheel.timers ⊆ (wheel.schedule kind channel dueMs).2.timers := by
  intro t ht
  rw [(wheel.schedule_perm kind channel dueMs).mem_iff]
  exact List.mem_append_left _ ht

theorem Wound.scheduled {kind : TimerKind} {channel : ChannelId} {dueMs : UInt64}
    (hkind : kind ≠ .retry ∧ (e'.Early → kind ≠ .idle))
    (htimers : e'.timers = (e.timers.schedule kind channel dueMs).2) (hclock : e'.nowMs = e.nowMs)
    (hearly : e'.Early → e.Early)
    (hbegun : ∀ {s kind limit}, Deadline s kind limit → e'.state = s →
      e.state = s ∨ DueBy kind (e.nowMs.toNat + limit.toNat) e'.timers.timers)
    (hgreeted : e'.capabilities = e.capabilities ∨
      DueBy .idle (e.nowMs.toNat + kIdlePingMs.toNat) e'.timers.timers) : Wound e e' := by
  refine ⟨hclock, hearly, fun _ => ?_, ?_, fun t ht => ?_, hbegun, hgreeted⟩
  · rw [htimers]
    exact TimerWheel.schedule_ordered _ _ _ _
  · rw [htimers]
    exact schedule_kept _ _ _
  · rw [htimers] at ht
    refine (TimerWheel.mem_schedule ht).imp_right fun hnew => ?_
    rw [hnew]
    exact hkind

/-- A timer of a state that goes on, or of an active one. -/
theorem Wound.added {kind : TimerKind} {channel : ChannelId} {dueMs : UInt64}
    (hkind : kind ≠ .retry ∧ (e'.Early → kind ≠ .idle))
    (htimers : e'.timers = (e.timers.schedule kind channel dueMs).2) (hclock : e'.nowMs = e.nowMs)
    (hcapabilities : e'.capabilities = e.capabilities)
    (hstate : e'.state = e.state ∨ e'.state = .active) : Wound e e' := by
  obtain ⟨hearly, hbegun⟩ := begins_nothing (hstate.imp_right .inl)
  exact .scheduled hkind htimers hclock hearly (fun hs hend => .inl (hbegun hs hend)) (.inl hcapabilities)

theorem Unclocked.wound (h : Unclocked e e') (hclock : e'.nowMs = e.nowMs)
    (hcapabilities : e'.capabilities = e.capabilities) : Wound e e' :=
  .still h.state h.timers hclock hcapabilities

theorem SentFrom.wound (h : SentFrom e e') : Wound e e' :=
  h.unclocked.wound h.nowMs h.steady.capabilities

theorem start_wound (e : ConnectionEngine) : Wound e e.start.2 := by
  unfold start
  split
  next => exact .still rfl rfl rfl rfl
  next hcreated =>
    split
    next => exact .still rfl rfl rfl rfl
    next payload _ =>
      have hbegin : Wound e ({ e with state := .negotiating }.scheduleTimer .handshake {}
          kHandshakeTimeoutMs) := by
        refine .scheduled ⟨by decide, fun _ => by decide⟩ rfl rfl
          (fun _ => .inl (not_not.mp hcreated)) (fun hs hend => .inr ?_) (.inl rfl)
        rw [← hend] at hs
        cases hs
        exact schedule_dueBy _ _ _ _
      exact hbegin.trans (emitFrame_sent _ _ _ _ _).wound

/-- The begin of draining, on either side of a GOAWAY. -/
theorem draining_wound (e : ConnectionEngine) :
    Wound e ({ e with state := .draining }.scheduleTimer .drain {} kDrainTimeoutMs) := by
  refine .scheduled ⟨by decide, fun _ => by decide⟩ rfl rfl
    (fun hearly => absurd hearly (late_of_state (s := .draining) rfl (by decide)))
    (fun hs hend => .inr ?_) (.inl rfl)
  rw [← hend] at hs
  cases hs
  exact schedule_dueBy _ _ _ _

theorem goaway_wound (e : ConnectionEngine) : Wound e e.goaway.2 :=
  (draining_wound e).trans (emitFrame_sent _ _ _ _ _).wound

/-- The begin of the keepalive. -/
theorem negotiated_wound (e : ConnectionEngine) (caps : CapabilitySet) : Wound e (e.negotiated caps) := by
  have hlate : ¬ (e.negotiated caps).Early := late_of_state (s := .active) rfl (by decide)
  refine .scheduled ⟨by decide, fun hearly => absurd hearly hlate⟩ rfl rfl
    (fun hearly => absurd hearly hlate) (fun hs hend => ?_) (.inr (schedule_dueBy _ _ _ _))
  rw [← hend] at hs
  cases hs

/-- A frame that is no GOAWAY begins no state with a deadline. -/
theorem handleFrame_state (e : ConnectionEngine) {frame : Frame} (hgoaway : frame.type ≠ .goaway) :
    (e.handleFrame frame).2.state = e.state ∨ (e.handleFrame frame).2.state = .active := by
  unfold handleFrame
  cases htype : frame.type with
  | goaway => exact absurd htype hgoaway
  | hello =>
    dsimp only
    rcases handleHello_cases e frame with ⟨error, h⟩ | ⟨peer, caps, _, _, _, h⟩
    · rw [h]
      exact .inl rfl
    · rw [h]
      exact .inr rfl
  | resume =>
    dsimp only
    rcases handleResume_cases e frame with ⟨error, h⟩ | ⟨_, out, h⟩
    · rw [h]
      exact .inl rfl
    · rw [h]
      exact .inr rfl
  | data =>
    rcases handleData_effect e frame with h | ⟨-, hstate, -⟩
    · exact .inl h.state
    · exact .inl hstate
  | «open» => exact .inl (handleOpen_quiet e frame).state
  | ack => exact .inl (handleAck_quiet e frame).state
  | credit => exact .inl (handleCredit_quiet e frame).state
  | ping => exact .inl (handlePing_quiet e frame).state
  | pong => exact .inl (handlePong_quiet e frame).state
  | halfClose => exact .inl (handleHalfClose_quiet e frame).state
  | reset => exact .inl (handleReset_quiet e frame).state

theorem handleFrame_wound (e : ConnectionEngine) (frame : Frame) : Wound e (e.handleFrame frame).2 := by
  by_cases hgoaway : frame.type = .goaway
  · unfold handleFrame
    rw [hgoaway]
    exact (draining_wound e).trans (.still rfl rfl rfl rfl)
  by_cases hhello : frame.type = .hello
  · unfold handleFrame
    rw [hhello]
    dsimp only
    rcases handleHello_cases e frame with ⟨error, h⟩ | ⟨_, caps, _, _, _, h⟩
    · rw [h]
      exact .still rfl rfl rfl rfl
    · rw [h]
      exact negotiated_wound e caps
  · have hclock := handleFrame_nowMs e frame
    have hstate := handleFrame_state e hgoaway
    have hcapabilities : (e.handleFrame frame).2.capabilities = e.capabilities := by
      by_cases hdata : frame.type = .data
      · unfold handleFrame
        rw [hdata]
        exact (handleData_calm e frame).capabilities
      · exact (handleFrame_steady e hhello hdata).capabilities
    cases (handleFrame_clock e hgoaway).1 with
    | still hsame htimers => exact .still hsame htimers hclock hcapabilities
    | started dueMs _ _ htimers =>
      exact .added ⟨by decide, fun _ => by decide⟩ htimers hclock hcapabilities hstate
    | greeted dueMs _ hactive htimers =>
      exact .added ⟨by decide, fun hearly => absurd hearly (late_of_state hactive (by decide))⟩ htimers
        hclock hcapabilities hstate
    | gap id dueMs _ htimers =>
      exact .added ⟨by decide, fun _ => by decide⟩ htimers hclock hcapabilities hstate
    | resumed _ htimers => exact .unscheduled (hstate.imp_right .inl) htimers hclock hcapabilities

theorem handleEvent_wound (e : ConnectionEngine) (event : DecodeEvent) :
    Wound e (e.handleEvent event).2 := by
  unfold handleEvent
  cases event with
  | needMore => exact .still rfl rfl rfl rfl
  | error error => exact .closed rfl rfl rfl rfl
  | frame frame =>
    have hframe := handleFrame_wound e frame
    dsimp only
    rcases h : e.handleFrame frame with ⟨error | produced, e'⟩
    · rw [h] at hframe
      refine hframe.trans ?_
      dsimp only
      split
      · exact .closed rfl rfl rfl rfl
      · exact .still rfl rfl rfl rfl
    · rw [h] at hframe
      exact hframe

theorem receiveLoop_wound (events : List DecodeEvent) (e : ConnectionEngine) (out : List Bytes) :
    Wound e (receiveLoop events e out).2 := by
  induction events generalizing e out with
  | nil => exact .still rfl rfl rfl rfl
  | cons event events ih =>
    have hevent := handleEvent_wound e event
    unfold receiveLoop
    rcases h : e.handleEvent event with ⟨error | produced, e'⟩
    · rw [h] at hevent
      exact hevent
    · rw [h] at hevent
      exact hevent.trans (ih _ _)

theorem call_wound (e : ConnectionEngine) {c : Call} (hadvance : ∀ nowMs, c ≠ .advanceTime nowMs) :
    Wound e (e.call c) := by
  cases c with
  | advanceTime nowMs => exact absurd rfl (hadvance nowMs)
  | start => exact start_wound e
  | receive bytes eof =>
    have hfeed : Wound e { e with codec := (e.codec.feed bytes eof).2 } := .still rfl rfl rfl rfl
    exact hfeed.trans (receiveLoop_wound _ _ _)
  | goaway => exact goaway_wound e
  | openChannel request =>
    exact (openChannel_unclocked e request).wound (openChannel_nowMs e request)
      (openChannel_steady e request).capabilities
  | send id payload =>
    exact (send_unclocked e id payload).wound (send_nowMs e id payload)
      (send_steady e id payload).capabilities
  | grantCredit id amount => exact (emitFrame_sent e _ _ _ _).wound
  | acknowledge ranges =>
    exact (acknowledge_unclocked e ranges).wound (acknowledge_nowMs e ranges)
      (acknowledge_steady e ranges).capabilities
  | ping token => exact (emitFrame_sent e _ _ _ _).wound
  | resume request => exact (emitFrame_sent e _ _ _ _).wound
  | completePlugin completion =>
    exact (completePlugin_unclocked e completion).wound (completePlugin_nowMs e completion)
      (completePlugin_steady e completion).capabilities
  | loadReplaySnapshot text =>
    exact (loadReplaySnapshot_unclocked e text).wound (loadReplaySnapshot_nowMs e text)
      (loadReplaySnapshot_steady e text).capabilities
  | halfClose id direction =>
    exact (halfClose_unclocked e id direction).wound (halfClose_nowMs e id direction)
      (halfClose_steady e id direction).capabilities
  | reset id => exact (reset_unclocked e id).wound (reset_nowMs e id) (reset_steady e id).capabilities
  | drainOne =>
    obtain ⟨-, hcapabilities, -⟩ := drainOne_queues e
    exact (drainOne_unclocked e).wound (drainOne_nowMs e) hcapabilities
  | drainAll =>
    obtain ⟨-, hcapabilities, -⟩ := drainAllLoop_queues (e.executor.elim 0 (·.queue.length)) e
    exact (drainAllLoop_unclocked e _).wound (drainAllLoop_nowMs e _) hcapabilities
  | flushOutbound writableBytes => exact .still rfl rfl rfl rfl
  | submitTask shard result => exact .still rfl rfl rfl rfl
  | cancelTask id => exact .still rfl rfl rfl rfl

/-- What one of the timers that come due does to the clockwork. -/
theorem handleTimer_wound {timer : TimerEvent} (hretry : timer.kind ≠ .retry)
    (hidle : timer.kind = .idle → ¬ e.Early) : Wound e (e.handleTimer timer).2 := by
  unfold handleTimer
  cases hkind : timer.kind with
  | retry => exact absurd hkind hretry
  | idle =>
    have hpending : Wound e { e with pendingPongToken := some (idleToken e.nowMs) } :=
      .still rfl rfl rfl rfl
    have hsent := hpending.trans (emitFrame_sent _ .ping {} (u64Bytes (idleToken e.nowMs)) []).wound
    unfold idleToken at hsent
    unfold ping
    dsimp only
    split
    next h =>
      rw [h] at hsent
      exact hsent
    next bytes e' h =>
      rw [h] at hsent
      have hdeadline : Wound e (e'.scheduleTimer .pongDeadline {} kPongTimeoutMs) :=
        hsent.trans (.added ⟨by decide, fun _ => by decide⟩ rfl rfl rfl (.inl rfl))
      refine hdeadline.trans (.added ⟨by decide, fun hearly => ?_⟩ rfl rfl rfl (.inl rfl))
      exact absurd (hdeadline.early hearly) (hidle hkind)
  | handshake | drain | pongDeadline | fragmentGap =>
    dsimp only
    split
    all_goals first
      | exact .closed rfl rfl rfl rfl
      | exact .still rfl rfl rfl rfl

theorem advanceLoop_wound {timers : List TimerEvent} (hretry : ∀ t ∈ timers, t.kind ≠ .retry)
    (hidle : e.Early → ∀ t ∈ timers, t.kind ≠ .idle) (out : List Bytes) :
    Wound e (advanceLoop timers e out).2 := by
  induction timers generalizing e out with
  | nil => exact .still rfl rfl rfl rfl
  | cons timer timers ih =>
    obtain ⟨hfirst, hrest⟩ := List.forall_mem_cons.mp hretry
    have hidles := fun hearly => List.forall_mem_cons.mp (hidle hearly)
    have hrecord : Wound e (e.record .timerExpired timer.channel) := .still rfl rfl rfl rfl
    unfold advanceLoop
    dsimp only
    split
    next =>
      have hskipped := @ih (e.record .timerExpired timer.channel) hrest
        (fun hearly => (hidles hearly).2) out
      exact hrecord.trans hskipped
    next =>
      have htimer := hrecord.trans (handleTimer_wound hfirst fun hkind hearly => (hidles hearly).1 hkind)
      rcases h : (e.record .timerExpired timer.channel).handleTimer timer with ⟨error | produced, e'⟩
      · rw [h] at htimer
        exact htimer
      · rw [h] at htimer
        exact htimer.trans (ih hrest (fun hearly => (hidles (htimer.early hearly)).2) _)

/-- Of the timers that are handled, every idle one gets its PING out. -/
def PingsOut (timers : List TimerEvent) (e : ConnectionEngine) : Prop :=
  ∀ p ∈ timersMet timers e, p.2.kind = .idle → (p.1.handleTimer p.2).1.isOk = true

instance decidablePingsOut (timers : List TimerEvent) (e : ConnectionEngine) :
    Decidable (PingsOut timers e) :=
  inferInstanceAs (Decidable (∀ p ∈ timersMet timers e, p.2.kind = .idle → _))

theorem pingsOut_closed {timer : TimerEvent} {timers : List TimerEvent}
    (hclosed : (e.record .timerExpired timer.channel).state = .closed) :
    PingsOut (timer :: timers) e ↔ PingsOut timers (e.record .timerExpired timer.channel) := by
  unfold PingsOut
  conv_lhs => unfold timersMet
  dsimp only
  rw [if_pos hclosed]

theorem pingsOut_open {timer : TimerEvent} {timers : List TimerEvent}
    (hopen : (e.record .timerExpired timer.channel).state ≠ .closed) (h : PingsOut (timer :: timers) e) :
    (timer.kind = .idle → ((e.record .timerExpired timer.channel).handleTimer timer).1.isOk = true) ∧
      ∀ produced e', (e.record .timerExpired timer.channel).handleTimer timer = (.ok produced, e') →
        PingsOut timers e' := by
  unfold PingsOut at h
  unfold timersMet at h
  dsimp only at h
  rw [if_neg hopen] at h
  obtain ⟨hfirst, hrest⟩ := List.forall_mem_cons.mp h
  refine ⟨hfirst, fun produced e' hhandled => ?_⟩
  rw [hhandled] at hrest
  exact hrest

/-- What a timer keeps that is handled without an error and does not close the engine. -/
structure TimerKeeps (C : ConnectionEngine → Prop) : Prop where
  record : ∀ {e : ConnectionEngine} channel, C e → C (e.record .timerExpired channel)
  handle : ∀ {e : ConnectionEngine} {timer}, C e → timer.kind ≠ .retry →
    (e.handleTimer timer).1.isOk = true →
      (e.handleTimer timer).2.state = .closed ∨ C (e.handleTimer timer).2

/-- A timer fails by closing the engine, or by the PING that does not go out. -/
theorem handleTimer_isOk {timer : TimerEvent} (hretry : timer.kind ≠ .retry)
    (hping : timer.kind = .idle → (e.handleTimer timer).1.isOk = true) :
    (e.handleTimer timer).2.state = .closed ∨ (e.handleTimer timer).1.isOk = true := by
  cases hkind : timer.kind with
  | idle => exact .inr (hping hkind)
  | retry => exact absurd hkind hretry
  | handshake | drain | pongDeadline | fragmentGap =>
    unfold handleTimer
    rw [hkind]
    dsimp only
    split
    all_goals first
      | exact .inl rfl
      | exact .inr rfl

section

variable {C G : ConnectionEngine → Prop} {timers : List TimerEvent}

theorem advanceLoop_keeps (hC : TimerKeeps C) (hretry : ∀ t ∈ timers, t.kind ≠ .retry) (he : C e)
    (hpings : PingsOut timers e) (out : List Bytes) :
    (advanceLoop timers e out).2.state = .closed ∨ C (advanceLoop timers e out).2 := by
  induction timers generalizing e out with
  | nil => exact .inr he
  | cons timer timers ih =>
    obtain ⟨hfirst, hrest⟩ := List.forall_mem_cons.mp hretry
    have hrecord := hC.record timer.channel he
    unfold advanceLoop
    dsimp only
    split
    next hclosed => exact ih hrest hrecord ((pingsOut_closed hclosed).mp hpings) out
    next hopen =>
      obtain ⟨hping, hpings⟩ := pingsOut_open hopen hpings
      have hok := handleTimer_isOk hfirst hping
      have hkeeps := hC.handle hrecord hfirst
      rcases h : (e.record .timerExpired timer.channel).handleTimer timer with ⟨error | produced, e'⟩
      · rw [h] at hok
        exact .inl (hok.resolve_right (by rintro ⟨⟩))
      · rw [h] at hkeeps
        rcases hkeeps rfl with hclosed | hkept
        · exact .inl (advanceLoop_closed _ hclosed _)
        · exact ih hrest hkept (hpings _ _ h) _

/-- The rule of the timers that come due: what holds before them, and what one of them brings about. -/
theorem advanceLoop_reaches (hC : TimerKeeps C) (hG : TimerKeeps G) {kind : TimerKind}
    (hkind : ∀ {e : ConnectionEngine} {timer}, C e → timer.kind = kind →
      (e.handleTimer timer).1.isOk = true →
        (e.handleTimer timer).2.state = .closed ∨ G (e.handleTimer timer).2)
    (hretry : ∀ t ∈ timers, t.kind ≠ .retry) (he : C e) (hpings : PingsOut timers e)
    (hmem : ∃ t ∈ timers, t.kind = kind) (out : List Bytes) :
    (advanceLoop timers e out).2.state = .closed ∨ G (advanceLoop timers e out).2 := by
  induction timers generalizing e out with
  | nil =>
    obtain ⟨t, ht, -⟩ := hmem
    exact absurd ht List.not_mem_nil
  | cons timer timers ih =>
    obtain ⟨hfirst, hrest⟩ := List.forall_mem_cons.mp hretry
    have hrecord := hC.record timer.channel he
    unfold advanceLoop
    dsimp only
    split
    next hclosed => exact .inl (advanceLoop_closed _ hclosed _)
    next hopen =>
      obtain ⟨hping, hpings⟩ := pingsOut_open hopen hpings
      have hok := handleTimer_isOk hfirst hping
      have hkeeps := hC.handle hrecord hfirst
      have hreach := @hkind _ timer hrecord
      rcases h : (e.record .timerExpired timer.channel).handleTimer timer with ⟨error | produced, e'⟩
      · rw [h] at hok
        exact .inl (hok.resolve_right (by rintro ⟨⟩))
      · rw [h] at hkeeps hreach
        by_cases hthis : timer.kind = kind
        · rcases hreach hthis rfl with hclosed | hreached
          · exact .inl (advanceLoop_closed _ hclosed _)
          · exact advanceLoop_keeps hG hrest hreached (hpings _ _ h) _
        · have hlater : ∃ t ∈ timers, t.kind = kind := by
            obtain ⟨t, ht, htkind⟩ := hmem
            rcases List.mem_cons.mp ht with rfl | ht
            · exact absurd htkind hthis
            · exact ⟨t, ht, htkind⟩
          rcases hkeeps rfl with hclosed | hkept
          · exact .inl (advanceLoop_closed _ hclosed _)
          · exact ih hrest hkept (hpings _ _ h) hlater _

end

/-- The wheel is in order, with no retry timer, and before the negotiation is over with no idle one. -/
structure Regulated (e : ConnectionEngine) : Prop where
  ordered : e.timers.Ordered
  retry : ∀ t ∈ e.timers.timers, t.kind ≠ .retry
  idle : e.Early → ∀ t ∈ e.timers.timers, t.kind ≠ .idle

theorem make_regulated (policy : LocalPolicy) (registry : PluginRegistry)
    (executor : Option (DeterministicExecutor EngineTask)) : Regulated (make policy registry executor) :=
  ⟨.nil, fun _ ht => absurd ht List.not_mem_nil, fun _ _ ht => absurd ht List.not_mem_nil⟩

theorem Wound.regulated (h : Wound e e') (he : Regulated e) : Regulated e' where
  ordered := h.ordered he.ordered
  retry t ht := (h.kinds t ht).elim (he.retry t) And.left
  idle hearly t ht := (h.kinds t ht).elim (he.idle (h.early hearly) t) fun hnew => hnew.2 hearly

theorem mem_expired {nowMs : UInt64} {t : TimerEvent} (ht : t ∈ (e.timers.expire nowMs).1) :
    t ∈ e.timers.timers := by
  rw [← @TimerWheel.expire_append e.timers nowMs]
  exact List.mem_append_left _ ht

/-- `advance_time` takes what is due out of the wheel, and goes on as any step. -/
theorem Regulated.advanceTime (h : Regulated e) (nowMs : UInt64) :
    Wound (e.expiring nowMs) (e.advanceTime nowMs).2 ∧ Regulated (e.advanceTime nowMs).2 := by
  have hleft : ∀ t ∈ (e.expiring nowMs).timers.timers, t ∈ e.timers.timers := by
    intro t ht
    rw [← @TimerWheel.expire_append e.timers nowMs]
    exact List.mem_append_right _ ht
  have hexpiring : Regulated (e.expiring nowMs) :=
    ⟨h.ordered.expire nowMs, fun t ht => h.retry t (hleft t ht),
      fun hearly t ht => h.idle hearly t (hleft t ht)⟩
  have hwound : Wound (e.expiring nowMs) (e.advanceTime nowMs).2 :=
    @advanceLoop_wound (e.expiring nowMs) _ (fun t ht => h.retry t (mem_expired ht))
      (fun hearly t ht => h.idle hearly t (mem_expired ht)) []
  exact ⟨hwound, hwound.regulated hexpiring⟩

/-- A timer that is due by some time stays in the wheel until that time, or does what its kind does. -/
theorem Regulated.advanceTime_reaches (h : Regulated e) {C G : ConnectionEngine → Prop}
    (hC : TimerKeeps C) (hG : TimerKeeps G) {kind : TimerKind} (hkind : ∀ {e : ConnectionEngine} {timer},
      C e → timer.kind = kind → (e.handleTimer timer).1.isOk = true →
        (e.handleTimer timer).2.state = .closed ∨ G (e.handleTimer timer).2) {nowMs : UInt64} {time : Nat}
    (hstart : C (e.expiring nowMs)) (hpings : PingsOut (e.timers.expire nowMs).1 (e.expiring nowMs))
    (hdue : DueBy kind time e.timers.timers) :
    (e.advanceTime nowMs).2.state = .closed ∨ G (e.advanceTime nowMs).2 ∨ C (e.advanceTime nowMs).2 ∧
      DueBy kind time (e.advanceTime nowMs).2.timers.timers ∧ nowMs.toNat < time := by
  obtain ⟨t, ht, htkind, hbefore⟩ := hdue
  have hretry : ∀ t ∈ (e.timers.expire nowMs).1, t.kind ≠ .retry := fun t ht => h.retry t (mem_expired ht)
  rw [← @TimerWheel.expire_append e.timers nowMs] at ht
  rcases List.mem_append.mp ht with hexpired | hleft
  · exact (advanceLoop_reaches hC hG hkind hretry hstart hpings ⟨t, hexpired, htkind⟩ []).imp_right .inl
  · refine (advanceLoop_keeps hC hretry hstart hpings []).imp_right fun hkept => .inr ⟨hkept, ?_, ?_⟩
    · exact ⟨t, (h.advanceTime nowMs).1.kept hleft, htkind, hbefore⟩
    · have hlater := h.ordered.left_due hleft
      rw [UInt64.le_iff_toNat_le] at hlater
      omega

end

end ConnectionEngine

end LatticeGateway
