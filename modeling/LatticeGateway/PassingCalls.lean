import LatticeGateway.FragmentGap

namespace LatticeGateway

open Runs

/-- What every change of a slot other than an opening and a `send` keeps. -/
structure SlotPasses (slot slot' : ChannelSlot) : Prop where
  id : slot'.id = slot.id
  free : slot'.state = .free ↔ slot.state = .free
  nextSendSeq : slot'.nextSendSeq = slot.nextSendSeq

/-- One change of the table that is not a `send`: it is made, a slot changes, or a free one opens. -/
inductive TableStep : Option ChannelTable → Option ChannelTable → Prop
  | made {maxChannels channelWindow maxMessage} :
      TableStep none (some (.make maxChannels channelWindow maxMessage))
  | passed {t i slot slot'} (found : t.slots[i]? = some slot) (passes : SlotPasses slot slot') :
      TableStep (some t) (some (t.setAt i slot'))
  | opened {t i slot id state} (found : t.slots[i]? = some slot) (free : slot.state = .free)
      (busy : state ≠ .free) (numbered : id.number.toNat = i + 1 ∨ id.number = slot.id.number) :
      TableStep (some t) (some (t.setAt i (t.opened id state)))

def TableSteps : Option ChannelTable → Option ChannelTable → Prop := Relation.ReflTransGen TableStep

theorem TableSteps.refl (channels : Option ChannelTable) : TableSteps channels channels :=
  Relation.ReflTransGen.refl

theorem TableSteps.trans {a b c : Option ChannelTable} (h : TableSteps a b) (h' : TableSteps b c) :
    TableSteps a c := Relation.ReflTransGen.trans h h'

theorem TableStep.steps {a b : Option ChannelTable} (h : TableStep a b) : TableSteps a b := .single h

theorem TableSteps.of_find {t : ChannelTable} {id : ChannelId} {slot slot' : ChannelSlot}
    (h : t.find id = some slot) (passes : SlotPasses slot slot') :
    TableSteps (some t) (some (t.setSlot id.number slot')) :=
  (TableStep.passed (ChannelTable.slot?_eq_some.mp (ChannelTable.find_eq_some.mp h).1).2 passes).steps

section

variable (t : ChannelTable) (id : ChannelId)

theorem allocate_steps : TableSteps (some t) (some t.allocate.2) := by
  obtain ⟨⟨error, h⟩, _⟩ | ⟨i, slot, hslot, h⟩ := allocate_cases t <;> rw [h]
  · exact .refl _
  · have hstep : TableStep (some t)
        (some (t.setAt i (t.opened ⟨slot.id.number, slot.id.generation + 1⟩ .opening))) :=
      .opened hslot.found hslot.free (by decide) (.inr rfl)
    exact hstep.steps

theorem acceptRemote_steps : TableSteps (some t) (some (t.acceptRemote id).2) := by
  obtain ⟨error, h⟩ | ⟨slot, hslot, hfree, _, h⟩ := t.acceptRemote_cases id <;> rw [h]
  · exact .refl _
  · exact (TableStep.opened (ChannelTable.slot?_eq_some.mp hslot).2 hfree (by decide)
      (.inl (ChannelTable.slot?_number hslot))).steps

theorem activate_steps : TableSteps (some t) (some (t.activate id).2) := by
  obtain ⟨error, h⟩ | ⟨slot, hfind, hopening, h⟩ := t.activate_cases id <;> rw [h]
  · exact .refl _
  · exact .of_find hfind ⟨rfl, by simp [hopening], rfl⟩

theorem halfClose_steps (direction : Direction) :
    TableSteps (some t) (some (t.halfClose id direction).2) := by
  obtain ⟨error, _, h, _⟩ | ⟨slot, hfind, _, h⟩ := t.halfClose_cases id direction <;> rw [h]
  · exact .refl _
  · have hlive := (ChannelSlot.live_iff.mp (ChannelTable.find_eq_some.mp hfind).2.2).1
    have hstays := (ChannelSlot.live_iff.mp (slot.halfClosed_live direction)).1
    cases direction <;> exact .of_find hfind ⟨rfl, by simp [hlive, hstays], rfl⟩

theorem reset_steps : TableSteps (some t) (some (t.reset id).2) := by
  obtain ⟨error, h, _⟩ | ⟨slot, hfind, h⟩ := t.reset_cases id <;> rw [h]
  · exact .refl _
  · have hlive := (ChannelSlot.live_iff.mp (ChannelTable.find_eq_some.mp hfind).2.2).1
    exact .of_find hfind ⟨rfl, by simp [ChannelTable.buried, hlive], rfl⟩

end

namespace ConnectionEngine

/-- The engine has sent nothing in between, as far as its table can tell. -/
def Passes (e e' : ConnectionEngine) : Prop := TableSteps e.channels e'.channels

theorem Passes.of_eq {e e' : ConnectionEngine} (h : e'.channels = e.channels) : Passes e e' := by
  unfold Passes
  rw [h]
  exact .refl _

theorem Passes.refl (e : ConnectionEngine) : Passes e e := .of_eq rfl

theorem Passes.trans {e e' e'' : ConnectionEngine} (h : Passes e e') (h' : Passes e' e'') :
    Passes e e'' := TableSteps.trans h h'

theorem Passes.table {e : ConnectionEngine} {t t' : ChannelTable} (h : e.channels = some t)
    (steps : TableSteps (some t) (some t')) : Passes e { e with channels := some t' } := by
  unfold Passes
  rwa [h]

theorem SentFrom.passes {e e' : ConnectionEngine} (h : SentFrom e e') : Passes e e' := .of_eq h.channels

section

variable (e : ConnectionEngine)

theorem emitFrame_passes (type : FrameType) (channel : ChannelId) (payload : Bytes)
    (extensions : List Extension) : Passes e (e.emitFrame type channel payload extensions).2 :=
  (emitFrame_sent e type channel payload extensions).passes

theorem start_passes : Passes e e.start.2 := by
  unfold start
  split
  next => exact .refl e
  next =>
    split
    next => exact .refl e
    next => exact emitFrame_passes ({ e with state := .negotiating }.scheduleTimer .handshake {}
        kHandshakeTimeoutMs) _ _ _ _

theorem openChannel_passes (request : OpenRequest) : Passes e (e.openChannel request).2 := by
  unfold openChannel
  dsimp only
  split
  next t capabilities ht hcapabilities =>
    split
    next => exact .refl e
    next =>
      split
      next => exact .refl e
      next =>
        have hallocate := allocate_steps t
        split
        next error t' h =>
          rw [h] at hallocate
          exact .table ht hallocate
        next id t' h =>
          rw [h] at hallocate
          have hactivate := activate_steps t' id
          split
          next error t'' h' =>
            rw [h'] at hactivate
            exact .table ht (hallocate.trans hactivate)
          next t'' h' =>
            rw [h'] at hactivate
            have htable : Passes e { e with channels := some t'' } :=
              .table ht (hallocate.trans hactivate)
            have hemit := emitFrame_passes { e with channels := some t'' } .open id
              (u32Bytes request.familyId ++ u32Bytes (UInt32.ofNat request.initialWindow)) []
            split
            next h'' =>
              rw [h''] at hemit
              exact htable.trans hemit
            next h'' =>
              rw [h''] at hemit
              exact (htable.trans hemit).trans (.of_eq rfl)
  next => exact .refl e

theorem acknowledge_passes (ranges : List AckRange) : Passes e (e.acknowledge ranges).2 := by
  unfold acknowledge
  split
  next => exact .refl e
  next => exact emitFrame_passes _ _ _ _ _

theorem completePlugin_passes (completion : PluginCompletion) :
    Passes e (e.completePlugin completion).2 := by
  unfold completePlugin
  repeat' split
  all_goals exact .of_eq rfl

theorem loadReplaySnapshot_passes (text : Bytes) : Passes e (e.loadReplaySnapshot text).2 := by
  unfold loadReplaySnapshot
  repeat' split
  all_goals exact .of_eq rfl

theorem announced_passes {t t' : ChannelTable} (ht : e.channels = some t)
    (hsteps : TableSteps (some t) (some t')) (kind : EventKind) (id : ChannelId) (frame : Frame) :
    Passes e (({ e with channels := some t', nextFrameSeq := e.nextFrameSeq + 1 }.record kind id).emit
      frame).2 := by
  have htable : Passes e ({ e with channels := some t', nextFrameSeq := e.nextFrameSeq + 1 }.record
      kind id) := .table ht hsteps
  exact htable.trans (emit_sent _ _).passes

theorem halfClose_passes (id : ChannelId) (direction : Direction) :
    Passes e (e.halfClose id direction).2 := by
  unfold halfClose
  split
  next => exact .refl e
  next t ht =>
    have hsteps := halfClose_steps t id direction
    split
    next h => rw [h] at hsteps; exact .table ht hsteps
    next t' h =>
      rw [h] at hsteps
      exact announced_passes e ht hsteps .halfClosed id _

theorem reset_passes (id : ChannelId) : Passes e (e.reset id).2 := by
  unfold reset
  split
  next => exact .refl e
  next t ht =>
    have hsteps := reset_steps t id
    split
    next h => rw [h] at hsteps; exact .table ht hsteps
    next t' h =>
      rw [h] at hsteps
      exact announced_passes e ht hsteps .channelReset id _

theorem runTask_passes (task : EngineTask) : Passes e (e.runTask task).2 := by
  cases task with
  | foreign => exact .refl e
  | dispatch lease message completion =>
    unfold runTask
    dsimp only
    split
    next => exact .refl e
    next => exact completePlugin_passes _ _

theorem drainOne_passes : Passes e e.drainOne.2 := by
  unfold drainOne
  split
  next => exact .refl e
  next executor _ =>
    split
    next => exact .refl e
    next task executor' _ => exact runTask_passes { e with executor := some executor' } task

theorem goaway_passes : Passes e e.goaway.2 :=
  emitFrame_passes ({ e with state := .draining }.scheduleTimer .drain {} kDrainTimeoutMs) _ _ _ _

theorem handleOpen_passes (frame : Frame) : Passes e (e.handleOpen frame).2 := by
  unfold handleOpen
  dsimp only
  split
  next t capabilities ht _ =>
    split
    next => exact .refl e
    next =>
      split
      next => exact .refl e
      next =>
        split
        next => exact .refl e
        next =>
          have hsteps := acceptRemote_steps t frame.channel
          split
          next h => rw [h] at hsteps; exact .table ht hsteps
          next t' h => rw [h] at hsteps; exact .table ht hsteps
  next => exact .refl e

theorem handleCredit_passes (frame : Frame) : Passes e (e.handleCredit frame).2 := by
  unfold handleCredit
  dsimp only
  split
  next => exact .refl e
  next t ht =>
    split
    next => exact .refl e
    next =>
      split
      next => exact .refl e
      next =>
        split
        next => exact .refl e
        next slot hfind => split <;> exact .table ht (.of_find hfind ⟨rfl, .rfl, rfl⟩)

theorem handleHalfClose_passes (frame : Frame) : Passes e (e.handleHalfClose frame).2 := by
  unfold handleHalfClose
  dsimp only
  split
  next => exact .refl e
  next t ht =>
    split
    next => exact .refl e
    next =>
      have hsteps := halfClose_steps t frame.channel
        (if byteAt frame.payload 0 = 0 then Direction.remoteSend else .localSend)
      split
      next h => rw [h] at hsteps; exact .table ht hsteps
      next h => rw [h] at hsteps; exact .table ht hsteps

theorem handleReset_passes (frame : Frame) : Passes e (e.handleReset frame).2 := by
  unfold handleReset
  dsimp only
  cases ht : e.channels with
  | none => exact .of_eq ht.symm
  | some t => exact .table ht (reset_steps t frame.channel)

theorem dispatch_passes (channel : ChannelId) (family : UInt32) (completed : LogicalMessage) :
    Passes e (e.dispatch channel family completed).2 := by
  obtain ⟨_, _, _, hmoves, _⟩ := dispatch_moves e channel family completed
  rw [hmoves]
  exact .of_eq rfl

theorem handleData_passes (frame : Frame) : Passes e (e.handleData frame).2 := by
  unfold handleData
  split
  next => exact .refl e
  next t ht =>
    split
    next => exact .refl e
    next =>
      split
      next => exact .refl e
      next slot hfind =>
        split
        next => exact .refl e
        next =>
          split
          next seq offset total family _ _ _ _ =>
            split
            next => exact .refl e
            next =>
              split
              next => exact .table ht (.of_find hfind ⟨rfl, .rfl, rfl⟩)
              next flow _ =>
                generalize slot.reassembler.insert frame.channel seq offset total frame.payload = inserted
                obtain ⟨message, reassembler⟩ := inserted
                have hstored : ∀ nextRecvSeq, Passes e (e.setSlot t frame.channel.number
                    { slot with reassembler, nextRecvSeq
                                flow := (flow.release frame.payload.length).2 }) := fun _ =>
                  .table ht (.of_find hfind ⟨rfl, .rfl, rfl⟩)
                dsimp only
                split
                next => exact hstored slot.nextRecvSeq
                next => exact (hstored slot.nextRecvSeq).trans (.of_eq rfl)
                next completed =>
                  split
                  next => exact hstored slot.nextRecvSeq
                  next =>
                    have hdispatch := dispatch_passes ((e.setSlot t frame.channel.number { slot with
                      reassembler, nextRecvSeq := slot.nextRecvSeq + 1
                      flow := (flow.release frame.payload.length).2 }).record .messageDelivered
                        frame.channel completed.sequence completed.payload) frame.channel family completed
                    exact (hstored (slot.nextRecvSeq + 1)).trans hdispatch
          next => exact .refl e

theorem handleFrame_passes (hopen : Unopened e) (frame : Frame) :
    Passes e (e.handleFrame frame).2 := by
  unfold handleFrame
  cases frame.type with
  | hello =>
    dsimp only
    rcases handleHello_cases e frame with ⟨error, h⟩ | ⟨peer, caps, hstate, _, _, h⟩
    · rw [h]
      exact .refl e
    · rw [h]
      unfold Passes
      rw [hopen (.inr hstate)]
      exact TableStep.made.steps
  | «open» => exact handleOpen_passes e frame
  | data => exact handleData_passes e frame
  | ack =>
    dsimp only
    unfold handleAck
    repeat' split
    all_goals exact .of_eq rfl
  | credit => exact handleCredit_passes e frame
  | ping =>
    dsimp only
    unfold handlePing
    repeat' split
    all_goals first
      | exact .refl e
      | exact emitFrame_passes _ _ _ _ _
  | pong =>
    dsimp only
    unfold handlePong
    repeat' split
    all_goals exact .of_eq rfl
  | resume =>
    dsimp only
    rcases handleResume_cases e frame with ⟨error, h⟩ | ⟨_, out, h⟩
    · rw [h]
      exact .refl e
    · rw [h]
      exact .of_eq rfl
  | halfClose => exact handleHalfClose_passes e frame
  | reset => exact handleReset_passes e frame
  | goaway => exact .of_eq rfl

theorem handleEvent_passes (hopen : Unopened e) (event : DecodeEvent) :
    Passes e (e.handleEvent event).2 := by
  cases event with
  | needMore => exact .refl e
  | error error => exact .of_eq rfl
  | frame frame =>
    have hframe := handleFrame_passes e hopen frame
    unfold handleEvent
    dsimp only
    split
    next error e' h =>
      rw [h] at hframe
      dsimp only
      split
      next => exact hframe.trans (.of_eq rfl)
      next => exact hframe.trans (.of_eq rfl)
    next h =>
      rw [h] at hframe
      exact hframe

theorem handleTimer_passes (timer : TimerEvent) : Passes e (e.handleTimer timer).2 := by
  by_cases hgap : timer.kind = .fragmentGap
  · unfold handleTimer
    rw [hgap]
    dsimp only
    split
    next => exact .refl e
    next t ht => exact .table ht (reset_steps t timer.channel)
  · exact .of_eq (handleTimer_channels e hgap)

end

theorem receiveLoop_passes (events : List DecodeEvent) {e : ConnectionEngine} (hopen : Unopened e)
    (out : List Bytes) : Passes e (receiveLoop events e out).2 := by
  induction events generalizing e out with
  | nil => exact .refl e
  | cons event events ih =>
    have hevent := handleEvent_passes e hopen event
    have hnext := hopen.step (handleEvent_step e event)
    unfold receiveLoop
    split
    next h => rw [h] at hevent; exact hevent
    next h =>
      rw [h] at hevent hnext
      exact hevent.trans (ih hnext _)

theorem advanceLoop_passes (timers : List TimerEvent) (e : ConnectionEngine) (out : List Bytes) :
    Passes e (advanceLoop timers e out).2 := by
  induction timers generalizing e out with
  | nil => exact .refl e
  | cons timer timers ih =>
    unfold advanceLoop
    dsimp only
    split
    next => exact ih (e.record .timerExpired timer.channel) out
    next =>
      have htimer := handleTimer_passes (e.record .timerExpired timer.channel) timer
      split
      next h => rw [h] at htimer; exact htimer
      next h => rw [h] at htimer; exact Passes.trans htimer (ih _ _)

theorem drainAllLoop_passes (fuel : Nat) (e : ConnectionEngine) : Passes e (drainAllLoop fuel e).2 := by
  induction fuel generalizing e with
  | zero => exact .refl e
  | succ fuel ih =>
    have hone := drainOne_passes e
    unfold drainAllLoop
    split
    next h => rw [h] at hone; exact hone
    next h => rw [h] at hone; exact hone.trans (ih _)

/-- A call other than `send` takes no sequence number. -/
theorem call_passes {e : ConnectionEngine} (hopen : Unopened e) {c : Call}
    (hother : ∀ id payload, c ≠ .send id payload) : Passes e (e.call c) := by
  cases c with
  | send id payload => exact absurd rfl (hother id payload)
  | start => exact start_passes e
  | receive bytes eof =>
    have hdecoded : Unopened (e.decoded bytes eof).2 := hopen
    exact receiveLoop_passes (e.decoded bytes eof).1 hdecoded []
  | openChannel request => exact openChannel_passes e request
  | grantCredit id amount => exact emitFrame_passes e _ _ _ _
  | acknowledge ranges => exact acknowledge_passes e ranges
  | ping token => exact emitFrame_passes e _ _ _ _
  | resume request => exact emitFrame_passes e _ _ _ _
  | completePlugin completion => exact completePlugin_passes e completion
  | advanceTime nowMs =>
    exact advanceLoop_passes _ { e with nowMs, timers := (e.timers.expire nowMs).2 } []
  | flushOutbound writableBytes => exact .of_eq rfl
  | loadReplaySnapshot text => exact loadReplaySnapshot_passes e text
  | halfClose id direction => exact halfClose_passes e id direction
  | reset id => exact reset_passes e id
  | goaway => exact goaway_passes e
  | submitTask shard result => exact .of_eq rfl
  | cancelTask id => exact .of_eq rfl
  | drainOne => exact drainOne_passes e
  | drainAll => exact drainAllLoop_passes _ e

end ConnectionEngine

end LatticeGateway
