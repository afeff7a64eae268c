import LatticeGateway.EngineOutbound
import LatticeGateway.TableOps

namespace LatticeGateway

namespace ConnectionEngine

/-- Before the HELLO exchange is over. -/
def Early (e : ConnectionEngine) : Prop := e.state = .created ∨ e.state = .negotiating

/-- A step without a delivery and without a HELLO that is accepted. -/
structure Silent (e e' : ConnectionEngine) : Prop where
  early : e'.Early → e.Early
  channels : Option.Rel TableOps e.channels e'.channels
  events : ∃ more, e'.events = e.events ++ more ∧ ∀ event ∈ more, event.kind ≠ .messageDelivered

/-- A silent step that also leaves the connection state and the codec alone. -/
structure Quiet (e e' : ConnectionEngine) : Prop extends Silent e e' where
  state : e'.state = e.state
  codec : e'.codec = e.codec

theorem rel_refl (channels : Option ChannelTable) : Option.Rel TableOps channels channels := by
  cases channels with
  | none => exact .none
  | some t => exact .some (.refl t)

theorem rel_trans {a b c : Option ChannelTable} (h : Option.Rel TableOps a b)
    (h' : Option.Rel TableOps b c) : Option.Rel TableOps a c := by
  cases h with
  | none => exact h'
  | some h =>
    cases h' with
    | some h' => exact .some (h.trans h')

theorem Silent.refl (e : ConnectionEngine) : Silent e e :=
  ⟨fun h => h, rel_refl _, [], by simp, by simp⟩

theorem Silent.trans {e e' e'' : ConnectionEngine} (h : Silent e e') (h' : Silent e' e'') :
    Silent e e'' := by
  obtain ⟨more, hevents, hmore⟩ := h.events
  obtain ⟨more', hevents', hmore'⟩ := h'.events
  refine ⟨h.early ∘ h'.early, rel_trans h.channels h'.channels, more ++ more', ?_, ?_⟩
  · rw [hevents', hevents, List.append_assoc]
  · intro event hevent
    rcases List.mem_append.mp hevent with hmem | hmem
    · exact hmore event hmem
    · exact hmore' event hmem

theorem Quiet.refl (e : ConnectionEngine) : Quiet e e := ⟨.refl e, rfl, rfl⟩

theorem Quiet.trans {e e' e'' : ConnectionEngine} (h : Quiet e e') (h' : Quiet e' e'') :
    Quiet e e'' :=
  ⟨h.toSilent.trans h'.toSilent, h'.state.trans h.state, h'.codec.trans h.codec⟩

/-- An engine with the same state, table and events is as good as the first one. -/
theorem Silent.of_eq {e e' : ConnectionEngine} (hstate : e'.state = e.state)
    (hchannels : e'.channels = e.channels) (hevents : e'.events = e.events) : Silent e e' := by
  refine ⟨?_, ?_, [], by simp [hevents], by simp⟩
  · unfold Early
    rw [hstate]
    exact fun h => h
  · rw [hchannels]
    exact rel_refl _

theorem Quiet.of_eq {e e' : ConnectionEngine} (hstate : e'.state = e.state)
    (hchannels : e'.channels = e.channels) (hevents : e'.events = e.events)
    (hcodec : e'.codec = e.codec) : Quiet e e' :=
  ⟨.of_eq hstate hchannels hevents, hstate, hcodec⟩

theorem SentFrom.quiet {e e' : ConnectionEngine} (h : SentFrom e e') : Quiet e e' :=
  .of_eq h.state h.channels h.events h.codec

theorem Quiet.table {e : ConnectionEngine} {t t' : ChannelTable} (h : e.channels = some t)
    (ops : TableOps t t') : Quiet e { e with channels := some t' } := by
  refine ⟨⟨fun h => h, ?_, [], by simp, by simp⟩, rfl, rfl⟩
  rw [h]
  exact .some ops

theorem Quiet.record (e : ConnectionEngine) {kind : EventKind} (h : kind ≠ .messageDelivered)
    (channel : ChannelId) (sequence : UInt32) (payload : Bytes) :
    Quiet e (e.record kind channel sequence payload) :=
  ⟨⟨fun h => h, rel_refl _, _, rfl, by simpa using h⟩, rfl, rfl⟩

theorem Quiet.diagnostic (e : ConnectionEngine) (error : Error) : Quiet e (e.diagnostic error) :=
  ⟨⟨fun h => h, rel_refl _, _, rfl, by simp⟩, rfl, rfl⟩

theorem emitFrame_quiet (e : ConnectionEngine) (type : FrameType) (channel : ChannelId)
    (payload : Bytes) (extensions : List Extension) :
    Quiet e (e.emitFrame type channel payload extensions).2 :=
  (emitFrame_sent e type channel payload extensions).quiet

theorem acknowledge_quiet (e : ConnectionEngine) (ranges : List AckRange) :
    Quiet e (e.acknowledge ranges).2 := by
  unfold acknowledge
  split
  next => exact .refl e
  next => exact emitFrame_quiet _ _ _ _ _

theorem openChannel_quiet (e : ConnectionEngine) (request : OpenRequest) :
    Quiet e (e.openChannel request).2 := by
  unfold openChannel
  dsimp only
  split
  next t capabilities ht hcapabilities =>
    split
    next => exact .refl e
    next =>
      split
      next => exact .refl e
      next =>
        have hallocate := allocate_ops t
        split
        next error t' h =>
          rw [h] at hallocate
          exact .table ht hallocate
        next id t' h =>
          rw [h] at hallocate
          have hactivate := activate_ops t' id
          split
          next error t'' h' =>
            rw [h'] at hactivate
            exact .table ht (hallocate.trans hactivate)
          next t'' h' =>
            rw [h'] at hactivate
            have htable : Quiet e { e with channels := some t'' } :=
              .table ht (hallocate.trans hactivate)
            have hemit := emitFrame_quiet { e with channels := some t'' } .open id
              (u32Bytes request.familyId ++ u32Bytes (UInt32.ofNat request.initialWindow)) []
            split
            next h'' =>
              rw [h''] at hemit
              exact htable.trans hemit
            next h'' =>
              rw [h''] at hemit
              exact (htable.trans hemit).trans (.record _ (by decide) _ _ _)
  next => exact .refl e

/-- What `open_channel` has checked when it takes the slot at index `i`. -/
structure Openable (e : ConnectionEngine) (request : OpenRequest) (caps : CapabilitySet) (t : ChannelTable)
    (i : Nat) (slot : ChannelSlot) : Prop where
  channels : e.channels = some t
  capabilities : e.capabilities = some caps
  active : e.state = .active
  served : ¬ caps.plugins.all (·.familyId ≠ request.familyId) = true
  next : t.NextFree i slot

/-- An `open_channel` that takes no slot changes nothing. -/
theorem open_refused {e : ConnectionEngine} {request : OpenRequest}
    (h : ∀ caps t i slot, ¬ e.Openable request caps t i slot) :
    ∃ error, e.openChannel request = (.error error, e) := by
  unfold openChannel
  dsimp only
  split
  next t caps ht hcaps =>
    split
    next => exact ⟨_, rfl⟩
    next hactive =>
      split
      next => exact ⟨_, rfl⟩
      next hserved =>
        obtain ⟨error, herror⟩ := @allocate_refused t fun i slot hnext =>
          h caps t i slot ⟨ht, hcaps, not_not.mp hactive, hserved, hnext⟩
        rw [herror]
        refine ⟨error, ?_⟩
        dsimp only
        rw [← ht]
  next => exact ⟨_, rfl⟩

/-- The engine that has taken the slot, and has not sent the OPEN frame for it. -/
def taking (e : ConnectionEngine) (t : ChannelTable) (i : Nat) (slot : ChannelSlot) : ConnectionEngine :=
  { e with channels := some (t.setAt i (t.opened ⟨slot.id.number, slot.id.generation + 1⟩ .open)) }

theorem Openable.open {e : ConnectionEngine} {request : OpenRequest} {caps : CapabilitySet}
    {t : ChannelTable} {i : Nat} {slot : ChannelSlot} (h : e.Openable request caps t i slot)
    (hnumbered : t.Numbered) : e.openChannel request =
      match (e.taking t i slot).emitFrame .open ⟨slot.id.number, slot.id.generation + 1⟩
        (u32Bytes request.familyId ++ u32Bytes (UInt32.ofNat request.initialWindow)) with
      | (.error error, e) => (.error error, e)
      | (.ok bytes, e) => (.ok (⟨slot.id.number, slot.id.generation + 1⟩, bytes),
          e.record .channelOpened ⟨slot.id.number, slot.id.generation + 1⟩) := by
  obtain ⟨opening, hallocate, hactivate⟩ := h.next.allocate hnumbered
  unfold openChannel
  dsimp only
  split
  next t' caps' ht hcaps =>
    obtain rfl := Option.some.inj (h.channels.symm.trans ht)
    obtain rfl := Option.some.inj (h.capabilities.symm.trans hcaps)
    rw [if_neg (not_not.mpr h.active), if_neg h.served, hallocate]
    dsimp only
    rw [hactivate]
    rfl
  next hnone => exact (hnone _ _ h.channels h.capabilities).elim

theorem setSlot_self {e : ConnectionEngine} {t : ChannelTable} {number : UInt32} {slot : ChannelSlot}
    (h : e.channels = some t) (hslot : t.slot? number = some slot) : e.setSlot t number slot = e := by
  unfold setSlot
  rw [ChannelTable.setSlot_self hslot, ← h]

/-- The slot between the reservation of `send` and its release. -/
def sending (slot : ChannelSlot) (flow : FlowAccount) : ChannelSlot :=
  { slot with flow, nextSendSeq := slot.nextSendSeq + 1 }

/-- The frames of one `send`, from the engine that has reserved credit and sequence for it. -/
def sendFrames (e : ConnectionEngine) (capabilities : CapabilitySet) (t : ChannelTable) (id : ChannelId)
    (slot : ChannelSlot) (flow : FlowAccount) (payload : Bytes) :
    Except Error (List Bytes) × ConnectionEngine :=
  sendLoop id slot.nextSendSeq payload.length
    (fragments (max 1 (capabilities.maxFrame / 2)) payload payload.length 0)
    { e with channels := some (t.setSlot id.number (sending slot flow)) } []

/-- What `send` has checked when it goes on to take a sequence number. -/
structure Sendable (e : ConnectionEngine) (id : ChannelId) (payload : Bytes)
    (caps : CapabilitySet) (t : ChannelTable) (slot : ChannelSlot) (flow : FlowAccount) :
    Prop where
  channels : e.channels = some t
  capabilities : e.capabilities = some caps
  active : e.state = .active
  found : t.find id = some slot
  localOpen : slot.localHalfClosed = false
  cap : payload.length ≤ caps.maxMessage
  reserved : slot.flow.reserve payload.length = (.ok (), flow)

/-- A `send` that cannot go on to its sequence number changes nothing. -/
theorem send_refused {e : ConnectionEngine} {id : ChannelId} {payload : Bytes}
    (h : ∀ capabilities t slot flow, ¬ e.Sendable id payload capabilities t slot flow) :
    ∃ error, e.send id payload = (.error error, e) := by
  unfold send
  dsimp only
  split
  next t capabilities ht hcapabilities =>
    split
    next => exact ⟨_, rfl⟩
    next hactive =>
      split
      next => exact ⟨_, rfl⟩
      next slot hfind =>
        split
        next => exact ⟨_, rfl⟩
        next hlocal =>
          split
          next => exact ⟨_, rfl⟩
          next hcap =>
            split
            next error flow hreserve =>
              refine ⟨error, ?_⟩
              rw [FlowAccount.reserve_error hreserve]
              exact congrArg (Prod.mk _) (setSlot_self ht (ChannelTable.find_eq_some.mp hfind).1)
            next flow hreserve =>
              exact absurd ⟨ht, hcapabilities, not_not.mp hactive, hfind, by simpa using hlocal,
                by omega, hreserve⟩ (h capabilities t slot flow)
  next => exact ⟨_, rfl⟩

/-- The sequence number that a sendable message takes. -/
theorem Sendable.reserveSequence {e : ConnectionEngine} {id : ChannelId} {payload : Bytes}
    {capabilities : CapabilitySet} {t : ChannelTable} {slot : ChannelSlot} {flow : FlowAccount}
    (h : e.Sendable id payload capabilities t slot flow) :
    (t.setSlot id.number { slot with flow }).reserveSendSequence id =
      if slot.nextSendSeq = 0xFFFFFFFF then
        (.error (channelError .resourceLimit id "send sequence would wrap"),
          t.setSlot id.number { slot with flow })
      else (.ok slot.nextSendSeq, t.setSlot id.number (sending slot flow)) := by
  obtain ⟨hslot, hgeneration, hlive⟩ := ChannelTable.find_eq_some.mp h.found
  have hfind : (t.setSlot id.number { slot with flow }).find id = some { slot with flow } :=
    ChannelTable.find_eq_some.mpr ⟨ChannelTable.slot?_setSlot hslot _, hgeneration, hlive⟩
  unfold ChannelTable.reserveSendSequence
  rw [hfind]
  dsimp only
  rw [ChannelTable.setSlot_setSlot]
  rfl

/-- One that can takes a sequence number, if its channel has one left. -/
theorem Sendable.send {e : ConnectionEngine} {id : ChannelId} {payload : Bytes}
    {capabilities : CapabilitySet} {t : ChannelTable} {slot : ChannelSlot} {flow : FlowAccount}
    (h : e.Sendable id payload capabilities t slot flow) :
    (slot.nextSendSeq = 0xFFFFFFFF ∧ ∃ error, e.send id payload = (.error error,
        { e with channels := some (t.setSlot id.number
          { slot with flow := (flow.release payload.length).2 }) })) ∨
      (slot.nextSendSeq ≠ 0xFFFFFFFF ∧ e.send id payload =
        ((e.sendFrames capabilities t id slot flow payload).1,
          { (e.sendFrames capabilities t id slot flow payload).2 with
            channels := some (t.setSlot id.number
              (sending slot (flow.release payload.length).2)) })) := by
  have hslot := (ChannelTable.find_eq_some.mp h.found).1
  have hset := ChannelTable.slot?_setSlot hslot { slot with flow }
  unfold ConnectionEngine.send
  dsimp only
  split
  next t' capabilities' ht hcapabilities =>
    obtain rfl := Option.some.inj (h.channels.symm.trans ht)
    obtain rfl := Option.some.inj (h.capabilities.symm.trans hcapabilities)
    rw [if_neg (not_not.mpr h.active), h.found]
    dsimp only
    rw [if_neg (by simp [h.localOpen]), if_neg (Nat.not_lt.mpr h.cap), h.reserved]
    dsimp only
    rw [h.reserveSequence]
    by_cases hwrap : slot.nextSendSeq = 0xFFFFFFFF
    · left
      simp only [if_pos hwrap, releaseFlow, hset, setSlot, ChannelTable.setSlot_setSlot]
      exact ⟨hwrap, _, rfl⟩
    · right
      simp only [if_neg hwrap]
      refine ⟨hwrap, ?_⟩
      have hchannels := (sendLoop_sent id slot.nextSendSeq payload.length
        (fragments (max 1 (capabilities.maxFrame / 2)) payload payload.length 0)
        { e with channels := some (t.setSlot id.number (sending slot flow)) } []).channels
      have hslot' := ChannelTable.slot?_setSlot hslot (sending slot flow)
      unfold releaseFlow
      rw [show (sendLoop id slot.nextSendSeq payload.length
        (fragments (max 1 (capabilities.maxFrame / 2)) payload payload.length 0)
        { e with channels := some (t.setSlot id.number (sending slot flow)) } []).2.channels = _ from
          hchannels]
      dsimp only
      rw [hslot']
      simp only [setSlot, ChannelTable.setSlot_setSlot]
      rfl
  next hnone => exact (hnone _ _ h.channels h.capabilities).elim

theorem send_cases (e : ConnectionEngine) (id : ChannelId) (payload : Bytes) :
    (∃ error, e.send id payload = (.error error, e)) ∨
    ∃ capabilities t slot flow, e.Sendable id payload capabilities t slot flow ∧
      ((slot.nextSendSeq = 0xFFFFFFFF ∧ ∃ error, e.send id payload = (.error error,
          { e with channels := some (t.setSlot id.number
            { slot with flow := (flow.release payload.length).2 }) })) ∨
        (slot.nextSendSeq ≠ 0xFFFFFFFF ∧ e.send id payload =
          ((e.sendFrames capabilities t id slot flow payload).1,
            { (e.sendFrames capabilities t id slot flow payload).2 with
              channels := some (t.setSlot id.number
                (sending slot (flow.release payload.length).2)) }))) := by
  by_cases h : ∃ capabilities t slot flow, e.Sendable id payload capabilities t slot flow
  · obtain ⟨capabilities, t, slot, flow, hsendable⟩ := h
    exact .inr ⟨capabilities, t, slot, flow, hsendable, hsendable.send⟩
  · exact .inl (send_refused fun capabilities t slot flow hsendable =>
      h ⟨capabilities, t, slot, flow, hsendable⟩)

theorem Sendable.keeps {e : ConnectionEngine} {id : ChannelId} {payload : Bytes}
    {capabilities : CapabilitySet} {t : ChannelTable} {slot : ChannelSlot} {flow : FlowAccount}
    (h : e.Sendable id payload capabilities t slot flow) (nextSendSeq : UInt32) :
    SlotKeeps t slot { slot with flow := (flow.release payload.length).2, nextSendSeq } := by
  refine ⟨rfl, rfl, .rfl, fun h => h, fun hwindow hfull => ?_⟩
  have hreserved := h.reserved
  rw [hfull] at hreserved
  simp [FlowAccount.release_reserve hwindow hreserved]

theorem send_quiet (e : ConnectionEngine) (id : ChannelId) (payload : Bytes) :
    Quiet e (e.send id payload).2 := by
  rcases send_cases e id payload with
    ⟨error, h⟩ | ⟨capabilities, t, slot, flow, hsendable, ⟨_, error, h⟩ | ⟨_, h⟩⟩
  · rw [h]
    exact .refl e
  · rw [h]
    exact .table hsendable.channels (.of_find hsendable.found (hsendable.keeps slot.nextSendSeq))
  · rw [h]
    have hsent := sendLoop_sent id slot.nextSendSeq payload.length
      (fragments (max 1 (capabilities.maxFrame / 2)) payload payload.length 0)
      { e with channels := some (t.setSlot id.number (sending slot flow)) } []
    have htable := Quiet.table hsendable.channels
      (.of_find hsendable.found (hsendable.keeps (slot.nextSendSeq + 1)))
    refine htable.trans (.of_eq ?_ rfl ?_ ?_)
    · exact hsent.state
    · exact hsent.events
    · exact hsent.codec

/-- All that `complete_plugin` changes is what it records, and that is no delivery. -/
theorem completePlugin_records (e : ConnectionEngine) (completion : PluginCompletion) : ∃ more,
    (e.completePlugin completion).2 = { e with events := e.events ++ more } ∧
      ∀ event ∈ more, event.kind ≠ .messageDelivered := by
  have hnothing : e = { e with events := e.events ++ [] } := by rw [List.append_nil]
  unfold completePlugin
  split
  next => exact ⟨[], hnothing, by simp⟩
  next =>
    split
    next => exact ⟨[], hnothing, by simp⟩
    next =>
      split
      next => exact ⟨[], hnothing, by simp⟩
      next => exact ⟨_, rfl, by simp⟩

theorem completePlugin_quiet (e : ConnectionEngine) (completion : PluginCompletion) :
    Quiet e (e.completePlugin completion).2 := by
  obtain ⟨more, hrecords, hmore⟩ := completePlugin_records e completion
  rw [hrecords]
  exact ⟨⟨fun h => h, rel_refl _, more, rfl, hmore⟩, rfl, rfl⟩

theorem loadReplaySnapshot_quiet (e : ConnectionEngine) (text : Bytes) :
    Quiet e (e.loadReplaySnapshot text).2 := by
  unfold loadReplaySnapshot
  repeat' split
  all_goals exact .of_eq rfl rfl rfl rfl

/-- A call changes the table, records it, and emits a frame of the next number. -/
theorem announced_quiet {e : ConnectionEngine} {t t' : ChannelTable} (ht : e.channels = some t)
    (hops : TableOps t t') {kind : EventKind} (hkind : kind ≠ .messageDelivered) (id : ChannelId)
    (frame : Frame) : Quiet e (({ e with channels := some t', nextFrameSeq := e.nextFrameSeq + 1 }.record
      kind id).emit frame).2 := by
  have htable : Quiet e { e with channels := some t' } := .table ht hops
  have hframe : Quiet { e with channels := some t' }
      { e with channels := some t', nextFrameSeq := e.nextFrameSeq + 1 } := .of_eq rfl rfl rfl rfl
  have hevent := (htable.trans hframe).trans (.record _ hkind id 0 [])
  exact hevent.trans (emit_sent _ _).quiet

theorem halfClose_quiet (e : ConnectionEngine) (id : ChannelId) (direction : Direction) :
    Quiet e (e.halfClose id direction).2 := by
  unfold halfClose
  split
  next => exact .refl e
  next t ht =>
    have hops := halfClose_ops t id direction
    split
    next h => rw [h] at hops; exact .table ht hops
    next t' h =>
      rw [h] at hops
      exact announced_quiet ht hops (by decide) id _

theorem reset_quiet (e : ConnectionEngine) (id : ChannelId) : Quiet e (e.reset id).2 := by
  unfold reset
  split
  next => exact .refl e
  next t ht =>
    have hops := reset_ops t id
    split
    next h => rw [h] at hops; exact .table ht hops
    next t' h =>
      rw [h] at hops
      exact announced_quiet ht hops (by decide) id _

theorem runTask_quiet (e : ConnectionEngine) (task : EngineTask) : Quiet e (e.runTask task).2 := by
  cases task with
  | foreign => exact .refl e
  | dispatch lease message completion =>
    unfold runTask
    dsimp only
    split
    next => exact .refl e
    next => exact completePlugin_quiet _ _

theorem drainOne_quiet (e : ConnectionEngine) : Quiet e e.drainOne.2 := by
  unfold drainOne
  split
  next => exact .refl e
  next executor _ =>
    split
    next => exact .refl e
    next task executor' _ =>
      have hpop : Quiet e { e with executor := some executor' } := .of_eq rfl rfl rfl rfl
      exact hpop.trans (runTask_quiet _ _)

theorem drainAllLoop_quiet (fuel : Nat) (e : ConnectionEngine) :
    Quiet e (drainAllLoop fuel e).2 := by
  induction fuel generalizing e with
  | zero => exact .refl e
  | succ fuel ih =>
    have hone := drainOne_quiet e
    unfold drainAllLoop
    split
    next h => rw [h] at hone; exact hone
    next h => rw [h] at hone; exact hone.trans (ih _)

end ConnectionEngine

end LatticeGateway
