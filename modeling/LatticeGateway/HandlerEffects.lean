import LatticeGateway.EngineEffects

namespace LatticeGateway

namespace ConnectionEngine

theorem readU32Be_lt {bytes : Bytes} {offset : Nat} {value : UInt32}
    (_ : readU32Be bytes offset = .ok value) : value.toNat < 2 ^ 64 := by
  have := value.toNat_lt
  omega

theorem handleOpen_quiet (e : ConnectionEngine) (frame : Frame) : Quiet e (e.handleOpen frame).2 := by
  unfold handleOpen
  dsimp only
  split
  next t capabilities ht _ =>
    split
    next => exact .refl e
    next =>
      split
      next => exact .refl e
      next =>
        split
        next => exact .refl e
        next =>
          have hops := acceptRemote_ops t frame.channel
          split
          next h => rw [h] at hops; exact .table ht hops
          next t' h =>
            rw [h] at hops
            have htable : Quiet e { e with channels := some t' } := .table ht hops
            exact htable.trans (.record _ (by decide) _ _ _)
  next => exact .refl e

theorem handleCredit_quiet (e : ConnectionEngine) (frame : Frame) :
    Quiet e (e.handleCredit frame).2 := by
  unfold handleCredit
  dsimp only
  split
  next => exact .refl e
  next t ht =>
    split
    next => exact .refl e
    next =>
      split
      next => exact .refl e
      next amount hamount =>
        split
        next => exact .refl e
        next slot hfind =>
          have hkeeps : SlotKeeps t slot { slot with flow := (slot.flow.grant amount.toNat).2 } := by
            refine ⟨rfl, rfl, .rfl, fun h => h, fun _ hfull => ?_⟩
            obtain ⟨error, hgrant⟩ :=
              FlowAccount.grant_full t.channelWindow (readU32Be_lt hamount)
            rw [hfull, hgrant]
          split
          next h => rw [h] at hkeeps; exact .table ht (.of_find hfind hkeeps)
          next h => rw [h] at hkeeps; exact .table ht (.of_find hfind hkeeps)

theorem handleAck_quiet (e : ConnectionEngine) (frame : Frame) : Quiet e (e.handleAck frame).2 := by
  unfold handleAck
  repeat' split
  all_goals exact .of_eq rfl rfl rfl rfl

theorem handlePing_quiet (e : ConnectionEngine) (frame : Frame) : Quiet e (e.handlePing frame).2 := by
  unfold handlePing
  repeat' split
  all_goals first
    | exact .refl e
    | exact emitFrame_quiet _ _ _ _ _

theorem handlePong_quiet (e : ConnectionEngine) (frame : Frame) : Quiet e (e.handlePong frame).2 := by
  unfold handlePong
  split
  next => exact .refl e
  next =>
    split
    next => exact .refl e
    next token _ =>
      dsimp only
      generalize (if e.pendingPongToken = some token then none else e.pendingPongToken) = pending
      have hpending : Quiet e { e with pendingPongToken := pending } := .of_eq rfl rfl rfl rfl
      exact hpending.trans (.record _ (by decide) _ _ _)

theorem handleHalfClose_quiet (e : ConnectionEngine) (frame : Frame) :
    Quiet e (e.handleHalfClose frame).2 := by
  unfold handleHalfClose
  dsimp only
  split
  next => exact .refl e
  next t ht =>
    split
    next => exact .refl e
    next =>
      have hops := halfClose_ops t frame.channel
        (if byteAt frame.payload 0 = 0 then Direction.remoteSend else .localSend)
      split
      next h => rw [h] at hops; exact .table ht hops
      next t' h =>
        rw [h] at hops
        have htable : Quiet e { e with channels := some t' } := .table ht hops
        exact htable.trans (.record _ (by decide) _ _ _)

theorem handleReset_quiet (e : ConnectionEngine) (frame : Frame) :
    Quiet e (e.handleReset frame).2 := by
  unfold handleReset
  dsimp only
  generalize hchannels : e.channels.map (fun t => (t.reset frame.channel).2) = channels
  have htable : Quiet e { e with channels } := by
    cases ht : e.channels with
    | none =>
      rw [ht] at hchannels
      exact .of_eq rfl (by rw [← hchannels, ht]; rfl) rfl rfl
    | some t =>
      rw [ht] at hchannels
      obtain rfl : some (t.reset frame.channel).2 = channels := hchannels
      exact .table ht (reset_ops t frame.channel)
  exact htable.trans (.record _ (by decide) _ _ _)

/-- `dispatch` takes a token, queues at most a task, and records no delivery. -/
theorem dispatch_moves (e : ConnectionEngine) (channel : ChannelId) (family : UInt32)
    (completed : LogicalMessage) : ∃ executor nextPluginToken more,
      (e.dispatch channel family completed).2 =
        { e with executor, nextPluginToken, events := e.events ++ more } ∧
      ∀ event ∈ more, event.kind ≠ .messageDelivered := by
  unfold dispatch
  dsimp only
  split
  next => exact ⟨e.executor, e.nextPluginToken, [], by rw [List.append_nil], by simp⟩
  next lease _ =>
    split
    next =>
      split
      next executor' _ =>
        exact ⟨some executor', e.nextPluginToken + 1, [], by rw [List.append_nil], by simp⟩
      next executor' _ =>
        exact ⟨some executor', e.nextPluginToken + 1, [], by rw [List.append_nil], by simp⟩
    next hnone =>
      split
      next => exact ⟨e.executor, e.nextPluginToken + 1, [], by rw [List.append_nil], by simp⟩
      next response _ =>
        obtain ⟨more, hrecords, hmore⟩ := completePlugin_records
          { e with nextPluginToken := e.nextPluginToken + 1 }
          { token := e.nextPluginToken, channel, sequence := completed.sequence, familyId := family
            response }
        refine ⟨e.executor, e.nextPluginToken + 1, more, ?_, hmore⟩
        split
        next h => rw [h] at hrecords; exact hrecords
        next h => rw [h] at hrecords; exact hrecords

theorem dispatch_quiet (e : ConnectionEngine) (channel : ChannelId) (family : UInt32)
    (completed : LogicalMessage) : Quiet e (e.dispatch channel family completed).2 := by
  obtain ⟨executor, nextPluginToken, more, hmoves, hmore⟩ := dispatch_moves e channel family completed
  rw [hmoves]
  exact ⟨⟨fun h => h, rel_refl _, more, rfl, hmore⟩, rfl, rfl⟩

/-- What a delivery does to the slot that it is for. -/
structure SlotDelivers (t : ChannelTable) (slot slot' : ChannelSlot) : Prop where
  id : slot'.id = slot.id
  state : slot'.state = slot.state
  nextRecvSeq : slot'.nextRecvSeq = slot.nextRecvSeq + 1
  remoteHalfClosed : slot'.remoteHalfClosed = slot.remoteHalfClosed
  flow : t.channelWindow < 2 ^ 64 → slot.flow = .ofWindow t.channelWindow →
    slot'.flow = .ofWindow t.channelWindow

/-- The engine after the delivery of a message on channel `id`. -/
def delivered (e : ConnectionEngine) (t : ChannelTable) (id : ChannelId) (slot slot' : ChannelSlot)
    (payload : Bytes) : ConnectionEngine :=
  (e.setSlot t id.number slot').record .messageDelivered id slot.nextRecvSeq payload

/-- A step that delivers one message, in an active engine and on a live channel whose peer has not
half-closed it. -/
def Delivers (e e' : ConnectionEngine) : Prop :=
  ∃ t id slot slot' payload, e.channels = some t ∧ e.state = .active ∧ t.find id = some slot ∧
    slot.remoteHalfClosed = false ∧ SlotDelivers t slot slot' ∧
    Silent (e.delivered t id slot slot' payload) e'

theorem handleData_effect (e : ConnectionEngine) (frame : Frame) :
    Quiet e (e.handleData frame).2 ∨
      Delivers e (e.handleData frame).2 ∧ (e.handleData frame).2.state = e.state ∧
        (e.handleData frame).2.codec = e.codec := by
  unfold handleData
  split
  next => exact .inl (.refl e)
  next t ht =>
    split
    next => exact .inl (.refl e)
    next hactive =>
      split
      next => exact .inl (.refl e)
      next slot hfind =>
        split
        next => exact .inl (.refl e)
        next hremote =>
          split
          next seq offset total family _ _ _ _ =>
            split
            next => exact .inl (.refl e)
            next =>
              split
              next error flow hreserve =>
                left
                rw [FlowAccount.reserve_error hreserve]
                exact .table ht (.of_find hfind ⟨rfl, rfl, .rfl, fun h => h, fun _ h => h⟩)
              next flow hreserve =>
                have hflow : t.channelWindow < 2 ^ 64 → slot.flow = .ofWindow t.channelWindow →
                    (flow.release frame.payload.length).2 = .ofWindow t.channelWindow := by
                  intro hwindow hfull
                  rw [hfull] at hreserve
                  rw [FlowAccount.release_reserve hwindow hreserve]
                generalize hinsert :
                  slot.reassembler.insert frame.channel seq offset total frame.payload = inserted
                obtain ⟨message, reassembler⟩ := inserted
                dsimp only
                have hstored : Quiet e (e.setSlot t frame.channel.number
                    { slot with reassembler, flow := (flow.release frame.payload.length).2 }) :=
                  .table ht (.of_find hfind ⟨rfl, rfl, .rfl, fun h => h, hflow⟩)
                split
                next => exact .inl hstored
                next =>
                  exact .inl (hstored.trans (.of_eq rfl rfl rfl rfl))
                next completed =>
                  split
                  next => exact .inl hstored
                  next hseq =>
                    right
                    let slot' : ChannelSlot :=
                      { slot with reassembler, flow := (flow.release frame.payload.length).2
                                  nextRecvSeq := slot.nextRecvSeq + 1 }
                    have hslot : SlotDelivers t slot slot' := ⟨rfl, rfl, rfl, rfl, hflow⟩
                    have hdispatch := dispatch_quiet
                      (e.delivered t frame.channel slot slot' completed.payload)
                      frame.channel family completed
                    have heq : ((e.setSlot t frame.channel.number
                        { slot with reassembler, flow := (flow.release frame.payload.length).2 }).setSlot
                          t frame.channel.number slot').record .messageDelivered frame.channel
                          completed.sequence completed.payload =
                        e.delivered t frame.channel slot slot' completed.payload := by
                      rw [show completed.sequence = slot.nextRecvSeq from not_not.mp hseq]
                      rfl
                    rw [heq]
                    exact ⟨⟨t, frame.channel, slot, slot', completed.payload, ht, not_not.mp hactive,
                      hfind, by simpa using hremote, hslot, hdispatch.toSilent⟩, hdispatch.state,
                      hdispatch.codec⟩
          next => exact .inl (.refl e)

end ConnectionEngine

end LatticeGateway
