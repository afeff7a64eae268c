import LatticeGateway.DataSending
import LatticeGateway.FragmentAssembly

namespace LatticeGateway

theorem FlowAccount.reserve_fits {window amount : Nat} (hwindow : window < 2 ^ 64) (h : amount ≤ window) :
    ∃ flow, (FlowAccount.ofWindow window).reserve amount = (.ok (), flow) ∧
      (flow.release amount).2 = .ofWindow window := by
  have hok : ∃ flow, (FlowAccount.ofWindow window).reserve amount = (.ok (), flow) := by
    unfold FlowAccount.reserve FlowAccount.ofWindow
    split
    next => exact ⟨_, rfl⟩
    next => exact ⟨_, if_neg (by dsimp only; omega)⟩
  obtain ⟨flow, hreserve⟩ := hok
  exact ⟨flow, hreserve, congrArg Prod.snd (FlowAccount.release_reserve hwindow hreserve)⟩

namespace ConnectionEngine

/-- The messages that the events deliver, with their channels. -/
def messages (events : List ConnectionEvent) : List (ChannelId × Bytes) :=
  events.filterMap fun event =>
    if event.kind = .messageDelivered then some (event.channel, event.payload) else none

theorem messages_append (events more : List ConnectionEvent) :
    messages (events ++ more) = messages events ++ messages more :=
  List.filterMap_append

theorem messages_none {events : List ConnectionEvent}
    (h : ∀ event ∈ events, event.kind ≠ .messageDelivered) : messages events = [] := by
  unfold messages
  rw [List.filterMap_eq_nil_iff]
  intro event hevent
  rw [if_neg (h event hevent)]

/-- The plugin of family 7 asks to close the connection when it is handed the message. -/
def answersClose (e : ConnectionEngine) (message : LogicalMessage) : Bool :=
  match e.executor, e.registry.createLease 7 with
  | none, .ok lease =>
    match lease.handle message with
    | .error error => error.action == .closeConnection
    | .ok _ => false
  | _, _ => false

theorem dispatch_error {e : ConnectionEngine} {channel : ChannelId} {completed : LogicalMessage}
    {error : Error} (herror : (e.dispatch channel 7 completed).1 = .error error)
    (h : e.answersClose completed = false) : error.action ≠ .closeConnection := by
  unfold dispatch at herror
  unfold answersClose at h
  dsimp only at herror
  split at herror
  next hlease =>
    cases herror
    unfold PluginRegistry.createLease at hlease
    dsimp only at hlease
    repeat' split at hlease
    all_goals cases hlease
    all_goals exact CloseAction.noConfusion
  next lease hlease =>
    rw [hlease] at h
    split at herror
    next executor hexecutor =>
      split at herror
      next hsubmit =>
        cases herror
        unfold DeterministicExecutor.submit at hsubmit
        repeat' split at hsubmit
        all_goals cases hsubmit
        all_goals exact CloseAction.noConfusion
      next => cases herror
    next hexecutor =>
      rw [hexecutor] at h
      dsimp only at h
      split at herror
      next hanswer =>
        cases herror
        rw [hanswer] at h
        simpa using h
      next =>
        split at herror
        next hcomplete =>
          cases herror
          unfold completePlugin at hcomplete
          repeat' split at hcomplete
          all_goals cases hcomplete
          all_goals exact CloseAction.noConfusion
        next => cases herror

/-- An engine with the first fragments of the next message of a channel. -/
structure Assembling (e : ConnectionEngine) (caps : CapabilitySet) (t : ChannelTable) (id : ChannelId)
    (slot : ChannelSlot) (total : Nat) (fragments : List Bytes) : Prop where
  ready : Ready e caps
  channels : e.channels = some t
  found : t.find id = some slot
  remoteOpen : slot.remoteHalfClosed = false
  window : t.channelWindow < 2 ^ 64
  flow : slot.flow = .ofWindow t.channelWindow
  holds : slot.reassembler.Holds slot.nextRecvSeq (UInt32.ofNat total) fragments
  max : total ≤ slot.reassembler.maxMessage
  small : total < 2 ^ 32

theorem extensionU32_fragment {frame : Frame} {sequence : UInt32} {offset total : Nat}
    (h : frame.extensions = fragmentExtensions sequence offset total) :
    extensionU32 frame kExtMessageSeq = .ok sequence ∧
      extensionU32 frame kExtFragmentOffset = .ok (UInt32.ofNat offset) ∧
      extensionU32 frame kExtMessageTotal = .ok (UInt32.ofNat total) ∧
      extensionU32 frame kExtFamilyId = .ok 7 := by
  unfold extensionU32 findExtension
  rw [h]
  exact ⟨congrArg Except.ok (u32At_u32Bytes _ []), congrArg Except.ok (u32At_u32Bytes _ []),
    congrArg Except.ok (u32At_u32Bytes _ []), congrArg Except.ok (u32At_u32Bytes _ [])⟩

/-- `handle_data` is left with what the reassembler says. -/
theorem Assembling.handleData_eq {e : ConnectionEngine} {caps : CapabilitySet} {t : ChannelTable}
    {id : ChannelId} {slot : ChannelSlot} {total : Nat} {fragments : List Bytes}
    (h : Assembling e caps t id slot total fragments) {round : Nat × Bytes}
    (hwindow : round.2.length ≤ t.channelWindow) (frameSeq : UInt32) :
    e.handleData (dataFrame id slot.nextRecvSeq total frameSeq round) =
      match slot.reassembler.insert id slot.nextRecvSeq (UInt32.ofNat round.1) (UInt32.ofNat total)
        round.2 with
      | (.error error, reassembler) => (.error error, e.setSlot t id.number { slot with reassembler })
      | (.ok none, reassembler) =>
        (.ok [], (e.setSlot t id.number { slot with reassembler }).scheduleTimer .fragmentGap id
          kFragmentGapMs)
      | (.ok (some completed), reassembler) =>
        if completed.sequence ≠ slot.nextRecvSeq then
          (.error (makeError .message .sequenceError .resetChannel "DATA completed out of order"),
            e.setSlot t id.number { slot with reassembler })
        else
          ((e.setSlot t id.number { slot with reassembler, nextRecvSeq := slot.nextRecvSeq + 1 }).record
            .messageDelivered id completed.sequence completed.payload).dispatch id 7 completed := by
  obtain ⟨flow, hreserve, hrelease⟩ := FlowAccount.reserve_fits h.window hwindow
  obtain ⟨hseq, hoffset, htotal, hfamily⟩ := @extensionU32_fragment
    (dataFrame id slot.nextRecvSeq total frameSeq round) slot.nextRecvSeq round.1 total rfl
  rw [← h.flow] at hreserve hrelease
  unfold handleData
  rw [h.channels]
  dsimp only
  rw [if_neg (not_not.mpr h.ready.active), show (dataFrame id slot.nextRecvSeq total frameSeq round).channel =
    id from rfl, h.found]
  dsimp only
  rw [if_neg (by simp [h.remoteOpen]), hseq, hoffset, htotal, hfamily]
  dsimp only
  rw [if_neg (UInt32.lt_irrefl _), show (dataFrame id slot.nextRecvSeq total frameSeq round).payload =
    round.2 from rfl, hreserve]
  dsimp only
  rw [hrelease]
  rcases slot.reassembler.insert id slot.nextRecvSeq (UInt32.ofNat round.1) (UInt32.ofNat total)
    round.2 with ⟨_ | _ | completed, reassembler⟩
  · rfl
  · rfl
  · rfl

/-- A frame of the negotiated limit is read whole. -/
theorem Ready.receives_frame {e : ConnectionEngine} {caps : CapabilitySet} (h : Ready e caps)
    {codec : FrameCodec} (hclear : codec.Clear) {frame : Frame} {encoded : Bytes}
    (hencode : codec.encode frame = .ok encoded) (hsize : encoded.length ≤ e.codec.limits.maxFrame)
    (hknown : frame.KnownRequired) :
    e.receive encoded false = e.handleEvent (.frame frame.canonical) := by
  have hsame := FrameCodec.encode_relimit hencode (by rw [hclear.header, h.codec.header]) hsize
  exact receive_one h.codec hsame hknown

/-- A DATA frame before the last of its message is stored without an answer. -/
theorem Assembling.stored {e : ConnectionEngine} {caps : CapabilitySet} {t : ChannelTable}
    {id : ChannelId} {slot : ChannelSlot} {total : Nat} {fragments : List Bytes}
    (h : Assembling e caps t id slot total fragments) {round : Nat × Bytes} (hne : round.2 ≠ [])
    (hround : round.1 = fragments.flatten.length) (hwindow : round.2.length ≤ t.channelWindow)
    (hmore : fragments.flatten.length + round.2.length < total) (frameSeq : UInt32) :
    ∃ reassembler timers, reassembler.maxMessage = slot.reassembler.maxMessage ∧
      e.handleEvent (.frame (dataFrame id slot.nextRecvSeq total frameSeq round)) =
        (.ok [], { e.setSlot t id.number { slot with reassembler } with timers }) ∧
      Assembling { e.setSlot t id.number { slot with reassembler } with timers } caps
        (t.setSlot id.number { slot with reassembler }) id { slot with reassembler } total
        (fragments ++ [round.2]) := by
  have htotal : (UInt32.ofNat total).toNat = total := by
    rw [UInt32.toNat_ofNat']
    exact Nat.mod_eq_of_lt h.small
  obtain ⟨hslot, hgeneration, hlive⟩ := ChannelTable.find_eq_some.mp h.found
  have hmax := h.max
  obtain ⟨reassembler, hsame, hinsert⟩ := h.holds.insert id hne (by omega) (by omega)
  rw [htotal, if_pos hmore, ← hround] at hinsert
  obtain ⟨hinsert, hholds⟩ := hinsert
  refine ⟨reassembler, ((e.setSlot t id.number { slot with reassembler }).scheduleTimer .fragmentGap id
    kFragmentGapMs).timers, hsame, ?_, ?_⟩
  · have hhandled := h.handleData_eq hwindow frameSeq
    rw [hinsert] at hhandled
    exact handleEvent_ok hhandled
  · refine ⟨h.ready.of_same rfl rfl rfl rfl rfl rfl, rfl, ?_, h.remoteOpen,
      h.window, h.flow, hholds, by rw [hsame]; exact h.max, h.small⟩
    exact ChannelTable.find_eq_some.mpr ⟨ChannelTable.slot?_setSlot hslot _, hgeneration, hlive⟩

/-- What a whole message leaves at its receiver. -/
structure Received (e e' : ConnectionEngine) (caps : CapabilitySet) (t : ChannelTable) (id : ChannelId)
    (slot : ChannelSlot) (payload : Bytes) : Prop where
  ready : Ready e' caps
  hello : e'.localHello = e.localHello
  channels : ∃ reassembler sequence total, reassembler.maxMessage = slot.reassembler.maxMessage ∧
    reassembler.Holds sequence total [] ∧ e'.channels = some (t.setSlot id.number
      { slot with reassembler, nextRecvSeq := slot.nextRecvSeq + 1 })
  messages : messages e'.events = messages e.events ++ [(id, payload)]

/-- The last DATA frame of a message delivers it. -/
theorem Assembling.completed {e : ConnectionEngine} {caps : CapabilitySet} {t : ChannelTable}
    {id : ChannelId} {slot : ChannelSlot} {total : Nat} {fragments : List Bytes}
    (h : Assembling e caps t id slot total fragments) {round : Nat × Bytes} (hne : round.2 ≠ [])
    (hround : round.1 = fragments.flatten.length) (hwindow : round.2.length ≤ t.channelWindow)
    (hlast : fragments.flatten.length + round.2.length = total) (frameSeq : UInt32)
    (hclose : e.answersClose { channel := id, sequence := slot.nextRecvSeq
                               payload := fragments.flatten ++ round.2 } = false) :
    Received e (e.handleEvent (.frame (dataFrame id slot.nextRecvSeq total frameSeq round))).2 caps t id
      slot (fragments.flatten ++ round.2) := by
  have htotal : (UInt32.ofNat total).toNat = total := by
    rw [UInt32.toNat_ofNat']
    exact Nat.mod_eq_of_lt h.small
  have hmax := h.max
  obtain ⟨reassembler, hsame, hinsert⟩ := h.holds.insert id hne (by omega) (by omega)
  rw [htotal, if_neg (by omega), ← hround] at hinsert
  obtain ⟨hinsert, hholds⟩ := hinsert
  let slot' : ChannelSlot := { slot with reassembler, nextRecvSeq := slot.nextRecvSeq + 1 }
  let completed : LogicalMessage :=
    { channel := id, sequence := slot.nextRecvSeq, payload := fragments.flatten ++ round.2 }
  let e' := (e.setSlot t id.number slot').record .messageDelivered id slot.nextRecvSeq completed.payload
  have hhandled : e.handleFrame (dataFrame id slot.nextRecvSeq total frameSeq round) =
      e'.dispatch id 7 completed := by
    change e.handleData _ = _
    rw [h.handleData_eq hwindow frameSeq, hinsert]
    exact if_neg (by simp)
  obtain ⟨executor, nextPluginToken, more, hmoves, hmore⟩ := dispatch_moves e' id 7 completed
  have hready : ∀ events, Ready { e' with executor, nextPluginToken, events } caps := fun events =>
    h.ready.of_same rfl rfl rfl rfl rfl rfl
  have hmessages : messages (e'.events ++ more) = messages e.events ++ [(id, completed.payload)] := by
    rw [messages_append, messages_none hmore, List.append_nil]
    change messages (e.events ++ _) = _
    rw [messages_append]
    rfl
  rcases hdispatch : e'.dispatch id 7 completed with ⟨error | _, after⟩
  · have haction := dispatch_error (congrArg Prod.fst hdispatch) hclose
    rw [handleEvent_refused (hhandled.trans hdispatch) haction]
    rw [hdispatch] at hmoves
    obtain rfl : after = _ := hmoves
    refine ⟨hready _, rfl, ⟨reassembler, _, _, hsame, hholds, rfl⟩, ?_⟩
    change messages (e'.events ++ more ++ _) = _
    have hnone : messages [{ kind := .diagnostic, error := some error }] = [] := messages_none (by simp)
    rw [messages_append, hmessages, hnone, List.append_nil]
  · rw [handleEvent_ok (hhandled.trans hdispatch)]
    rw [hdispatch] at hmoves
    obtain rfl : after = _ := hmoves
    exact ⟨hready _, rfl, ⟨reassembler, _, _, hsame, hholds, rfl⟩, hmessages⟩

/-- The engine after it has received the chunks, one by one. -/
def receiveAll (e : ConnectionEngine) (chunks : List Bytes) : ConnectionEngine :=
  chunks.foldl (fun e chunk => (e.receive chunk false).2) e

/-- The chunks of the rounds of one `send` deliver the message that they make up. -/
theorem Assembling.receives {codec : FrameCodec} (hclear : codec.Clear) {caps : CapabilitySet}
    {id : ChannelId} {total limit : Nat} {rounds : List (Nat × Bytes)} (hrounds : rounds ≠ [])
    {e : ConnectionEngine} {t : ChannelTable} {slot : ChannelSlot} {fragments : List Bytes}
    (h : Assembling e caps t id slot total fragments) (hlimit : limit ≤ e.codec.limits.maxFrame)
    (hchained : Chained fragments.flatten.length rounds)
    (hround : ∀ round ∈ rounds, round.2 ≠ [] ∧ round.2.length ≤ t.channelWindow)
    (htotal : fragments.flatten.length + (rounds.flatMap (·.2)).length = total)
    (hclose : e.answersClose { channel := id, sequence := slot.nextRecvSeq
                               payload := fragments.flatten ++ rounds.flatMap (·.2) } = false)
    {frameSeq : UInt32} {chunks : List Bytes}
    (hchunks : List.Forall₂ (fun frame chunk => codec.encode frame = .ok chunk ∧ chunk.length ≤ limit)
      (dataFrames id slot.nextRecvSeq total frameSeq rounds) chunks) :
    Received e (e.receiveAll chunks) caps t id slot (fragments.flatten ++ rounds.flatMap (·.2)) := by
  induction rounds generalizing e t slot fragments frameSeq chunks with
  | nil => exact absurd rfl hrounds
  | cons round rest ih =>
    obtain ⟨hstart, hrest⟩ := hchained
    obtain ⟨hne, hwindow⟩ := hround round (by simp)
    obtain ⟨chunk, more, ⟨hencode, hlength⟩, hmore, rfl⟩ := List.forall₂_cons_left_iff.mp hchunks
    have hreceive : (e.receive chunk false) =
        e.handleEvent (.frame (dataFrame id slot.nextRecvSeq total frameSeq round)) :=
      h.ready.receives_frame hclear hencode (Nat.le_trans hlength hlimit) (dataFrame_known _ _ _ _ _)
    unfold receiveAll
    rw [List.foldl_cons, hreceive]
    rw [List.flatMap_cons, List.length_append] at htotal
    rw [List.flatMap_cons] at hclose ⊢
    cases rest with
    | nil =>
      obtain rfl := List.forall₂_nil_left_iff.mp hmore
      rw [List.flatMap_nil, List.append_nil] at hclose ⊢
      exact h.completed hne hstart hwindow (by simpa using htotal) frameSeq hclose
    | cons next rest =>
      have hpos : 0 < ((next :: rest).flatMap (·.2)).length := by
        have := List.length_pos_iff.mpr (hround next (by simp)).1
        rw [List.flatMap_cons, List.length_append]
        omega
      obtain ⟨reassembler, timers, hsame, hhandled, hassembling⟩ :=
        h.stored hne hstart hwindow (by omega) frameSeq
      have hflatten : (fragments ++ [round.2]).flatten = fragments.flatten ++ round.2 := by simp
      rw [hhandled]
      have hreceived := @ih (List.cons_ne_nil _ _) _ _ _ _ hassembling hlimit
        (by rw [hflatten, List.length_append]; exact hrest)
        (fun other hother => hround other (List.mem_cons_of_mem _ hother))
        (by rw [hflatten, List.length_append]; omega)
        (by rw [hflatten, List.append_assoc]; exact hclose) _ _ hmore
      rw [hflatten, List.append_assoc] at hreceived
      obtain ⟨reassembler', sequence, total', hsame', hholds, hchannels⟩ := hreceived.channels
      refine ⟨hreceived.ready, hreceived.hello, ⟨reassembler', sequence, total', hsame'.trans hsame,
        hholds, ?_⟩, hreceived.messages⟩
      exact hchannels.trans (by rw [ChannelTable.setSlot_setSlot])

end ConnectionEngine

end LatticeGateway
