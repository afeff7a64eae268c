import LatticeGateway.ReceiveSteps

namespace LatticeGateway

/-- What a frame may make of the table: nothing, a change of the live slot that has its id, or the
opening of a free slot whose next id it is. -/
inductive Touched (t : ChannelTable) (frame : Frame) : ChannelTable → Prop
  | same : Touched t frame t
  | live {slot} (found : t.find frame.channel = some slot) (slot' : ChannelSlot) :
    Touched t frame (t.setSlot frame.channel.number slot')
  | opened {slot} (type : frame.type = .open) (found : t.slot? frame.channel.number = some slot)
      (free : slot.state = .free) (next : frame.channel.generation = slot.id.generation + 1) :
    Touched t frame (t.setSlot frame.channel.number (t.opened frame.channel .open))

theorem acceptRemote_touched (t : ChannelTable) {frame : Frame} (h : frame.type = .open) :
    Touched t frame (t.acceptRemote frame.channel).2 := by
  obtain ⟨error, haccept⟩ | ⟨slot, hslot, hfree, hnext, haccept⟩ :=
    t.acceptRemote_cases frame.channel <;> rw [haccept]
  · exact .same
  · exact .opened h hslot hfree hnext

theorem halfClose_touched (t : ChannelTable) (frame : Frame) (direction : Direction) :
    Touched t frame (t.halfClose frame.channel direction).2 := by
  obtain ⟨error, _, h, _⟩ | ⟨slot, hfind, _, h⟩ := t.halfClose_cases frame.channel direction <;> rw [h]
  · exact .same
  · exact .live hfind _

theorem reset_touched (t : ChannelTable) (frame : Frame) :
    Touched t frame (t.reset frame.channel).2 := by
  obtain ⟨error, h, _⟩ | ⟨slot, hfind, h⟩ := t.reset_cases frame.channel <;> rw [h]
  · exact .same
  · exact .live hfind _

namespace ConnectionEngine

/-- The engine keeps its table, but for what the frame may touch. -/
def Touches (e : ConnectionEngine) (frame : Frame) (e' : ConnectionEngine) : Prop :=
  ∀ t, e.channels = some t → ∃ t', e'.channels = some t' ∧ Touched t frame t'

theorem Touches.of_eq {e e' : ConnectionEngine} {frame : Frame} (h : e'.channels = e.channels) :
    Touches e frame e' :=
  fun t ht => ⟨t, h.trans ht, .same⟩

theorem Touches.table {e e' : ConnectionEngine} {frame : Frame} {t t' : ChannelTable}
    (ht : e.channels = some t) (ht' : e'.channels = some t') (h : Touched t frame t') :
    Touches e frame e' := by
  intro found hfound
  rw [ht] at hfound
  cases hfound
  exact ⟨t', ht', h⟩

theorem handleOpen_touches (e : ConnectionEngine) {frame : Frame} (h : frame.type = .open) :
    Touches e frame (e.handleOpen frame).2 := by
  unfold handleOpen
  dsimp only
  split
  next t capabilities ht _ =>
    have htouched := acceptRemote_touched t h
    split
    next => exact .of_eq rfl
    next =>
      split
      next => exact .of_eq rfl
      next =>
        split
        next => exact .of_eq rfl
        next =>
          split
          next haccept =>
            rw [haccept] at htouched
            exact .table ht rfl htouched
          next haccept =>
            rw [haccept] at htouched
            exact .table ht rfl htouched
  next => exact .of_eq rfl

theorem dispatch_channels (e : ConnectionEngine) (channel : ChannelId) (family : UInt32)
    (completed : LogicalMessage) : (e.dispatch channel family completed).2.channels = e.channels := by
  obtain ⟨_, _, _, hmoves, _⟩ := dispatch_moves e channel family completed
  rw [hmoves]

theorem handleData_touches (e : ConnectionEngine) (frame : Frame) :
    Touches e frame (e.handleData frame).2 := by
  unfold handleData
  split
  next => exact .of_eq rfl
  next t ht =>
    split
    next => exact .of_eq rfl
    next =>
      split
      next => exact .of_eq rfl
      next slot hfind =>
        split
        next => exact .of_eq rfl
        next =>
          split
          next seq offset total family _ _ _ _ =>
            split
            next => exact .of_eq rfl
            next =>
              split
              next => exact .table ht rfl (.live hfind _)
              next flow _ =>
                generalize slot.reassembler.insert frame.channel seq offset total frame.payload =
                  inserted
                obtain ⟨message, reassembler⟩ := inserted
                dsimp only
                split
                next => exact .table ht rfl (.live hfind _)
                next => exact .table ht rfl (.live hfind _)
                next completed =>
                  split
                  next => exact .table ht rfl (.live hfind _)
                  next => exact .table ht (dispatch_channels _ _ _ _) (.live hfind _)
          next => exact .of_eq rfl

theorem handleCredit_touches (e : ConnectionEngine) (frame : Frame) :
    Touches e frame (e.handleCredit frame).2 := by
  unfold handleCredit
  dsimp only
  split
  next => exact .of_eq rfl
  next t ht =>
    split
    next => exact .of_eq rfl
    next =>
      split
      next => exact .of_eq rfl
      next =>
        split
        next => exact .of_eq rfl
        next slot hfind => split <;> exact .table ht rfl (.live hfind _)

theorem handleHalfClose_touches (e : ConnectionEngine) (frame : Frame) :
    Touches e frame (e.handleHalfClose frame).2 := by
  unfold handleHalfClose
  dsimp only
  split
  next => exact .of_eq rfl
  next t ht =>
    split
    next => exact .of_eq rfl
    next =>
      have htouched := halfClose_touched t frame
        (if byteAt frame.payload 0 = 0 then Direction.remoteSend else .localSend)
      split
      next hclose =>
        rw [hclose] at htouched
        exact .table ht rfl htouched
      next hclose =>
        rw [hclose] at htouched
        exact .table ht rfl htouched

theorem handleReset_touches (e : ConnectionEngine) (frame : Frame) :
    Touches e frame (e.handleReset frame).2 := by
  intro t ht
  refine ⟨(t.reset frame.channel).2, ?_, reset_touched t frame⟩
  simp [handleReset, record, ht]

theorem handleAck_channels (e : ConnectionEngine) (frame : Frame) :
    (e.handleAck frame).2.channels = e.channels := by
  unfold handleAck
  repeat' split
  all_goals rfl

theorem handlePing_channels (e : ConnectionEngine) (frame : Frame) :
    (e.handlePing frame).2.channels = e.channels := by
  unfold handlePing
  split
  next => rfl
  next =>
    split
    next => rfl
    next => exact (emitFrame_sent _ _ _ _ _).channels

theorem handlePong_channels (e : ConnectionEngine) (frame : Frame) :
    (e.handlePong frame).2.channels = e.channels := by
  unfold handlePong
  repeat' split
  all_goals rfl

/-- Of the eleven types only five touch the table, each in its own way. -/
theorem handleFrame_touches {e : ConnectionEngine} (hi : Unopened e) (frame : Frame) :
    Touches e frame (e.handleFrame frame).2 := by
  unfold handleFrame
  cases htype : frame.type with
  | hello =>
    -- with a table there, the HELLO exchange is over
    rcases handleHello_cases e frame with ⟨error, h⟩ | ⟨_, _, hnegotiating, _, _, _⟩
    · exact .of_eq (by dsimp only; rw [h])
    · intro t ht
      rw [hi (.inr hnegotiating)] at ht
      cases ht
  | «open» => exact handleOpen_touches e htype
  | data => exact handleData_touches e frame
  | ack => exact .of_eq (handleAck_channels e frame)
  | credit => exact handleCredit_touches e frame
  | ping => exact .of_eq (handlePing_channels e frame)
  | pong => exact .of_eq (handlePong_channels e frame)
  | resume =>
    rcases handleResume_cases e frame with ⟨error, h⟩ | ⟨_, out, h⟩
    · exact .of_eq (by dsimp only; rw [h])
    · exact .of_eq (by dsimp only; rw [h]; rfl)
  | halfClose => exact handleHalfClose_touches e frame
  | reset => exact handleReset_touches e frame
  | goaway => exact .of_eq rfl

end ConnectionEngine

/-- Slot `i` is the one of channel `i + 1`, and a free slot has never been opened. -/
structure NeverRetired (t : ChannelTable) : Prop where
  numbered : t.Numbered
  unused : ∀ (i : Nat) (slot : ChannelSlot), t.slots[i]? = some slot → slot.state = .free →
    slot.id.generation = 0

theorem NeverRetired.make (maxChannels : UInt16) (channelWindow maxMessage : Nat) :
    NeverRetired (.make maxChannels channelWindow maxMessage) :=
  ⟨fun _ _ hslot => (ChannelTable.make_slots hslot).1,
    fun _ _ hslot _ => (ChannelTable.make_slots hslot).2.1⟩

theorem NeverRetired.setAt {t : ChannelTable} (h : NeverRetired t) {i : Nat} {slot slot' : ChannelSlot}
    (found : t.slots[i]? = some slot) (number : slot'.id.number.toNat = i + 1)
    (unused : slot'.state = .free → slot'.id.generation = 0) : NeverRetired (t.setAt i slot') := by
  refine ⟨h.numbered.setAt number, ?_⟩
  intro j other hother
  rcases ChannelTable.setAt_cases hother with ⟨rfl, rfl⟩ | ⟨_, hold⟩
  · exact unused
  · exact h.unused j other hold

theorem NeverRetired.op {t t' : ChannelTable} (h : NeverRetired t) (op : TableOp t t') :
    NeverRetired t' := by
  cases op with
  | @update i slot slot' found busy keeps =>
    refine h.setAt found ?_ fun hfree => absurd (keeps.free.mp hfree) busy
    rw [keeps.id]
    exact h.numbered i slot found
  | @opened i slot id state found free busy generation numbered =>
    refine h.setAt found ?_ fun hfree => absurd hfree busy
    rcases numbered with hnumber | hsame
    · exact hnumber
    · exact (congrArg UInt32.toNat hsame).trans (h.numbered i slot found)

theorem NeverRetired.ops {t t' : ChannelTable} (h : NeverRetired t) (ops : TableOps t t') :
    NeverRetired t' :=
  ops.invariant (fun _ _ h op => h.op op) h

theorem NeverRetired.delivery {t : ChannelTable} (h : NeverRetired t) {id : ChannelId}
    {slot slot' : ChannelSlot} (hfind : t.find id = some slot)
    (hslot : ConnectionEngine.SlotDelivers t slot slot') : NeverRetired (t.setSlot id.number slot') := by
  obtain ⟨hfound, _, hlive⟩ := ChannelTable.find_eq_some.mp hfind
  obtain ⟨_, hget⟩ := ChannelTable.slot?_eq_some.mp hfound
  refine NeverRetired.setAt h hget ?_ fun hfree => ?_
  · rw [hslot.id]
    exact h.numbered _ slot hget
  · rw [hslot.state] at hfree
    exact absurd hfree (ChannelSlot.live_iff.mp hlive).1

namespace ConnectionEngine

/-- An engine whose table, if it has one, was made when the HELLO exchange ended. -/
structure Tabled (e : ConnectionEngine) : Prop where
  early : e.Unopened
  table : ∀ t, e.channels = some t → NeverRetired t

theorem Tabled.silent {e e' : ConnectionEngine} (hi : Tabled e) (h : Silent e e') : Tabled e' := by
  refine ⟨hi.early.silent h, fun t' ht' => ?_⟩
  have hchannels := h.channels
  rw [ht'] at hchannels
  cases ht : e.channels with
  | none =>
    rw [ht] at hchannels
    cases hchannels
  | some t =>
    rw [ht] at hchannels
    obtain ⟨ops⟩ := hchannels
    exact (hi.table t ht).ops ops

theorem Tabled.step {e e' : ConnectionEngine} (hi : Tabled e) (h : Step e e') : Tabled e' := by
  cases h with
  | silent h => exact hi.silent h
  | @hello _ _ capabilities _ _ _ h =>
    have hnegotiated : Tabled (e.negotiated capabilities) := by
      refine ⟨?_, fun t ht => ?_⟩
      · rintro (hstate | hstate) <;> cases hstate
      · cases ht
        exact .make _ _ _
    exact hnegotiated.silent h
  | delivers h =>
    obtain ⟨t, id, slot, slot', payload, ht, hactive, hfind, hremote, hslot, h⟩ := h
    have hstep : Step e (e.delivered t id slot slot' payload) :=
      .delivers ⟨t, id, slot, slot', payload, ht, hactive, hfind, hremote, hslot, .refl _⟩
    have hdelivered : Tabled (e.delivered t id slot slot' payload) := by
      refine ⟨hi.early.step hstep, fun t' ht' => ?_⟩
      cases ht'
      exact (hi.table t ht).delivery hfind hslot
    exact hdelivered.silent h

end ConnectionEngine

/-- The slots with other numbers than that of the frame stay as they are. A frame whose id no live slot
has leaves the table alone, unless it opens a free slot under the generation after its own. -/
structure Isolated (t : ChannelTable) (frame : Frame) (t' : ChannelTable) : Prop where
  others : ∀ (i : Nat) (slot : ChannelSlot), t.slots[i]? = some slot →
    slot.id.number ≠ frame.channel.number → t'.slots[i]? = some slot
  size : t'.slots.length = t.slots.length
  stale : (∀ slot ∈ t.slots, slot.live = true → slot.id ≠ frame.channel) → t' = t ∨
    frame.type = .open ∧ ∃ slot ∈ t.slots, slot.id.number = frame.channel.number ∧
      slot.state = .free ∧ frame.channel.generation.toNat = slot.id.generation.toNat + 1

theorem NeverRetired.setSlot_other {t : ChannelTable} (h : NeverRetired t) {number : UInt32}
    {slot : ChannelSlot} (found : t.slot? number = some slot) (slot' : ChannelSlot) {i : Nat}
    {other : ChannelSlot} (hother : t.slots[i]? = some other) (hnumber : other.id.number ≠ number) :
    (t.setSlot number slot').slots[i]? = some other := by
  obtain ⟨_, hget⟩ := ChannelTable.slot?_eq_some.mp found
  change (t.setAt (number.toNat - 1) slot').slots[i]? = some other
  by_cases hi : i = number.toNat - 1
  · subst hi
    rw [hget] at hother
    cases hother
    exact absurd (h.numbered.number found) hnumber
  · rw [ChannelTable.setAt_slot_ne t hi]
    exact hother

theorem Touched.isolated {t t' : ChannelTable} {frame : Frame} (h : Touched t frame t')
    (hretired : NeverRetired t) : Isolated t frame t' := by
  cases h with
  | same => exact ⟨fun _ _ hslot _ => hslot, rfl, fun _ => .inl rfl⟩
  | @live slot found slot' =>
    obtain ⟨hslot, hgeneration, hlive⟩ := ChannelTable.find_eq_some.mp found
    refine ⟨fun i other hother => hretired.setSlot_other hslot slot' hother, List.length_set, ?_⟩
    intro hstale
    obtain ⟨_, hget⟩ := ChannelTable.slot?_eq_some.mp hslot
    refine absurd ?_ (hstale slot (List.mem_of_getElem? hget) hlive)
    calc slot.id = ⟨slot.id.number, slot.id.generation⟩ := rfl
      _ = ⟨frame.channel.number, frame.channel.generation⟩ := by
        rw [hretired.numbered.number hslot, hgeneration]
  | @opened slot type found free next =>
    obtain ⟨_, hget⟩ := ChannelTable.slot?_eq_some.mp found
    refine ⟨fun i other hother => hretired.setSlot_other found _ hother, List.length_set, ?_⟩
    intro _
    refine .inr ⟨type, slot, List.mem_of_getElem? hget, hretired.numbered.number found, free, ?_⟩
    rw [next, hretired.unused _ slot hget free]
    rfl

namespace ConnectionEngine

/-- Whatever an engine has been through, a frame touches at most the slot that it names, and a stale
frame touches none. -/
theorem frame_isolated (policy : LocalPolicy) (registry : PluginRegistry)
    (executor : Option (DeterministicExecutor EngineTask)) (calls : List Call) :
    ∀ e ∈ make policy registry executor :: (make policy registry executor).visited calls,
      ∀ t, e.channels = some t → ∀ frame, ∃ t', (e.handleFrame frame).2.channels = some t' ∧
        Isolated t frame t' := by
  have hmake : Tabled (make policy registry executor) :=
    ⟨fun _ => rfl, fun _ h => (Option.some_ne_none _ h.symm).elim⟩
  have hstep : ∀ e e' : ConnectionEngine, Tabled e → Step e e' → Tabled e' := fun _ _ hi h => hi.step h
  obtain ⟨hall, _⟩ := Runs.isChain_invariant hstep hmake
    (visited_steps (make policy registry executor) calls).1
  intro e he t ht frame
  obtain ⟨t', ht', htouched⟩ := handleFrame_touches (hall e he).early frame t ht
  exact ⟨t', ht', htouched.isolated ((hall e he).table t ht)⟩

/-- An engine that has opened a channel. -/
def opened : ConnectionEngine := Runs.run call (make {} echoRegistry none) (negotiation {} ++ [.openChannel {}])

/-- A RESET of a generation that is not there leaves the live channel of that number alone. -/
theorem frame_isolated_late : ∃ t t', opened.channels = some t ∧ (t.find ⟨1, 1⟩).isSome = true ∧
    (t.find ⟨1, 9⟩).isNone = true ∧
    (opened.handleFrame { type := .reset, channel := ⟨1, 9⟩ }).2.channels = some t' ∧
    Isolated t { type := .reset, channel := ⟨1, 9⟩ } t' := by
  have hlive : ∃ t ∈ opened.channels, (t.find ⟨1, 1⟩).isSome = true ∧ (t.find ⟨1, 9⟩).isNone = true := by
    have hany : opened.channels.any (fun t => (t.find ⟨1, 1⟩).isSome && (t.find ⟨1, 9⟩).isNone) = true := by
      decide +kernel
    obtain ⟨t, ht, hfound⟩ := Option.any_eq_true _ _ |>.mp hany
    exact ⟨t, ht, Bool.and_eq_true_iff.mp hfound⟩
  obtain ⟨t, ht, hone, hnine⟩ := hlive
  obtain ⟨t', ht', hisolated⟩ :=
    frame_isolated {} echoRegistry none (negotiation {} ++ [.openChannel {}]) opened
      (List.mem_of_getLast? (visited_steps (make {} echoRegistry none) (negotiation {} ++ [.openChannel {}])).2)
      t ht { type := .reset, channel := ⟨1, 9⟩ }
  exact ⟨t, t', ht, hone, hnine, ht', hisolated⟩

end ConnectionEngine

end LatticeGateway
