import LatticeGateway.SlotSearch
import Mathlib.Data.Set.Card

namespace LatticeGateway

open Runs

/-- The half-close flags that the state of a slot in use goes with. -/
def ChannelSlot.FlagsAgree (slot : ChannelSlot) : Prop :=
  match slot.state with
  | .opening | .open => slot.localHalfClosed = false ∧ slot.remoteHalfClosed = false
  | .localClosed => slot.localHalfClosed = true ∧ slot.remoteHalfClosed = false
  | .remoteClosed => slot.localHalfClosed = false ∧ slot.remoteHalfClosed = true
  | .closing => slot.localHalfClosed = true ∧ slot.remoteHalfClosed = true
  | .free | .tombstone => True

/-- The error of a result that is one. -/
def failureOf {α : Type} : Except Error α → Option Error
  | .ok _ => none
  | .error error => some error

/-- The error that an operation returns, when it fails. -/
def ChannelTable.failure (t : ChannelTable) : TableUse → Option Error
  | .call .allocate => failureOf t.allocate.1
  | .call (.acceptRemote id) => failureOf (t.acceptRemote id).1
  | .call (.activate id) => failureOf (t.activate id).1
  | .call (.halfClose id direction) => failureOf (t.halfClose id direction).1
  | .call (.reset id) => failureOf (t.reset id).1
  | .call (.retireTombstone id) => failureOf (t.retireTombstone id).1
  | .reserveSendSequence id => failureOf (t.reserveSendSequence id).1

/-- The slots of a table are well formed, and its operations treat them so. -/
structure ChannelTable.WellFormed (t : ChannelTable) : Prop where
  numbered : t.Numbered
  flags : ∀ slot ∈ t.slots, slot.FlagsAgree
  found : ∀ id slot, t.find id = some slot ↔
    slot ∈ t.slots ∧ slot.id = id ∧ slot.state ≠ .free ∧ slot.state ≠ .tombstone
  counted : {id | t.find id ≠ none}.encard = t.liveCount
  unchanged : ∀ use, t.failure use ≠ none → t.use use = t

/-- What an operation makes of the slot of index `i`. -/
inductive SlotMove (t : ChannelTable) (i : Nat) (slot : ChannelSlot) : ChannelSlot → Prop
  | opened {id state} (numbered : id.number.toNat = i + 1 ∨ id.number = slot.id.number)
      (fresh : state = .opening ∨ state = .open) : SlotMove t i slot (t.opened id state)
  | activated (opening : slot.state = .opening) : SlotMove t i slot { slot with state := .open }
  | reserved : SlotMove t i slot { slot with nextSendSeq := slot.nextSendSeq + 1 }
  | halfClosed (direction : Direction)
      (state : slot.state = .open ∨ slot.state = .localClosed ∨ slot.state = .remoteClosed) :
      SlotMove t i slot (slot.halfClosed direction)
  | buried : SlotMove t i slot (t.buried slot)
  | retired : SlotMove t i slot { slot with state := .free }

/-- What an operation returns and leaves behind: it fails and changes nothing, or it changes one slot. -/
inductive ChannelTable.Outcome {α : Type} (t : ChannelTable) : Except Error α × ChannelTable → Prop
  | failed (error : Error) : Outcome t (.error error, t)
  | moved (value : α) {i slot slot'} (found : t.slots[i]? = some slot) (move : SlotMove t i slot slot') :
      Outcome t (.ok value, t.setAt i slot')

section

variable {t : ChannelTable}

theorem ChannelTable.Outcome.of_slot {α : Type} {number : UInt32} {slot slot' : ChannelSlot}
    (h : t.slot? number = some slot) (move : SlotMove t (number.toNat - 1) slot slot') (value : α) :
    t.Outcome (.ok value, t.setSlot number slot') :=
  .moved value (ChannelTable.slot?_eq_some.mp h).2 move

theorem ChannelTable.Outcome.of_find {α : Type} {id : ChannelId} {slot slot' : ChannelSlot}
    (h : t.find id = some slot) (move : SlotMove t (id.number.toNat - 1) slot slot') (value : α) :
    t.Outcome (.ok value, t.setSlot id.number slot') :=
  .of_slot (ChannelTable.find_eq_some.mp h).1 move value

theorem allocate_outcome (t : ChannelTable) : t.Outcome t.allocate := by
  obtain ⟨⟨error, h⟩, _⟩ | ⟨i, slot, hslot, h⟩ := allocate_cases t <;> rw [h]
  · exact .failed error
  · exact .moved _ hslot.found (.opened (.inr rfl) (.inl rfl))

theorem acceptRemote_outcome (t : ChannelTable) (id : ChannelId) : t.Outcome (t.acceptRemote id) := by
  obtain ⟨error, h⟩ | ⟨slot, hslot, _, _, h⟩ := t.acceptRemote_cases id <;> rw [h]
  · exact .failed error
  · exact .of_slot hslot (.opened (.inl (ChannelTable.slot?_number hslot)) (.inr rfl)) _

theorem activate_outcome (t : ChannelTable) (id : ChannelId) : t.Outcome (t.activate id) := by
  obtain ⟨error, h⟩ | ⟨slot, hfind, hopening, h⟩ := t.activate_cases id <;> rw [h]
  · exact .failed error
  · exact .of_find hfind (.activated hopening) _

theorem reserveSendSequence_outcome (t : ChannelTable) (id : ChannelId) :
    t.Outcome (t.reserveSendSequence id) := by
  obtain ⟨error, h⟩ | ⟨slot, hfind, _, h⟩ := t.reserveSendSequence_cases id <;> rw [h]
  · exact .failed error
  · exact .of_find hfind .reserved _

theorem halfClose_outcome (t : ChannelTable) (id : ChannelId) (direction : Direction) :
    t.Outcome (t.halfClose id direction) := by
  obtain ⟨error, _, h, _⟩ | ⟨slot, hfind, hstate, h⟩ := t.halfClose_cases id direction <;> rw [h]
  · exact .failed error
  · exact .of_find hfind (.halfClosed direction hstate) _

theorem reset_outcome (t : ChannelTable) (id : ChannelId) : t.Outcome (t.reset id) := by
  obtain ⟨error, h, _⟩ | ⟨slot, hfind, h⟩ := t.reset_cases id <;> rw [h]
  · exact .failed error
  · exact .of_find hfind .buried _

theorem retireTombstone_outcome (t : ChannelTable) (id : ChannelId) :
    t.Outcome (t.retireTombstone id) := by
  obtain ⟨error, h⟩ | ⟨slot, hslot, h⟩ := t.retireTombstone_cases id <;> rw [h]
  · exact .failed error
  · exact .of_slot hslot .retired _

/-- What an operation returns and leaves behind is the outcome of one function. -/
theorem ChannelTable.use_outcome (t : ChannelTable) (use : TableUse) :
    ∃ (α : Type) (result : Except Error α × ChannelTable),
      t.Outcome result ∧ t.use use = result.2 ∧ t.failure use = failureOf result.1 := by
  cases use with
  | reserveSendSequence id => exact ⟨_, _, reserveSendSequence_outcome t id, rfl, rfl⟩
  | call call =>
    cases call with
    | allocate =>
      refine ⟨_, _, allocate_outcome t, ?_, rfl⟩
      unfold ChannelTable.use TableRun.step
      rcases t.allocate with ⟨_ | _, _⟩ <;> rfl
    | acceptRemote id =>
      refine ⟨_, _, acceptRemote_outcome t id, ?_, rfl⟩
      unfold ChannelTable.use TableRun.step
      dsimp only
      rcases t.acceptRemote id with ⟨_ | _, _⟩ <;> rfl
    | activate id => exact ⟨_, _, activate_outcome t id, rfl, rfl⟩
    | halfClose id direction => exact ⟨_, _, halfClose_outcome t id direction, rfl, rfl⟩
    | reset id => exact ⟨_, _, reset_outcome t id, rfl, rfl⟩
    | retireTombstone id => exact ⟨_, _, retireTombstone_outcome t id, rfl, rfl⟩

/-- An operation that fails changes nothing. -/
theorem ChannelTable.use_unchanged {use : TableUse} (h : t.failure use ≠ none) : t.use use = t := by
  obtain ⟨α, result, houtcome, huse, hfailure⟩ := t.use_outcome use
  rw [hfailure] at h
  rw [huse]
  cases houtcome with
  | failed error => rfl
  | moved value found move => exact absurd rfl h

theorem ChannelSlot.halfClosed_flags {slot : ChannelSlot} (h : slot.FlagsAgree) (direction : Direction)
    (hstate : slot.state = .open ∨ slot.state = .localClosed ∨ slot.state = .remoteClosed) :
    (slot.halfClosed direction).FlagsAgree := by
  rcases hstate with hstate | hstate | hstate <;> simp only [FlagsAgree, hstate] at h <;>
    obtain ⟨hlocal, hremote⟩ := h <;> cases direction <;>
    simp [FlagsAgree, halfClosed, hlocal, hremote]

/-- Whatever an operation makes of a slot has flags that agree with its state, and the slot's number. -/
theorem SlotMove.agrees {i : Nat} {slot slot' : ChannelSlot} (move : SlotMove t i slot slot')
    (hflags : slot.FlagsAgree) (hnumber : slot.id.number.toNat = i + 1) :
    slot'.FlagsAgree ∧ slot'.id.number.toNat = i + 1 := by
  cases move with
  | opened numbered fresh =>
    -- an opening clears both flags, whatever an earlier life of the slot has left in them
    refine ⟨?_, ?_⟩
    · rcases fresh with rfl | rfl <;> exact ⟨rfl, rfl⟩
    · rcases numbered with hindex | hsame
      · exact hindex
      · exact (congrArg UInt32.toNat hsame).trans hnumber
  | activated opening =>
    simp only [ChannelSlot.FlagsAgree, opening] at hflags
    exact ⟨hflags, hnumber⟩
  | reserved => exact ⟨hflags, hnumber⟩
  | halfClosed direction state =>
    refine ⟨ChannelSlot.halfClosed_flags hflags direction state, ?_⟩
    cases direction <;> exact hnumber
  | buried => exact ⟨trivial, hnumber⟩
  | retired => exact ⟨trivial, hnumber⟩

/-- The part of the invariant that the operations carry on: the rest follows from it. -/
structure ChannelTable.SlotsAgree (t : ChannelTable) (slots : Nat) : Prop where
  length : t.slots.length = slots
  numbered : t.Numbered
  flags : ∀ slot ∈ t.slots, slot.FlagsAgree

theorem ChannelTable.SlotsAgree.setAt {slots i : Nat} {slot slot' : ChannelSlot} (h : t.SlotsAgree slots)
    (hslot : t.slots[i]? = some slot) (move : SlotMove t i slot slot') :
    (t.setAt i slot').SlotsAgree slots := by
  obtain ⟨hflags, hnumber⟩ :=
    move.agrees (h.flags slot (List.mem_of_getElem? hslot)) (h.numbered i slot hslot)
  refine ⟨?_, h.numbered.setAt hnumber, ?_⟩
  · rw [← h.length]
    exact List.length_set
  · intro other hother
    rcases List.mem_or_eq_of_mem_set hother with hold | rfl
    · exact h.flags other hold
    · exact hflags

theorem ChannelTable.SlotsAgree.use {slots : Nat} (h : t.SlotsAgree slots) (use : TableUse) :
    (t.use use).SlotsAgree slots := by
  obtain ⟨α, result, houtcome, huse, _⟩ := t.use_outcome use
  rw [huse]
  cases houtcome with
  | failed error => exact h
  | moved value found move => exact h.setAt found move

theorem slotsAgree_make (maxChannels : UInt16) (channelWindow maxMessage : Nat) :
    (ChannelTable.make maxChannels channelWindow maxMessage).SlotsAgree maxChannels.toNat := by
  refine ⟨by simp [ChannelTable.make], fun i slot hslot => (ChannelTable.make_slots hslot).1, ?_⟩
  intro slot hmem
  obtain ⟨i, hslot⟩ := List.mem_iff_getElem?.mp hmem
  simp [ChannelSlot.FlagsAgree, (ChannelTable.make_slots hslot).2.2]

theorem ChannelTable.Numbered.find_iff (h : t.Numbered) {id : ChannelId} {slot : ChannelSlot} :
    t.find id = some slot ↔
      slot ∈ t.slots ∧ slot.id = id ∧ slot.state ≠ .free ∧ slot.state ≠ .tombstone := by
  rw [ChannelTable.find_eq_some, ChannelSlot.live_iff]
  constructor
  · rintro ⟨hslot, hgeneration, hlive⟩
    have hnumber := h.number hslot
    obtain ⟨_, hget⟩ := ChannelTable.slot?_eq_some.mp hslot
    have hid : slot.id = id := by
      calc slot.id = ⟨slot.id.number, slot.id.generation⟩ := rfl
        _ = id := by rw [hnumber, hgeneration]
    exact ⟨List.mem_of_getElem? hget, hid, hlive⟩
  · rintro ⟨hmem, rfl, hlive⟩
    obtain ⟨i, hget⟩ := List.mem_iff_getElem?.mp hmem
    exact ⟨h.slot? hget, rfl, hlive⟩

theorem ChannelTable.Numbered.nodup (h : t.Numbered) : (t.slots.map (·.id)).Nodup := by
  refine List.pairwise_iff_getElem.mpr fun i j hi hj hij heq => ?_
  rw [List.length_map] at hi hj
  rw [List.getElem_map, List.getElem_map] at heq
  have hfirst := h i _ (List.getElem?_eq_getElem hi)
  have hsecond := h j _ (List.getElem?_eq_getElem hj)
  rw [heq] at hfirst
  omega

/-- The live slots have different ids, and these are the ids that `find` accepts. -/
theorem ChannelTable.Numbered.counted (h : t.Numbered) :
    {id | t.find id ≠ none}.encard = t.liveCount := by
  have hids : {id | t.find id ≠ none} =
      (((t.slots.filter (·.live)).map (·.id)).toFinset : Set ChannelId) := by
    ext id
    rw [Set.mem_ofPred_eq, Option.ne_none_iff_exists']
    simp only [h.find_iff, List.coe_toFinset, Set.mem_ofPred_eq, List.mem_map, List.mem_filter,
      ChannelSlot.live_iff]
    constructor
    · rintro ⟨slot, hmem, hid, hlive⟩
      exact ⟨slot, ⟨hmem, hlive⟩, hid⟩
    · rintro ⟨slot, ⟨hmem, hlive⟩, hid⟩
      exact ⟨slot, hmem, hid, hlive⟩
  have hdistinct : ((t.slots.filter (·.live)).map (·.id)).Nodup :=
    h.nodup.sublist (List.filter_sublist.map _)
  rw [hids, Set.encard_coe_eq_coe_finsetCard, List.toFinset_card_of_nodup hdistinct, List.length_map,
    ← List.countP_eq_length_filter]
  rfl

theorem ChannelTable.SlotsAgree.wellFormed {slots : Nat} (h : t.SlotsAgree slots) : t.WellFormed :=
  ⟨h.numbered, h.flags, fun _ _ => h.numbered.find_iff, h.numbered.counted,
    fun _ => ChannelTable.use_unchanged⟩

end

/-- In every state that a table reaches, its slots are well formed, as many as it was made with. -/
theorem slots_well_formed (maxChannels : UInt16) (channelWindow maxMessage : Nat) (uses : List TableUse) :
    (run ChannelTable.use (.make maxChannels channelWindow maxMessage) uses).slots.length =
        maxChannels.toNat ∧
      (run ChannelTable.use (.make maxChannels channelWindow maxMessage) uses).WellFormed := by
  have hagree : (run ChannelTable.use (.make maxChannels channelWindow maxMessage) uses).SlotsAgree
      maxChannels.toNat :=
    run_induction (I := fun t : ChannelTable => t.SlotsAgree maxChannels.toNat)
      (fun _ use h => h.use use) uses (slotsAgree_make maxChannels channelWindow maxMessage)
  exact ⟨hagree.length, hagree.wellFormed⟩

end LatticeGateway
