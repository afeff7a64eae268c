import LatticeGateway.ChannelState
import Mathlib.Logic.Relation

namespace LatticeGateway

theorem FlowAccount.reserve_error {flow flow' : FlowAccount} {amount : Nat} {error : Error}
    (h : flow.reserve amount = (.error error, flow')) : flow' = flow := by
  unfold FlowAccount.reserve at h
  repeat' split at h
  all_goals cases h
  rfl

/-- A full account is full again when what was reserved is released. -/
theorem FlowAccount.release_reserve {window amount : Nat} {flow : FlowAccount}
    (hwindow : window < 2 ^ 64)
    (h : (FlowAccount.ofWindow window).reserve amount = (.ok (), flow)) :
    flow.release amount = (.ok (), .ofWindow window) := by
  unfold FlowAccount.reserve FlowAccount.ofWindow at h
  dsimp only at h
  split at h
  next hzero =>
    cases h
    subst hzero
    have hadd : checkedAdd window 0 = some window := checkedAdd_of_lt (by omega)
    simp [FlowAccount.release, hadd, FlowAccount.ofWindow]
  next hpos =>
    split at h
    next => cases h
    next hle =>
      cases h
      have hmod : (0 + amount) % 2 ^ 64 = amount := by
        rw [Nat.zero_add]
        exact Nat.mod_eq_of_lt (by omega)
      unfold FlowAccount.release
      simp only [hmod]
      rw [if_neg (by omega), checkedAdd_of_lt (by omega)]
      simp only
      rw [if_neg (by omega)]
      have hsum : window - amount + amount = window := by omega
      simp only [FlowAccount.ofWindow, hsum, Nat.sub_self]

/-- A full account refuses every credit. -/
theorem FlowAccount.grant_full (window : Nat) {amount : Nat} (hamount : amount < 2 ^ 64) :
    ∃ error, (FlowAccount.ofWindow window).grant amount = (.error error, .ofWindow window) := by
  unfold FlowAccount.grant
  split
  next => exact ⟨_, rfl⟩
  next hpos =>
    dsimp only [FlowAccount.ofWindow]
    by_cases hfits : window + amount < 2 ^ 64
    · simp only [checkedAdd_of_lt hfits]
      have hover : (window + amount + 0) % 2 ^ 64 > window := by
        rw [Nat.add_zero, Nat.mod_eq_of_lt hfits]
        omega
      exact ⟨_, if_pos hover⟩
    · have hnone : checkedAdd window amount = none := if_pos (by omega)
      simp only [hnone]
      exact ⟨_, rfl⟩

theorem ChannelTable.slot?_setSlot {t : ChannelTable} {number : UInt32} {slot : ChannelSlot}
    (h : t.slot? number = some slot) (slot' : ChannelSlot) :
    (t.setSlot number slot').slot? number = some slot' := by
  unfold ChannelTable.slot? ChannelTable.setSlot at *
  split at h
  next => cases h
  next hzero =>
    rw [if_neg hzero]
    obtain ⟨hlt, _⟩ := List.getElem?_eq_some_iff.mp h
    exact List.getElem?_set_self hlt

theorem ChannelTable.slot?_setSlot_ne (t : ChannelTable) {number other : UInt32}
    (h : other ≠ number) (hnumber : number ≠ 0) (slot : ChannelSlot) :
    (t.setSlot number slot).slot? other = t.slot? other := by
  unfold ChannelTable.slot? ChannelTable.setSlot
  split
  next => rfl
  next hzero =>
    apply List.getElem?_set_ne
    intro heq
    apply h
    have hother : other.toNat ≠ 0 := fun h0 => hzero (UInt32.toNat_inj.mp h0)
    have hthis : number.toNat ≠ 0 := fun h0 => hnumber (UInt32.toNat_inj.mp h0)
    exact UInt32.toNat_inj.mp (by omega)

theorem ChannelTable.slot?_ne_zero {t : ChannelTable} {number : UInt32} {slot : ChannelSlot}
    (h : t.slot? number = some slot) : number ≠ 0 := by
  rintro rfl
  simp [ChannelTable.slot?] at h

theorem ChannelTable.setSlot_setSlot (t : ChannelTable) (number : UInt32) (slot slot' : ChannelSlot) :
    (t.setSlot number slot).setSlot number slot' = t.setSlot number slot' := by
  simp [ChannelTable.setSlot, List.set_set]

theorem ChannelTable.setSlot_self {t : ChannelTable} {number : UInt32} {slot : ChannelSlot}
    (h : t.slot? number = some slot) : t.setSlot number slot = t := by
  unfold ChannelTable.slot? at h
  split at h
  next => cases h
  next =>
    obtain ⟨hlt, hget⟩ := List.getElem?_eq_some_iff.mp h
    have hset : t.slots.set (number.toNat - 1) slot = t.slots := by
      rw [← hget]
      exact List.set_getElem_self hlt
    simp only [ChannelTable.setSlot, hset]

theorem ChannelTable.find_eq_some {t : ChannelTable} {id : ChannelId} {slot : ChannelSlot} :
    t.find id = some slot ↔
      t.slot? id.number = some slot ∧ slot.id.generation = id.generation ∧ slot.live = true := by
  unfold ChannelTable.find
  cases h : t.slot? id.number with
  | none => simp
  | some found =>
    by_cases hcond : found.id.generation ≠ id.generation ∨ found.live = false
    · simp only [if_pos hcond, reduceCtorEq, Option.some.injEq, false_iff]
      rintro ⟨rfl, hgeneration, hlive⟩
      rcases hcond with hne | hdead
      · exact hne hgeneration
      · simp [hlive] at hdead
    · simp only [if_neg hcond, Option.some.injEq]
      constructor
      · rintro rfl
        exact ⟨rfl, by tauto, by simpa using fun hdead => hcond (.inr hdead)⟩
      · exact fun hfound => hfound.1

/-- What every change of a slot other than an opening and a delivery keeps. -/
structure SlotKeeps (t : ChannelTable) (slot slot' : ChannelSlot) : Prop where
  id : slot'.id = slot.id
  nextRecvSeq : slot'.nextRecvSeq = slot.nextRecvSeq
  free : slot'.state = .free ↔ slot.state = .free
  remoteHalfClosed : slot.remoteHalfClosed = true → slot'.remoteHalfClosed = true
  flow : t.channelWindow < 2 ^ 64 → slot.flow = .ofWindow t.channelWindow →
    slot'.flow = .ofWindow t.channelWindow

def ChannelTable.setAt (t : ChannelTable) (i : Nat) (slot : ChannelSlot) : ChannelTable :=
  { t with slots := t.slots.set i slot }

theorem ChannelTable.setAt_slot {t : ChannelTable} {i : Nat} {slot : ChannelSlot}
    (h : t.slots[i]? = some slot) (slot' : ChannelSlot) :
    (t.setAt i slot').slots[i]? = some slot' :=
  List.getElem?_set_self (List.getElem?_eq_some_iff.mp h).1

theorem ChannelTable.setAt_slot_ne (t : ChannelTable) {i j : Nat} (h : j ≠ i) (slot : ChannelSlot) :
    (t.setAt i slot).slots[j]? = t.slots[j]? :=
  List.getElem?_set_ne h.symm

/-- A slot of the changed table is the one that was put there, or an old one at another index. -/
theorem ChannelTable.setAt_cases {t : ChannelTable} {i j : Nat} {slot other : ChannelSlot}
    (h : (t.setAt i slot).slots[j]? = some other) :
    (j = i ∧ other = slot) ∨ (j ≠ i ∧ t.slots[j]? = some other) := by
  by_cases hj : j = i
  · subst hj
    have hlt : j < (t.slots.set j slot).length := (List.getElem?_eq_some_iff.mp h).1
    rw [List.length_set] at hlt
    have hself : (t.setAt j slot).slots[j]? = some slot := List.getElem?_set_self hlt
    exact .inl ⟨rfl, Option.some.inj (h.symm.trans hself)⟩
  · rw [ChannelTable.setAt_slot_ne t hj] at h
    exact .inr ⟨hj, h⟩

/-- One change of the table: a slot that is in use changes, or a free one opens. -/
inductive TableOp : ChannelTable → ChannelTable → Prop
  | update {t i slot slot'} (found : t.slots[i]? = some slot) (busy : slot.state ≠ .free)
      (keeps : SlotKeeps t slot slot') : TableOp t (t.setAt i slot')
  | opened {t i slot id state} (found : t.slots[i]? = some slot) (free : slot.state = .free)
      (busy : state ≠ .free) (generation : id.generation = slot.id.generation + 1)
      (numbered : id.number.toNat = i + 1 ∨ id.number = slot.id.number) :
      TableOp t (t.setAt i (t.opened id state))

def TableOps : ChannelTable → ChannelTable → Prop := Relation.ReflTransGen TableOp

theorem TableOps.refl (t : ChannelTable) : TableOps t t := Relation.ReflTransGen.refl

theorem TableOp.ops {t t' : ChannelTable} (h : TableOp t t') : TableOps t t' := .single h

theorem TableOps.trans {t t' t'' : ChannelTable} (h : TableOps t t') (h' : TableOps t' t'') :
    TableOps t t'' := Relation.ReflTransGen.trans h h'

/-- What one operation keeps any number of them keeps. -/
theorem TableOps.invariant {I : ChannelTable → Prop} (hop : ∀ t t', I t → TableOp t t' → I t')
    {t t' : ChannelTable} (ops : TableOps t t') (h : I t) : I t' := by
  induction ops with
  | refl => exact h
  | tail _ op ih => exact hop _ _ ih op

theorem ChannelTable.slot?_eq_some {t : ChannelTable} {number : UInt32} {slot : ChannelSlot} :
    t.slot? number = some slot ↔ number ≠ 0 ∧ t.slots[number.toNat - 1]? = some slot := by
  unfold ChannelTable.slot?
  split <;> simp_all

theorem ChannelSlot.live_iff {slot : ChannelSlot} :
    slot.live = true ↔ slot.state ≠ .free ∧ slot.state ≠ .tombstone := by
  unfold ChannelSlot.live
  simp

theorem TableOps.of_find {t : ChannelTable} {id : ChannelId} {slot slot' : ChannelSlot}
    (h : t.find id = some slot) (keeps : SlotKeeps t slot slot') :
    TableOps t (t.setSlot id.number slot') := by
  obtain ⟨hslot, _, hlive⟩ := ChannelTable.find_eq_some.mp h
  exact (TableOp.update (ChannelTable.slot?_eq_some.mp hslot).2
    (ChannelSlot.live_iff.mp hlive).1 keeps).ops

/-- Slot `i` is the one of channel number `i + 1`. -/
def ChannelTable.Numbered (t : ChannelTable) : Prop :=
  ∀ i slot, t.slots[i]? = some slot → slot.id.number.toNat = i + 1

theorem ChannelTable.make_slots {maxChannels : UInt16} {channelWindow maxMessage i : Nat}
    {slot : ChannelSlot}
    (h : (ChannelTable.make maxChannels channelWindow maxMessage).slots[i]? = some slot) :
    slot.id.number.toNat = i + 1 ∧ slot.id.generation = 0 ∧ slot.state = .free := by
  obtain ⟨hlt, rfl⟩ := List.getElem?_eq_some_iff.mp h
  have hi : i < maxChannels.toNat := by simpa [ChannelTable.make] using hlt
  have hnumber : (UInt32.ofNat (i + 1)).toNat = i + 1 := by
    rw [UInt32.toNat_ofNat']
    have := maxChannels.toNat_lt
    omega
  exact ⟨by simpa [ChannelTable.make] using hnumber, by simp [ChannelTable.make],
    by simp [ChannelTable.make]⟩

theorem ChannelTable.Numbered.setAt {t : ChannelTable} (h : t.Numbered) {i : Nat} {slot : ChannelSlot}
    (hnumber : slot.id.number.toNat = i + 1) : (t.setAt i slot).Numbered := by
  intro j other hother
  rcases ChannelTable.setAt_cases hother with ⟨rfl, rfl⟩ | ⟨_, hold⟩
  · exact hnumber
  · exact h j other hold

/-- A slot is found under its own number. -/
theorem ChannelTable.Numbered.slot? {t : ChannelTable} (h : t.Numbered) {i : Nat} {slot : ChannelSlot}
    (hslot : t.slots[i]? = some slot) : t.slot? slot.id.number = some slot := by
  have hnumber := h i slot hslot
  refine ChannelTable.slot?_eq_some.mpr ⟨fun hzero => ?_, ?_⟩
  · rw [hzero] at hnumber
    cases hnumber
  · rwa [show slot.id.number.toNat - 1 = i by omega]

theorem ChannelTable.Numbered.number {t : ChannelTable} (h : t.Numbered) {number : UInt32}
    {slot : ChannelSlot} (hslot : t.slot? number = some slot) : slot.id.number = number := by
  obtain ⟨hne, hget⟩ := ChannelTable.slot?_eq_some.mp hslot
  have hnumber := h _ slot hget
  have hpos : number.toNat ≠ 0 := fun h0 => hne (UInt32.toNat_inj.mp h0)
  exact UInt32.toNat_inj.mp (by omega)

theorem allocateLoop_spec (t : ChannelTable) (slots : List ChannelSlot) :
    (∃ error, t.allocateLoop slots = (.error error, slots)) ∨
    ∃ i slot, slots[i]? = some slot ∧ slot.state = .free ∧ slot.id.generation ≠ 255 ∧
      (∀ j < i, ∀ other, slots[j]? = some other → other.state ≠ .free) ∧
      t.allocateLoop slots = (.ok { slot.id with generation := slot.id.generation + 1 },
        slots.set i (t.opened { slot.id with generation := slot.id.generation + 1 } .opening)) := by
  induction slots with
  | nil => exact .inl ⟨_, rfl⟩
  | cons slot slots ih =>
    unfold ChannelTable.allocateLoop
    split
    next hfree =>
      split
      next => exact .inl ⟨_, rfl⟩
      next hgeneration => exact .inr ⟨0, slot, rfl, hfree, hgeneration, by simp, rfl⟩
    next hbusy =>
      rcases ih with ⟨error, h⟩ | ⟨i, found, hget, hfree, hgeneration, hfirst, h⟩
      · exact .inl ⟨error, by rw [h]⟩
      · refine .inr ⟨i + 1, found, hget, hfree, hgeneration, ?_, by rw [h]; rfl⟩
        intro j hj other hother
        cases j with
        | zero =>
          obtain rfl : slot = other := by simpa using hother
          exact hbusy
        | succ j => exact hfirst j (by omega) other (by simpa using hother)

/-- The slot that `allocate` takes: the first free one, unless its generations are used up. -/
structure ChannelTable.NextFree (t : ChannelTable) (i : Nat) (slot : ChannelSlot) : Prop where
  found : t.slots[i]? = some slot
  free : slot.state = .free
  generation : slot.id.generation ≠ 255
  first : ∀ j < i, ∀ other, t.slots[j]? = some other → other.state ≠ .free

theorem allocate_refused {t : ChannelTable} (h : ∀ i slot, ¬ t.NextFree i slot) :
    ∃ error, t.allocate = (.error error, t) := by
  unfold ChannelTable.allocate
  rcases allocateLoop_spec t t.slots with ⟨error, herror⟩ | ⟨i, slot, hget, hfree, hgeneration, hfirst, _⟩
  · exact ⟨error, by rw [herror]⟩
  · exact absurd ⟨hget, hfree, hgeneration, hfirst⟩ (h i slot)

theorem allocateLoop_take (t : ChannelTable) {slots : List ChannelSlot} {i : Nat} {slot : ChannelSlot}
    (hget : slots[i]? = some slot) (hfree : slot.state = .free) (hgeneration : slot.id.generation ≠ 255)
    (hfirst : ∀ j < i, ∀ other, slots[j]? = some other → other.state ≠ .free) :
    t.allocateLoop slots = (.ok { slot.id with generation := slot.id.generation + 1 },
      slots.set i (t.opened { slot.id with generation := slot.id.generation + 1 } .opening)) := by
  induction slots generalizing i with
  | nil => cases hget
  | cons head slots ih =>
    unfold ChannelTable.allocateLoop
    cases i with
    | zero =>
      obtain rfl : head = slot := by simpa using hget
      rw [if_pos hfree, if_neg hgeneration]
      rfl
    | succ i =>
      rw [if_neg (hfirst 0 (Nat.succ_pos i) head rfl),
        ih hget fun j hj other hother => hfirst (j + 1) (Nat.succ_lt_succ hj) other hother]
      rfl

/-- What `allocate` does: it opens the slot that is next, or changes nothing when there is none. -/
theorem allocate_cases (t : ChannelTable) :
    (∃ error, t.allocate = (.error error, t)) ∧ (∀ i slot, ¬ t.NextFree i slot) ∨
    ∃ i slot, t.NextFree i slot ∧ t.allocate = (.ok { slot.id with generation := slot.id.generation + 1 },
      t.setAt i (t.opened { slot.id with generation := slot.id.generation + 1 } .opening)) := by
  by_cases hnext : ∃ i slot, t.NextFree i slot
  · obtain ⟨i, slot, hslot⟩ := hnext
    refine .inr ⟨i, slot, hslot, ?_⟩
    unfold ChannelTable.allocate
    rw [allocateLoop_take t hslot.found hslot.free hslot.generation hslot.first]
    rfl
  · simp only [not_exists] at hnext
    exact .inl ⟨allocate_refused hnext, hnext⟩

/-- The slot opens under its next generation. -/
theorem ChannelTable.NextFree.allocate {t : ChannelTable} (hnumbered : t.Numbered) {i : Nat}
    {slot : ChannelSlot} (h : t.NextFree i slot) : ∃ opening,
      t.allocate = (.ok ⟨slot.id.number, slot.id.generation + 1⟩, opening) ∧
      opening.activate ⟨slot.id.number, slot.id.generation + 1⟩ =
        (.ok (), t.setAt i (t.opened ⟨slot.id.number, slot.id.generation + 1⟩ .open)) := by
  have hnumber := hnumbered i slot h.found
  refine ⟨t.setAt i (t.opened ⟨slot.id.number, slot.id.generation + 1⟩ .opening), ?_, ?_⟩
  · unfold ChannelTable.allocate
    rw [allocateLoop_take t h.found h.free h.generation h.first]
    rfl
  · have hset := ChannelTable.setAt_slot h.found
      (t.opened ⟨slot.id.number, slot.id.generation + 1⟩ .opening)
    have hopening : (t.setAt i (t.opened ⟨slot.id.number, slot.id.generation + 1⟩ .opening)).Numbered :=
      hnumbered.setAt hnumber
    have hfind : (t.setAt i (t.opened ⟨slot.id.number, slot.id.generation + 1⟩ .opening)).find
        ⟨slot.id.number, slot.id.generation + 1⟩ =
          some (t.opened ⟨slot.id.number, slot.id.generation + 1⟩ .opening) :=
      ChannelTable.find_eq_some.mpr ⟨hopening.slot? hset, rfl, rfl⟩
    unfold ChannelTable.activate
    rw [hfind]
    dsimp only
    rw [if_neg (by simp [ChannelTable.opened])]
    have hindex : slot.id.number.toNat - 1 = i := by omega
    simp only [ChannelTable.setSlot, hindex, ChannelTable.setAt, List.set_set, ChannelTable.opened]

theorem allocate_ops (t : ChannelTable) : TableOps t t.allocate.2 := by
  obtain ⟨⟨error, h⟩, _⟩ | ⟨i, slot, hslot, h⟩ := allocate_cases t <;> rw [h]
  · exact .refl t
  · have hop : TableOp t (t.setAt i (t.opened ⟨slot.id.number, slot.id.generation + 1⟩ .opening)) :=
      .opened hslot.found hslot.free (by decide) rfl (.inr rfl)
    exact hop.ops

/-- `accept_remote` refuses, or opens the free slot of that number under its next generation. -/
theorem ChannelTable.acceptRemote_cases (t : ChannelTable) (id : ChannelId) :
    (∃ error, t.acceptRemote id = (.error error, t)) ∨
      ∃ slot, t.slot? id.number = some slot ∧ slot.state = .free ∧
        id.generation = slot.id.generation + 1 ∧
        t.acceptRemote id = (.ok (), t.setSlot id.number (t.opened id .open)) := by
  unfold acceptRemote
  split
  next => exact .inl ⟨_, rfl⟩
  next slot hslot =>
    split
    next => exact .inl ⟨_, rfl⟩
    next hfree =>
      split
      next => exact .inl ⟨_, rfl⟩
      next hgeneration => exact .inr ⟨slot, hslot, not_not.mp hfree, not_not.mp hgeneration, rfl⟩

/-- Slot numbers start at 1. -/
theorem ChannelTable.slot?_number {t : ChannelTable} {number : UInt32} {slot : ChannelSlot}
    (h : t.slot? number = some slot) : number.toNat = number.toNat - 1 + 1 := by
  have hne : number.toNat ≠ 0 := fun hzero => (slot?_eq_some.mp h).1 (UInt32.toNat_inj.mp hzero)
  omega

theorem acceptRemote_ops (t : ChannelTable) (id : ChannelId) : TableOps t (t.acceptRemote id).2 := by
  obtain ⟨error, h⟩ | ⟨slot, hslot, hfree, hgeneration, h⟩ := t.acceptRemote_cases id <;> rw [h]
  · exact .refl t
  · exact (TableOp.opened (ChannelTable.slot?_eq_some.mp hslot).2 hfree (by simp) hgeneration
      (.inl (ChannelTable.slot?_number hslot))).ops

/-- `activate` refuses, or opens a slot that is opening. -/
theorem ChannelTable.activate_cases (t : ChannelTable) (id : ChannelId) :
    (∃ error, t.activate id = (.error error, t)) ∨
      ∃ slot, t.find id = some slot ∧ slot.state = .opening ∧
        t.activate id = (.ok (), t.setSlot id.number { slot with state := .open }) := by
  unfold activate
  dsimp only
  split
  next => exact .inl ⟨_, rfl⟩
  next slot hfind =>
    split
    next => exact .inl ⟨_, rfl⟩
    next hopening => exact .inr ⟨slot, hfind, not_not.mp hopening, rfl⟩

/-- `reserve_send_sequence` refuses, or counts on in a live slot. -/
theorem ChannelTable.reserveSendSequence_cases (t : ChannelTable) (id : ChannelId) :
    (∃ error, t.reserveSendSequence id = (.error error, t)) ∨
      ∃ slot, t.find id = some slot ∧ slot.nextSendSeq ≠ 0xFFFFFFFF ∧
        t.reserveSendSequence id = (.ok slot.nextSendSeq,
          t.setSlot id.number { slot with nextSendSeq := slot.nextSendSeq + 1 }) := by
  unfold reserveSendSequence
  split
  next => exact .inl ⟨_, rfl⟩
  next slot hfind =>
    split
    next => exact .inl ⟨_, rfl⟩
    next hlast => exact .inr ⟨slot, hfind, hlast, rfl⟩

/-- The slot as a half-close leaves it. -/
def ChannelSlot.halfClosed (slot : ChannelSlot) : Direction → ChannelSlot
  | .localSend => { slot with
      localHalfClosed := true
      state := if slot.remoteHalfClosed then .closing else .localClosed }
  | .remoteSend => { slot with
      remoteHalfClosed := true
      state := if slot.localHalfClosed then .closing else .remoteClosed }

/-- The slot as a reset leaves it. -/
def ChannelTable.buried (t : ChannelTable) (slot : ChannelSlot) : ChannelSlot :=
  { slot with
    state := .tombstone, flow := .ofWindow t.channelWindow
    reassembler := { maxMessage := t.maxMessage } }

theorem ChannelSlot.halfClosed_live (slot : ChannelSlot) (direction : Direction) :
    (slot.halfClosed direction).live = true := by
  cases direction with
  | localSend => cases hremote : slot.remoteHalfClosed <;> simp [halfClosed, live, hremote]
  | remoteSend => cases hlocal : slot.localHalfClosed <;> simp [halfClosed, live, hlocal]

/-- `half_close` refuses, or closes a direction of a slot that is open in one at least. -/
theorem ChannelTable.halfClose_cases (t : ChannelTable) (id : ChannelId) (direction : Direction) :
    (∃ error, error.action = .resetChannel ∧ t.halfClose id direction = (.error error, t) ∧
      ∀ slot, t.find id = some slot →
        slot.state ≠ .open ∧ slot.state ≠ .localClosed ∧ slot.state ≠ .remoteClosed) ∨
    ∃ slot, t.find id = some slot ∧
      (slot.state = .open ∨ slot.state = .localClosed ∨ slot.state = .remoteClosed) ∧
      t.halfClose id direction = (.ok (), t.setSlot id.number (slot.halfClosed direction)) := by
  unfold halfClose
  rcases hfind : t.find id with _ | slot
  · exact .inl ⟨_, rfl, rfl, fun _ h => by cases h⟩
  · dsimp only
    split
    next hstate =>
      refine .inl ⟨_, rfl, rfl, fun found hfound => ?_⟩
      obtain rfl := Option.some.inj hfound
      exact hstate
    next hstate =>
      have hopen : slot.state = .open ∨ slot.state = .localClosed ∨ slot.state = .remoteClosed := by
        simpa only [ne_eq, not_and_or, not_not] using hstate
      cases direction <;> exact .inr ⟨slot, rfl, hopen, rfl⟩

theorem ChannelTable.reset_cases (t : ChannelTable) (id : ChannelId) :
    (∃ error, t.reset id = (.error error, t) ∧ t.find id = none) ∨
    ∃ slot, t.find id = some slot ∧ t.reset id = (.ok (), t.setSlot id.number (t.buried slot)) := by
  unfold ChannelTable.reset
  rcases hfind : t.find id with _ | slot
  · exact .inl ⟨_, rfl, rfl⟩
  · exact .inr ⟨slot, rfl, rfl⟩

/-- `retire_tombstone` refuses, or frees the slot of a tombstone. -/
theorem ChannelTable.retireTombstone_cases (t : ChannelTable) (id : ChannelId) :
    (∃ error, t.retireTombstone id = (.error error, t)) ∨
      ∃ slot, t.slot? id.number = some slot ∧
        t.retireTombstone id = (.ok (), t.setSlot id.number { slot with state := .free }) := by
  unfold retireTombstone
  dsimp only
  split
  next => exact .inl ⟨_, rfl⟩
  next slot hslot =>
    split
    next => exact .inl ⟨_, rfl⟩
    next => exact .inr ⟨slot, hslot, rfl⟩

theorem activate_ops (t : ChannelTable) (id : ChannelId) : TableOps t (t.activate id).2 := by
  obtain ⟨error, h⟩ | ⟨slot, hfind, hopening, h⟩ := t.activate_cases id <;> rw [h]
  · exact .refl t
  · exact .of_find hfind ⟨rfl, rfl, by simp [hopening], fun h => h, fun _ h => h⟩

theorem halfClose_ops (t : ChannelTable) (id : ChannelId) (direction : Direction) :
    TableOps t (t.halfClose id direction).2 := by
  obtain ⟨error, _, h, _⟩ | ⟨slot, hfind, _, h⟩ := t.halfClose_cases id direction <;> rw [h]
  · exact .refl t
  · have hlive := (ChannelSlot.live_iff.mp (ChannelTable.find_eq_some.mp hfind).2.2).1
    have hstays := (ChannelSlot.live_iff.mp (slot.halfClosed_live direction)).1
    cases direction with
    | localSend => exact .of_find hfind ⟨rfl, rfl, by simp [hlive, hstays], fun h => h, fun _ h => h⟩
    | remoteSend => exact .of_find hfind ⟨rfl, rfl, by simp [hlive, hstays], fun _ => rfl, fun _ h => h⟩

theorem reset_ops (t : ChannelTable) (id : ChannelId) : TableOps t (t.reset id).2 := by
  obtain ⟨error, h, _⟩ | ⟨slot, hfind, h⟩ := t.reset_cases id <;> rw [h]
  · exact .refl t
  · have hlive := (ChannelSlot.live_iff.mp (ChannelTable.find_eq_some.mp hfind).2.2).1
    exact .of_find hfind ⟨rfl, rfl, by simp [ChannelTable.buried, hlive], fun h => h, fun _ _ => rfl⟩

end LatticeGateway
