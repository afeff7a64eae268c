import LatticeGateway.ConcurrentOpens
import LatticeGateway.JoinReplicas
import Mathlib.Data.Fintype.Order
import Mathlib.Order.WithBot

namespace LatticeGateway

/-- What an end knows of a channel: nothing yet, which of its two directions are closed, or that it is
gone. It only ever learns more. -/
abbrev Life := WithBot (WithTop (Bool × Bool))

/-- A live channel with these directions closed. -/
def Life.closed (halves : Bool × Bool) : Life := ((halves : WithTop (Bool × Bool)) : Life)

theorem Life.closed_sup (halves halves' : Bool × Bool) :
    closed halves ⊔ closed halves' = closed (halves ⊔ halves') := rfl

/-- The directions that a half-close closes, as its own end sees them: sending, receiving. -/
def Direction.closes : Direction → Bool × Bool
  | .localSend => (true, false)
  | .remoteSend => (false, true)

def Direction.opposite : Direction → Direction
  | .localSend => .remoteSend
  | .remoteSend => .localSend

/-- The directions of a channel as the end that is not mirrored sees them. -/
def seen (mirrored : Bool) (halves : Bool × Bool) : Bool × Bool :=
  if mirrored then halves.swap else halves

theorem seen_sup (mirrored : Bool) (halves halves' : Bool × Bool) :
    seen mirrored halves ⊔ seen mirrored halves' = seen mirrored (halves ⊔ halves') := by
  cases mirrored <;> rfl

/-- What one end closes for sending, the other has closed for receiving. -/
theorem seen_opposite (mirrored : Bool) (direction : Direction) :
    seen mirrored direction.opposite.closes = seen (!mirrored) direction.closes := by
  cases mirrored <;> cases direction <;> rfl

def ChannelSlot.life (slot : ChannelSlot) (mirrored : Bool) : Life :=
  match slot.state with
  | .free => ⊥
  | .tombstone => ⊤
  | _ => .closed (seen mirrored (slot.localHalfClosed, slot.remoteHalfClosed))

def ChannelTable.life (t : ChannelTable) (mirrored : Bool) (k : Nat) : Life :=
  t.slots[k]?.elim ⊥ (·.life mirrored)

/-- No slot is left opening, and one that is closing has both of its directions closed. -/
structure ChannelSlot.Sound (slot : ChannelSlot) : Prop where
  opening : slot.state ≠ .opening
  closing : slot.state = .closing → slot.localHalfClosed = true ∧ slot.remoteHalfClosed = true

theorem ChannelSlot.life_of_live {slot : ChannelSlot} (h : slot.live = true) (mirrored : Bool) :
    slot.life mirrored = .closed (seen mirrored (slot.localHalfClosed, slot.remoteHalfClosed)) := by
  obtain ⟨hfree, htombstone⟩ := ChannelSlot.live_iff.mp h
  unfold ChannelSlot.life
  split
  next hstate => exact absurd hstate hfree
  next hstate => exact absurd hstate htombstone
  next => rfl

theorem ChannelSlot.life_of_dead {slot : ChannelSlot} (hbusy : slot.state ≠ .free)
    (hdead : slot.live = false) (mirrored : Bool) : slot.life mirrored = ⊤ := by
  have htombstone : slot.state = .tombstone := by
    by_contra hother
    rw [ChannelSlot.live_iff.mpr ⟨hbusy, hother⟩] at hdead
    cases hdead
  unfold ChannelSlot.life
  rw [htombstone]

theorem ChannelSlot.halfClosed_sound (slot : ChannelSlot) (direction : Direction) :
    (slot.halfClosed direction).Sound := by
  cases direction with
  | localSend =>
    cases hremote : slot.remoteHalfClosed with
    | false => exact ⟨by simp [halfClosed, hremote], by simp [halfClosed, hremote]⟩
    | true => exact ⟨by simp [halfClosed, hremote], fun _ => ⟨rfl, hremote⟩⟩
  | remoteSend =>
    cases hlocal : slot.localHalfClosed with
    | false => exact ⟨by simp [halfClosed, hlocal], by simp [halfClosed, hlocal]⟩
    | true => exact ⟨by simp [halfClosed, hlocal], fun _ => ⟨hlocal, rfl⟩⟩

/-- A half-close is learnt as what it closes. -/
theorem ChannelSlot.life_halfClosed {slot : ChannelSlot} (h : slot.live = true) (direction : Direction)
    (mirrored : Bool) : (slot.halfClosed direction).life mirrored =
      slot.life mirrored ⊔ .closed (seen mirrored direction.closes) := by
  rw [life_of_live (slot.halfClosed_live direction), life_of_live h, Life.closed_sup, seen_sup]
  cases direction with
  | localSend => cases hlocal : slot.localHalfClosed <;> simp [halfClosed, Direction.closes]
  | remoteSend => cases hremote : slot.remoteHalfClosed <;> simp [halfClosed, Direction.closes]

/-- Of sound slots `half_close` refuses only those where there is nothing left to close. -/
theorem ChannelTable.halfClose_sound {t : ChannelTable} (hsound : ∀ slot ∈ t.slots, slot.Sound)
    (id : ChannelId) (direction : Direction) :
    (∃ error, error.action = .resetChannel ∧ t.halfClose id direction = (.error error, t) ∧
      ∀ slot, t.find id = some slot → slot.localHalfClosed = true ∧ slot.remoteHalfClosed = true) ∨
    ∃ slot, t.find id = some slot ∧
      t.halfClose id direction = (.ok (), t.setSlot id.number (slot.halfClosed direction)) := by
  obtain ⟨error, haction, h, hrefused⟩ | ⟨slot, hfind, _, h⟩ := t.halfClose_cases id direction
  · refine .inl ⟨error, haction, h, fun slot hfind => ?_⟩
    obtain ⟨hslot, _, hlive⟩ := ChannelTable.find_eq_some.mp hfind
    obtain ⟨_, hget⟩ := ChannelTable.slot?_eq_some.mp hslot
    obtain ⟨hfree, htombstone⟩ := ChannelSlot.live_iff.mp hlive
    obtain ⟨hopening, hclosing⟩ := hsound slot (List.mem_of_getElem? hget)
    obtain ⟨hopen, hlocal, hremote⟩ := hrefused slot hfind
    exact hclosing (by cases hstate : slot.state <;> simp_all)
  · exact .inr ⟨slot, hfind, h⟩

/-- A table of `slots` slots of which those of `opened` have been opened, each once. -/
structure ChannelTable.Shared (t : ChannelTable) (slots : Nat) (opened : Set Nat) : Prop where
  used : t.Used opened
  sound : ∀ slot ∈ t.slots, slot.Sound
  length : t.slots.length = slots

/-- In `t'` there is news of channel `k`, and of no other. -/
structure ChannelTable.Learns (t t' : ChannelTable) (mirrored : Bool) (opened : Set Nat) (k : Nat)
    (news : Life) : Prop where
  others : ∀ j, j ≠ k → t'.life mirrored j = t.life mirrored j
  here : k ∈ opened → t'.life mirrored k = t.life mirrored k ⊔ news

section

variable {t : ChannelTable} {slots : Nat} {opened : Set Nat}

theorem ChannelTable.life_setAt {k : Nat} {slot : ChannelSlot} (h : t.slots[k]? = some slot)
    (slot' : ChannelSlot) (mirrored : Bool) : (t.setAt k slot').life mirrored k = slot'.life mirrored := by
  unfold ChannelTable.life
  rw [ChannelTable.setAt_slot h]
  rfl

theorem ChannelTable.life_setAt_ne {j k : Nat} (h : j ≠ k) (slot' : ChannelSlot) (mirrored : Bool) :
    (t.setAt k slot').life mirrored j = t.life mirrored j := by
  unfold ChannelTable.life
  rw [ChannelTable.setAt_slot_ne t h]

theorem ChannelTable.life_of_slot {k : Nat} {slot : ChannelSlot} (h : t.slots[k]? = some slot)
    (mirrored : Bool) : t.life mirrored k = slot.life mirrored := by
  unfold ChannelTable.life
  rw [h]
  rfl

theorem ChannelTable.Shared.slot (h : t.Shared slots opened) {k : Nat} (hk : k < slots) :
    ∃ slot, t.slots[k]? = some slot ∧ (firstId k).number.toNat = k + 1 := by
  have hlength := h.length
  have hsmall := h.used.small
  exact ⟨_, List.getElem?_eq_getElem (by omega), firstId_number (by omega)⟩

theorem ChannelTable.Shared.index (h : t.Shared slots opened) {j k : Nat} (hj : j < slots) (hk : k < slots)
    (hid : firstId j = firstId k) : j = k := by
  obtain ⟨_, _, hfirst⟩ := h.slot hj
  obtain ⟨_, _, hfirst'⟩ := h.slot hk
  rw [← hid, hfirst] at hfirst'
  omega

/-- The slot of an opened channel is found while it is live. -/
theorem ChannelTable.Shared.find_iff (h : t.Shared slots opened) {k : Nat} (hk : k ∈ opened)
    {slot : ChannelSlot} (hslot : t.slots[k]? = some slot) {found : ChannelSlot} :
    t.find (firstId k) = some found ↔ found = slot ∧ slot.live = true := by
  have hlt := (List.getElem?_eq_some_iff.mp hslot).1
  obtain ⟨_, _, hfirst⟩ := h.slot (h.length ▸ hlt)
  obtain ⟨_, hgeneration⟩ := h.used.taken k slot hslot hk
  rw [ChannelTable.find_eq_some, ChannelTable.slot?_firstId hfirst, hslot]
  constructor
  · rintro ⟨hsame, _, hlive⟩
    obtain rfl := Option.some.inj hsame
    exact ⟨rfl, hlive⟩
  · rintro ⟨rfl, hlive⟩
    exact ⟨rfl, hgeneration, hlive⟩

theorem ChannelTable.Shared.find_dead (h : t.Shared slots opened) {k : Nat} (hk : k ∈ opened)
    {slot : ChannelSlot} (hslot : t.slots[k]? = some slot) (hdead : slot.live = false) :
    t.find (firstId k) = none := by
  rcases hfind : t.find (firstId k) with _ | found
  · rfl
  · have hlive := ((h.find_iff hk hslot).mp hfind).2
    rw [hdead] at hlive
    cases hlive

/-- What is found is the slot of an opened channel, under its first id. -/
theorem ChannelTable.Shared.found (h : t.Shared slots opened) {id : ChannelId} {slot : ChannelSlot}
    (hfind : t.find id = some slot) : ∃ k ∈ opened, k < slots ∧ id = firstId k ∧
      t.slots[k]? = some slot ∧ t.setSlot id.number = t.setAt k := by
  obtain ⟨hslot, hgeneration, hlive⟩ := ChannelTable.find_eq_some.mp hfind
  obtain ⟨_, hget⟩ := ChannelTable.slot?_eq_some.mp hslot
  have hlt := (List.getElem?_eq_some_iff.mp hget).1
  have hk : id.number.toNat - 1 ∈ opened := by
    by_contra hunused
    exact (ChannelSlot.live_iff.mp hlive).1 (h.used.free _ slot hget hunused).1
  obtain ⟨_, _, hfirst⟩ := h.slot (h.length ▸ hlt)
  have hnumber : id.number = (firstId (id.number.toNat - 1)).number := by
    have hindex := h.used.numbered _ slot hget
    rw [h.used.numbered.number hslot] at hindex
    exact UInt32.toNat_inj.mp (hindex.trans hfirst.symm)
  refine ⟨_, hk, h.length ▸ hlt, ?_, hget, rfl⟩
  have hfresh := (h.used.taken _ slot hget hk).2
  calc id = ⟨id.number, id.generation⟩ := rfl
    _ = ⟨(firstId (id.number.toNat - 1)).number, 1⟩ := by rw [← hnumber, ← hgeneration, hfresh]
    _ = firstId (id.number.toNat - 1) := rfl

/-- An opened channel changes, and stays opened. -/
theorem ChannelTable.Shared.update (h : t.Shared slots opened) {k : Nat} (hk : k ∈ opened)
    {slot slot' : ChannelSlot} (hslot : t.slots[k]? = some slot) (hid : slot'.id = slot.id)
    (hbusy : slot'.state ≠ .free) (hsound : slot'.Sound) : (t.setAt k slot').Shared slots opened where
  used := by
    refine ⟨h.used.numbered.setAt (by rw [hid]; exact h.used.numbered k slot hslot), ?_, ?_, ?_⟩
    · intro i other hother hi
      rcases ChannelTable.setAt_cases hother with ⟨rfl, rfl⟩ | ⟨_, hold⟩
      · exact ⟨hbusy, by rw [hid]; exact (h.used.taken i slot hslot hk).2⟩
      · exact h.used.taken i other hold hi
    · intro i other hother hi
      rcases ChannelTable.setAt_cases hother with ⟨rfl, rfl⟩ | ⟨_, hold⟩
      · exact absurd hk hi
      · exact h.used.free i other hold hi
    · exact lt_of_eq_of_lt List.length_set h.used.small
  sound := by
    intro other hother
    rcases List.mem_or_eq_of_mem_set hother with hold | rfl
    · exact h.sound other hold
    · exact hsound
  length := List.length_set.trans h.length

theorem ChannelTable.Shared.life_unopened (h : t.Shared slots opened) {k : Nat} (hk : k ∉ opened)
    (mirrored : Bool) : t.life mirrored k = ⊥ := by
  unfold ChannelTable.life
  rcases hslot : t.slots[k]? with _ | slot
  · rfl
  · change slot.life mirrored = ⊥
    unfold ChannelSlot.life
    rw [(h.used.free k slot hslot hk).1]

/-- A channel opens for the first time. -/
theorem ChannelTable.Shared.take (h : t.Shared slots opened) {n : Nat} (hn : n ∉ opened)
    (hlt : n < slots) (mirrored : Bool) : (t.taken n).Shared slots (insert n opened) ∧
      t.Learns (t.taken n) mirrored (insert n opened) n (.closed (false, false)) := by
  obtain ⟨slot, hslot, hfirst⟩ := h.slot hlt
  refine ⟨⟨⟨h.used.numbered.setAt hfirst, ?_, ?_, ?_⟩, ?_, List.length_set.trans h.length⟩, ?_, fun _ => ?_⟩
  · intro i other hother hi
    rcases ChannelTable.setAt_cases hother with ⟨rfl, rfl⟩ | ⟨hne, hold⟩
    · exact ⟨by rintro ⟨⟩, rfl⟩
    · exact h.used.taken i other hold (hi.resolve_left hne)
  · intro i other hother hi
    rcases ChannelTable.setAt_cases hother with ⟨rfl, rfl⟩ | ⟨_, hold⟩
    · exact absurd (Set.mem_insert i opened) hi
    · exact h.used.free i other hold fun hmem => hi (Set.mem_insert_of_mem n hmem)
  · exact lt_of_eq_of_lt List.length_set h.used.small
  · intro other hother
    rcases List.mem_or_eq_of_mem_set hother with hold | rfl
    · exact h.sound other hold
    · exact ⟨by rintro ⟨⟩, by rintro ⟨⟩⟩
  · exact fun j hj => ChannelTable.life_setAt_ne hj _ mirrored
  · rw [h.life_unopened hn, bot_sup_eq]
    refine (ChannelTable.life_setAt hslot _ mirrored).trans ?_
    cases mirrored <;> rfl

theorem ChannelTable.Learns.known {mirrored : Bool} {k : Nat} {news : Life}
    (h : k ∈ opened → t.life mirrored k ⊔ news = t.life mirrored k) : t.Learns t mirrored opened k news :=
  ⟨fun _ _ => rfl, fun hk => (h hk).symm⟩

/-- Whatever channel a half-close is for, the table knows of it afterwards. -/
theorem ChannelTable.Shared.halfClose (h : t.Shared slots opened) {k : Nat} (hlt : k < slots)
    (direction : Direction) (mirrored : Bool) : ∃ result t',
      t.halfClose (firstId k) direction = (result, t') ∧ t'.Shared slots opened ∧
      t.Learns t' mirrored opened k (.closed (seen mirrored direction.closes)) ∧
      ∀ error, result = .error error → error.action = .resetChannel ∧ t' = t := by
  rcases ChannelTable.halfClose_sound h.sound (firstId k) direction with
    ⟨error, haction, herror, hclosed⟩ | ⟨slot, hfind, hok⟩
  · refine ⟨_, t, herror, h, .known fun hk => ?_, by rintro _ ⟨⟩; exact ⟨haction, rfl⟩⟩
    obtain ⟨slot, hslot, _⟩ := h.slot hlt
    rw [ChannelTable.life_of_slot hslot]
    cases hlive : slot.live with
    | true =>
      obtain ⟨hlocal, hremote⟩ := hclosed slot ((h.find_iff hk hslot).mpr ⟨rfl, hlive⟩)
      rw [ChannelSlot.life_of_live hlive, Life.closed_sup, seen_sup, hlocal, hremote]
      cases direction <;> rfl
    | false => rw [ChannelSlot.life_of_dead (h.used.taken k slot hslot hk).1 hlive, top_sup_eq]
  · obtain ⟨j, hj, hjlt, hid, hslot, hset⟩ := h.found hfind
    obtain rfl := h.index hlt hjlt hid
    have hlive := (ChannelTable.find_eq_some.mp hfind).2.2
    have hstays := ChannelSlot.live_iff.mp (slot.halfClosed_live direction)
    rw [hset] at hok
    refine ⟨_, _, hok, h.update hj hslot (by cases direction <;> rfl) hstays.1
      (slot.halfClosed_sound direction), ⟨fun i hi => ChannelTable.life_setAt_ne hi _ mirrored,
      fun _ => ?_⟩, by rintro _ ⟨⟩⟩
    rw [ChannelTable.life_setAt hslot, ChannelTable.life_of_slot hslot,
      ChannelSlot.life_halfClosed hlive]

theorem ChannelTable.Shared.reset (h : t.Shared slots opened) {k : Nat} (hlt : k < slots)
    (mirrored : Bool) : ∃ result t', t.reset (firstId k) = (result, t') ∧ t'.Shared slots opened ∧
      t.Learns t' mirrored opened k ⊤ ∧ ∀ error, result = .error error → t' = t := by
  rcases t.reset_cases (firstId k) with ⟨error, herror, hnone⟩ | ⟨slot, hfind, hok⟩
  · refine ⟨_, t, herror, h, .known fun hk => ?_, fun _ _ => rfl⟩
    obtain ⟨slot, hslot, _⟩ := h.slot hlt
    rw [ChannelTable.life_of_slot hslot]
    cases hlive : slot.live with
    | true =>
      rw [(h.find_iff hk hslot).mpr ⟨rfl, hlive⟩] at hnone
      cases hnone
    | false => rw [ChannelSlot.life_of_dead (h.used.taken k slot hslot hk).1 hlive, top_sup_eq]
  · obtain ⟨j, hj, hjlt, hid, hslot, hset⟩ := h.found hfind
    obtain rfl := h.index hlt hjlt hid
    rw [hset] at hok
    refine ⟨_, _, hok, h.update hj hslot rfl (by rintro ⟨⟩) ⟨by rintro ⟨⟩, by rintro ⟨⟩⟩,
      ⟨fun i hi => ChannelTable.life_setAt_ne hi _ mirrored, fun _ => ?_⟩, by rintro _ ⟨⟩⟩
    rw [ChannelTable.life_setAt hslot, sup_top_eq]
    rfl

end

end LatticeGateway
