import LatticeGateway.ChannelReuse

namespace LatticeGateway

open Runs

/-- All operations of a table: those that its history tells apart, and the reservation of a sequence. -/
inductive TableUse
  | call (call : TableCall)
  | reserveSendSequence (id : ChannelId)
  deriving DecidableEq, Repr

def ChannelTable.use (t : ChannelTable) : TableUse → ChannelTable
  | .call call => (TableRun.step { table := t } call).table
  | .reserveSendSequence id => (t.reserveSendSequence id).2

/-- The slot can be opened under its next generation. -/
def ChannelSlot.Usable (slot : ChannelSlot) : Prop := slot.state = .free ∧ slot.id.generation < 255

instance (slot : ChannelSlot) : Decidable slot.Usable := inferInstanceAs (Decidable (_ ∧ _))

/-- `allocate` opens a usable slot whenever there is one, and changes nothing else. -/
structure AllocateFinds (t : ChannelTable) : Prop where
  succeeds : (∃ id, t.allocate.1 = .ok id) ↔ ∃ slot ∈ t.slots, slot.Usable
  success : ∀ id, t.allocate.1 = .ok id → ∃ (i : Nat) (slot taken : ChannelSlot),
    t.slots[i]? = some slot ∧ slot.Usable ∧ t.allocate.2.slots[i]? = some taken ∧ taken.id = id ∧
    id.number = slot.id.number ∧ id.generation.toNat = slot.id.generation.toNat + 1 ∧
    ∀ j ≠ i, t.allocate.2.slots[j]? = t.slots[j]?
  failure : ∀ error, t.allocate.1 = .error error → t.allocate.2 = t

/-- The first free slot has generations left, or no slot does. -/
def ChannelTable.Unobstructed (t : ChannelTable) : Prop :=
  ∀ slot ∈ t.slots.find? (·.state = .free), slot.id.generation = 255 →
    ∀ other ∈ t.slots, ¬ other.Usable

theorem generation_lt {generation : UInt8} (h : generation ≠ 255) : generation < 255 := by
  have hne : generation.toNat ≠ 255 := fun heq => h (UInt8.toNat_inj.mp heq)
  have hlt := generation.toNat_lt
  rw [UInt8.lt_iff_toNat_lt]
  simp only [UInt8.reduceToNat]
  omega

theorem generation_succ {generation : UInt8} (h : generation ≠ 255) :
    (generation + 1).toNat = generation.toNat + 1 := by
  have hlt := UInt8.lt_iff_toNat_lt.mp (generation_lt h)
  simp only [UInt8.reduceToNat] at hlt
  rw [UInt8.toNat_add]
  simp only [UInt8.reduceToNat]
  omega

theorem ChannelTable.NextFree.usable {t : ChannelTable} {i : Nat} {slot : ChannelSlot}
    (h : t.NextFree i slot) : slot ∈ t.slots ∧ slot.Usable :=
  ⟨List.mem_of_getElem? h.found, h.free, generation_lt h.generation⟩

theorem ChannelTable.NextFree.find? {t : ChannelTable} {i : Nat} {slot : ChannelSlot}
    (h : t.NextFree i slot) : t.slots.find? (·.state = .free) = some slot := by
  obtain ⟨hlt, hget⟩ := List.getElem?_eq_some_iff.mp h.found
  refine List.find?_eq_some_iff_getElem.mpr ⟨by simp [h.free], i, hlt, hget, fun j hj => ?_⟩
  have hbusy := h.first j hj t.slots[j] (List.getElem?_eq_getElem (Nat.lt_trans hj hlt))
  simp [hbusy]

theorem ChannelTable.NextFree.of_find? {t : ChannelTable} {slot : ChannelSlot}
    (h : t.slots.find? (·.state = .free) = some slot) (hgeneration : slot.id.generation ≠ 255) :
    ∃ i, t.NextFree i slot := by
  obtain ⟨hfree, i, hlt, hget, hfirst⟩ := List.find?_eq_some_iff_getElem.mp h
  refine ⟨i, List.getElem?_eq_some_iff.mpr ⟨hlt, hget⟩, by simpa using hfree, hgeneration, ?_⟩
  intro j hj other hother
  obtain ⟨_, rfl⟩ := List.getElem?_eq_some_iff.mp hother
  simpa using hfirst j hj

theorem allocate_ok_iff (t : ChannelTable) :
    (∃ id, t.allocate.1 = .ok id) ↔ ∃ i slot, t.NextFree i slot := by
  rcases allocate_cases t with ⟨⟨error, hrefused⟩, hnone⟩ | ⟨i, slot, hslot, hallocate⟩
  · rw [hrefused]
    constructor
    · rintro ⟨id, hid⟩
      cases hid
    · rintro ⟨i, slot, hslot⟩
      exact absurd hslot (hnone i slot)
  · rw [hallocate]
    exact ⟨fun _ => ⟨i, slot, hslot⟩, fun _ => ⟨_, rfl⟩⟩

theorem allocate_finds_table_iff (t : ChannelTable) : AllocateFinds t ↔ t.Unobstructed := by
  constructor
  · intro h slot hfirst hexhausted other hmem husable
    obtain ⟨i, next, hnext⟩ := (allocate_ok_iff t).mp (h.succeeds.mpr ⟨other, hmem, husable⟩)
    obtain rfl := Option.some.inj (hnext.find?.symm.trans hfirst)
    exact hnext.generation hexhausted
  · intro h
    refine ⟨?_, ?_, ?_⟩
    · rw [allocate_ok_iff]
      constructor
      · rintro ⟨i, slot, hslot⟩
        exact ⟨slot, hslot.usable⟩
      · rintro ⟨other, hmem, husable⟩
        have hfree : (t.slots.find? (·.state = .free)).isSome = true :=
          List.find?_isSome.mpr ⟨other, hmem, by simp [husable.1]⟩
        obtain ⟨slot, hfirst⟩ := Option.isSome_iff_exists.mp hfree
        have hgeneration : slot.id.generation ≠ 255 :=
          fun hexhausted => h slot hfirst hexhausted other hmem husable
        obtain ⟨i, hslot⟩ := ChannelTable.NextFree.of_find? hfirst hgeneration
        exact ⟨i, slot, hslot⟩
    · intro id hok
      rcases allocate_cases t with ⟨⟨error, hrefused⟩, _⟩ | ⟨i, slot, hslot, hallocate⟩
      · rw [hrefused] at hok
        cases hok
      · rw [hallocate] at hok ⊢
        obtain rfl := Except.ok.inj hok
        exact ⟨i, slot, _, hslot.found, hslot.usable.2, ChannelTable.setAt_slot hslot.found _, rfl, rfl,
          generation_succ hslot.generation, fun j hj => ChannelTable.setAt_slot_ne t hj _⟩
    · intro error herror
      rcases allocate_cases t with ⟨⟨_, hrefused⟩, _⟩ | ⟨i, slot, _, hallocate⟩
      · rw [hrefused]
      · rw [hallocate] at herror
        cases herror

/-- In every state that a table reaches, `allocate` finds a usable slot exactly when the first free one has
generations left, or no slot does. -/
theorem allocate_finds_iff (maxChannels : UInt16) (channelWindow maxMessage : Nat) (uses : List TableUse) :
    AllocateFinds (run ChannelTable.use (.make maxChannels channelWindow maxMessage) uses) ↔
      (run ChannelTable.use (.make maxChannels channelWindow maxMessage) uses).Unobstructed :=
  allocate_finds_table_iff _

/-- Channel 1 allocated, activated, reset and retired, `count` times. -/
def cycled (count : Nat) : List TableUse :=
  (generations 1 count).flatMap fun id =>
    [.call .allocate, .call (.activate id), .call (.reset id), .call (.retireTombstone id)]

/-- Its slot is free again, while the second one has never been opened. -/
theorem cycled_run (channelWindow maxMessage : Nat) {count : Nat} (hcount : count ≤ 255) :
    run ChannelTable.use (.make 2 channelWindow maxMessage) (cycled count) =
      { slots := [{ id := ⟨1, UInt8.ofNat count⟩, flow := .ofWindow channelWindow
                    reassembler := { maxMessage } },
                  { id := ⟨2, 0⟩, flow := .ofWindow channelWindow, reassembler := { maxMessage } }]
        channelWindow, maxMessage } := by
  induction count with
  | zero => rfl
  | succ count ih =>
    have hnext : UInt8.ofNat (count + 1) = UInt8.ofNat count + 1 := UInt8.ofNat_add _ _
    have hleft : UInt8.ofNat count ≠ 255 := by
      intro heq
      have hmod := congrArg UInt8.toNat heq
      rw [UInt8.toNat_ofNat'] at hmod
      simp only [UInt8.reduceToNat] at hmod
      omega
    have hcycles : cycled (count + 1) = cycled count ++ [.call .allocate,
        .call (.activate ⟨1, UInt8.ofNat count + 1⟩), .call (.reset ⟨1, UInt8.ofNat count + 1⟩),
        .call (.retireTombstone ⟨1, UInt8.ofNat count + 1⟩)] := by
      unfold cycled
      rw [generations_succ, List.flatMap_append, hnext]
      rfl
    rw [hcycles, run_append, ih (by omega), hnext]
    generalize UInt8.ofNat count = generation at hleft ⊢
    simp [run, ChannelTable.use, TableRun.step, ChannelTable.allocate, ChannelTable.allocateLoop, hleft,
      ChannelTable.activate, ChannelTable.reset, ChannelTable.retireTombstone, ChannelTable.find,
      ChannelTable.slot?, ChannelTable.setSlot, ChannelTable.opened, ChannelSlot.live]

/-- With the generations of the first slot used up, the second one is not found. -/
theorem allocate_obstructed : ¬ ∀ (maxChannels : UInt16) (channelWindow maxMessage : Nat)
    (uses : List TableUse),
    AllocateFinds (run ChannelTable.use (.make maxChannels channelWindow maxMessage) uses) := by
  intro h
  have hobstructed := (allocate_finds_table_iff _).mp (h 2 1024 4096 (cycled 255))
  rw [cycled_run 1024 4096 (Nat.le_refl 255)] at hobstructed
  exact hobstructed _ rfl rfl _ (List.mem_cons_of_mem _ (List.mem_singleton.mpr rfl)) ⟨rfl, by decide⟩

end LatticeGateway
