import LatticeGateway.Runs
import LatticeGateway.TableOps

namespace LatticeGateway

open Runs

inductive TableCall
  | allocate
  | acceptRemote (id : ChannelId)
  | activate (id : ChannelId)
  | halfClose (id : ChannelId) (direction : Direction)
  | reset (id : ChannelId)
  | retireTombstone (id : ChannelId)
  deriving DecidableEq, Repr

/-- A table with its history: every id that was opened, in order. -/
structure TableRun where
  table : ChannelTable
  opened : List ChannelId := []

def TableRun.step (r : TableRun) : TableCall → TableRun
  | .allocate =>
    match r.table.allocate with
    | (.ok id, table) => { table, opened := r.opened ++ [id] }
    | (.error _, table) => { r with table }
  | .acceptRemote id =>
    match r.table.acceptRemote id with
    | (.ok _, table) => { table, opened := r.opened ++ [id] }
    | (.error _, table) => { r with table }
  | .activate id => { r with table := (r.table.activate id).2 }
  | .halfClose id direction => { r with table := (r.table.halfClose id direction).2 }
  | .reset id => { r with table := (r.table.reset id).2 }
  | .retireTombstone id => { r with table := (r.table.retireTombstone id).2 }

/-- Every slot keeps its id, and none comes to life. -/
def SameSlots (t t' : ChannelTable) : Prop :=
  ∀ (i : Nat) (slot' : ChannelSlot), t'.slots[i]? = some slot' →
    ∃ slot, t.slots[i]? = some slot ∧ slot'.id = slot.id ∧ (slot'.live = true → slot.live = true)

theorem SameSlots.refl (t : ChannelTable) : SameSlots t t :=
  fun _ slot hslot => ⟨slot, hslot, rfl, fun h => h⟩

theorem SameSlots.setSlot {t : ChannelTable} {number : UInt32} {slot slot' : ChannelSlot}
    (hslot : t.slot? number = some slot) (hid : slot'.id = slot.id)
    (hlive : slot'.live = true → slot.live = true) : SameSlots t (t.setSlot number slot') := by
  obtain ⟨_, hget⟩ := ChannelTable.slot?_eq_some.mp hslot
  change SameSlots t (t.setAt (number.toNat - 1) slot')
  intro i found hfound
  rcases ChannelTable.setAt_cases hfound with ⟨rfl, rfl⟩ | ⟨_, hold⟩
  · exact ⟨slot, hget, hid, hlive⟩
  · exact ⟨found, hold, rfl, fun h => h⟩

theorem SameSlots.slot? {t t' : ChannelTable} (h : SameSlots t t') {number : UInt32}
    {slot' : ChannelSlot} (hslot' : t'.slot? number = some slot') :
    ∃ slot, t.slot? number = some slot ∧ slot'.id = slot.id ∧
      (slot'.live = true → slot.live = true) := by
  obtain ⟨hne, hget⟩ := ChannelTable.slot?_eq_some.mp hslot'
  obtain ⟨slot, hslot, hsame⟩ := h _ _ hget
  exact ⟨slot, ChannelTable.slot?_eq_some.mpr ⟨hne, hslot⟩, hsame⟩

theorem SameSlots.numbered {t t' : ChannelTable} (h : SameSlots t t') (hnumbered : t.Numbered) :
    t'.Numbered := by
  intro i slot' hslot'
  obtain ⟨slot, hslot, hid, _⟩ := h i slot' hslot'
  rw [hid]
  exact hnumbered i slot hslot

theorem SameSlots.find {t t' : ChannelTable} (h : SameSlots t t') {id : ChannelId} {slot' : ChannelSlot}
    (hfind : t'.find id = some slot') : ∃ slot, t.find id = some slot := by
  obtain ⟨hslot', hgeneration, hlive⟩ := ChannelTable.find_eq_some.mp hfind
  obtain ⟨slot, hslot, hid, hwas⟩ := h.slot? hslot'
  exact ⟨slot, ChannelTable.find_eq_some.mpr ⟨hslot, hid ▸ hgeneration, hwas hlive⟩⟩

theorem SameSlots.of_find {t : ChannelTable} {id : ChannelId} {slot slot' : ChannelSlot}
    (hfind : t.find id = some slot) (hid : slot'.id = slot.id) :
    SameSlots t (t.setSlot id.number slot') := by
  obtain ⟨hslot, _, hlive⟩ := ChannelTable.find_eq_some.mp hfind
  exact .setSlot hslot hid fun _ => hlive

theorem activate_same (t : ChannelTable) (id : ChannelId) : SameSlots t (t.activate id).2 := by
  obtain ⟨error, h⟩ | ⟨slot, hfind, _, h⟩ := t.activate_cases id <;> rw [h]
  · exact .refl t
  · exact .of_find hfind rfl

theorem halfClose_same (t : ChannelTable) (id : ChannelId) (direction : Direction) :
    SameSlots t (t.halfClose id direction).2 := by
  obtain ⟨error, _, h, _⟩ | ⟨slot, hfind, _, h⟩ := t.halfClose_cases id direction <;> rw [h]
  · exact .refl t
  · cases direction <;> exact .of_find hfind rfl

theorem reset_same (t : ChannelTable) (id : ChannelId) : SameSlots t (t.reset id).2 := by
  obtain ⟨error, h, _⟩ | ⟨slot, hfind, h⟩ := t.reset_cases id <;> rw [h]
  · exact .refl t
  · exact .of_find hfind rfl

theorem retireTombstone_same (t : ChannelTable) (id : ChannelId) :
    SameSlots t (t.retireTombstone id).2 := by
  obtain ⟨error, h⟩ | ⟨slot, hslot, h⟩ := t.retireTombstone_cases id <;> rw [h]
  · exact .refl t
  · exact .setSlot hslot rfl (by simp [ChannelSlot.live])

/-- A call opens the next generation of a free slot. -/
structure TableRun.Opens (r r' : TableRun) (id : ChannelId) (slot : ChannelSlot) : Prop where
  found : r.table.slot? id.number = some slot
  next : id.generation = slot.id.generation + 1
  table : ∃ state, r'.table = r.table.setSlot id.number (r.table.opened id state)
  opened : r'.opened = r.opened ++ [id]

theorem TableRun.step_cases (r : TableRun) (h : r.table.Numbered) (call : TableCall) :
    SameSlots r.table (r.step call).table ∧ (r.step call).opened = r.opened ∨
      ∃ id slot, r.Opens (r.step call) id slot := by
  cases call with
  | allocate =>
    unfold TableRun.step
    obtain ⟨⟨error, hallocate⟩, _⟩ | ⟨i, slot, hslot, hallocate⟩ := allocate_cases r.table
    · rw [hallocate]
      exact .inl ⟨.refl _, rfl⟩
    · rw [hallocate]
      have hindex : slot.id.number.toNat - 1 = i := by
        have hnumber := h i slot hslot.found
        omega
      refine .inr ⟨{ slot.id with generation := slot.id.generation + 1 }, slot, h.slot? hslot.found, rfl,
        ⟨.opening, ?_⟩, rfl⟩
      simp only [ChannelTable.setSlot, ChannelTable.setAt, hindex]
  | acceptRemote id =>
    unfold TableRun.step
    dsimp only
    obtain ⟨error, haccept⟩ | ⟨slot, hslot, _, hnext, haccept⟩ := r.table.acceptRemote_cases id
    · rw [haccept]
      exact .inl ⟨.refl _, rfl⟩
    · rw [haccept]
      exact .inr ⟨id, slot, hslot, hnext, ⟨.open, rfl⟩, rfl⟩
  | activate id => exact .inl ⟨activate_same _ _, rfl⟩
  | halfClose id direction => exact .inl ⟨halfClose_same _ _ _, rfl⟩
  | reset id => exact .inl ⟨reset_same _ _, rfl⟩
  | retireTombstone id => exact .inl ⟨retireTombstone_same _ _, rfl⟩

/-- How often a channel number has been opened. -/
def TableRun.openings (r : TableRun) (number : UInt32) : Nat := r.opened.countP (·.number = number)

/-- The ids that a channel number goes through. -/
def generations (number : UInt32) (count : Nat) : List ChannelId :=
  (List.range count).map fun i => ⟨number, UInt8.ofNat (i + 1)⟩

theorem generations_succ (number : UInt32) (count : Nat) :
    generations number (count + 1) = generations number count ++ [⟨number, UInt8.ofNat (count + 1)⟩] := by
  unfold generations
  rw [List.range_succ, List.map_append, List.map_singleton]

/-- Each opening of a number takes its next generation, modulo 256, and only opened ids live. -/
structure TableRun.Counted (r : TableRun) : Prop where
  numbered : r.table.Numbered
  generation : ∀ number slot, r.table.slot? number = some slot →
    slot.id.generation = UInt8.ofNat (r.openings number)
  history : ∀ number, r.opened.filter (·.number = number) = generations number (r.openings number)
  live : ∀ id slot, r.table.find id = some slot → id ∈ r.opened

theorem TableRun.Counted.make (maxChannels : UInt16) (channelWindow maxMessage : Nat) :
    TableRun.Counted { table := .make maxChannels channelWindow maxMessage } := by
  refine ⟨fun i slot hslot => (ChannelTable.make_slots hslot).1, ?_, fun _ => rfl, ?_⟩
  · intro number slot hslot
    exact (ChannelTable.make_slots (ChannelTable.slot?_eq_some.mp hslot).2).2.1
  · intro id slot hfind
    obtain ⟨hslot, _, hlive⟩ := ChannelTable.find_eq_some.mp hfind
    have hfree := (ChannelTable.make_slots (ChannelTable.slot?_eq_some.mp hslot).2).2.2
    exact absurd hfree (ChannelSlot.live_iff.mp hlive).1

theorem TableRun.Counted.same {r r' : TableRun} (h : r.Counted) (hsame : SameSlots r.table r'.table)
    (hopened : r'.opened = r.opened) : r'.Counted := by
  have hopenings : ∀ number, r'.openings number = r.openings number := fun number => by
    unfold TableRun.openings
    rw [hopened]
  refine ⟨hsame.numbered h.numbered, ?_, ?_, ?_⟩
  · intro number slot' hslot'
    obtain ⟨slot, hslot, hid, _⟩ := hsame.slot? hslot'
    rw [hid, hopenings]
    exact h.generation number slot hslot
  · intro number
    rw [hopened, hopenings]
    exact h.history number
  · intro id slot' hfind
    obtain ⟨slot, hwas⟩ := hsame.find hfind
    rw [hopened]
    exact h.live id slot hwas

theorem TableRun.Opens.slot? {r r' : TableRun} {id : ChannelId} {slot : ChannelSlot}
    (h : r.Opens r' id slot) {number : UInt32} {found : ChannelSlot}
    (hfound : r'.table.slot? number = some found) :
    number = id.number ∧ found.id = id ∨
      number ≠ id.number ∧ r.table.slot? number = some found := by
  obtain ⟨state, htable⟩ := h.table
  rw [htable] at hfound
  by_cases hnumber : number = id.number
  · subst hnumber
    rw [ChannelTable.slot?_setSlot h.found] at hfound
    cases hfound
    exact .inl ⟨rfl, rfl⟩
  · rw [ChannelTable.slot?_setSlot_ne _ hnumber (ChannelTable.slot?_ne_zero h.found)] at hfound
    exact .inr ⟨hnumber, hfound⟩

theorem TableRun.Opens.find {r r' : TableRun} {id : ChannelId} {slot : ChannelSlot}
    (h : r.Opens r' id slot) {other : ChannelId} {found : ChannelSlot}
    (hfind : r'.table.find other = some found) : other = id ∨ r.table.find other = some found := by
  obtain ⟨hslot, hgeneration, hlive⟩ := ChannelTable.find_eq_some.mp hfind
  rcases h.slot? hslot with ⟨hsame, hid⟩ | ⟨_, hwas⟩
  · rw [hid] at hgeneration
    left
    calc other = ⟨other.number, other.generation⟩ := rfl
      _ = ⟨id.number, id.generation⟩ := by rw [hsame, hgeneration]
  · exact .inr (ChannelTable.find_eq_some.mpr ⟨hwas, hgeneration, hlive⟩)

theorem TableRun.Opens.openings {r r' : TableRun} {id : ChannelId} {slot : ChannelSlot}
    (h : r.Opens r' id slot) (number : UInt32) :
    r'.openings number = r.openings number + if id.number = number then 1 else 0 := by
  unfold TableRun.openings
  rw [h.opened, List.countP_append, List.countP_singleton]
  simp only [decide_eq_true_eq]

theorem TableRun.Opens.numbered {r r' : TableRun} (hnumbered : r.table.Numbered) {id : ChannelId}
    {slot : ChannelSlot} (h : r.Opens r' id slot) : r'.table.Numbered := by
  obtain ⟨state, htable⟩ := h.table
  obtain ⟨_, hget⟩ := ChannelTable.slot?_eq_some.mp h.found
  rw [htable]
  change ChannelTable.Numbered (r.table.setAt (id.number.toNat - 1) _)
  have hnumber := hnumbered _ slot hget
  rw [hnumbered.number h.found] at hnumber
  exact hnumbered.setAt hnumber

theorem TableRun.Counted.opens {r r' : TableRun} (h : r.Counted) {id : ChannelId} {slot : ChannelSlot}
    (hopens : r.Opens r' id slot) : r'.Counted := by
  have hnext : id.generation = UInt8.ofNat (r.openings id.number + 1) := by
    rw [hopens.next, h.generation _ _ hopens.found, UInt8.ofNat_add]
    rfl
  refine ⟨hopens.numbered h.numbered, ?_, ?_, ?_⟩
  · intro number found hfound
    rcases hopens.slot? hfound with ⟨rfl, hid⟩ | ⟨hother, hwas⟩
    · rw [hid, hopens.openings, if_pos rfl]
      exact hnext
    · rw [hopens.openings, if_neg (Ne.symm hother)]
      exact h.generation number found hwas
  · intro number
    rw [hopens.opened, List.filter_append, hopens.openings, h.history]
    by_cases hnumber : id.number = number
    · subst hnumber
      rw [if_pos rfl, List.filter_cons_of_pos (by simp), List.filter_nil]
      rw [generations_succ, ← hnext]
    · rw [if_neg hnumber, List.filter_cons_of_neg (by simpa using hnumber), List.filter_nil,
        List.append_nil]
      rfl
  · intro other found hfind
    rw [hopens.opened]
    rcases hopens.find hfind with rfl | hwas
    · exact List.mem_append_right _ (List.mem_singleton.mpr rfl)
    · exact List.mem_append_left _ (h.live other found hwas)

theorem TableRun.Counted.step {r : TableRun} (h : r.Counted) (call : TableCall) :
    (r.step call).Counted := by
  rcases r.step_cases h.numbered call with ⟨hsame, hopened⟩ | ⟨id, slot, hopens⟩
  · exact h.same hsame hopened
  · exact h.opens hopens

theorem generations_nodup (number : UInt32) (count : Nat) :
    (generations number count).Nodup ↔ count ≤ 256 := by
  unfold generations
  constructor
  · intro hnodup
    by_contra hmany
    have hsame := List.inj_on_of_nodup_map hnodup (List.mem_range.mpr (show 0 < count by omega))
      (List.mem_range.mpr (show 256 < count by omega)) rfl
    cases hsame
  · intro hfew
    refine List.Nodup.map_on ?_ List.nodup_range
    intro i hi j hj hsame
    have hi := List.mem_range.mp hi
    have hj := List.mem_range.mp hj
    have hgeneration : UInt8.ofNat (i + 1) = UInt8.ofNat (j + 1) := congrArg ChannelId.generation hsame
    have hmod := congrArg UInt8.toNat hgeneration
    rw [UInt8.toNat_ofNat', UInt8.toNat_ofNat'] at hmod
    omega

/-- No id was opened twice exactly when no number has gone through its 256 generations and on. -/
theorem TableRun.Counted.nodup_iff {r : TableRun} (h : r.Counted) :
    r.opened.Nodup ↔ ∀ number, r.openings number ≤ 256 := by
  constructor
  · intro hnodup number
    rw [← generations_nodup number, ← h.history]
    exact hnodup.filter _
  · intro hfew
    refine List.nodup_iff_count_le_one.mpr fun id => ?_
    have hnodup : (r.opened.filter (·.number = id.number)).Nodup := by
      rw [h.history]
      exact (generations_nodup _ _).mpr (hfew id.number)
    rw [← List.count_filter (p := fun other : ChannelId => other.number = id.number) (by simp)]
    exact List.nodup_iff_count_le_one.mp hnodup id

theorem step_opened {r : TableRun} (h : r.Counted) (call : TableCall) :
    ∃ more, (r.step call).opened = r.opened ++ more ∧ ∀ id, r.table.find id = none →
      (r.step call).table.find id ≠ none → id ∈ more := by
  rcases r.step_cases h.numbered call with ⟨hsame, hopened⟩ | ⟨id, slot, hopens⟩
  · refine ⟨[], by rw [hopened, List.append_nil], fun id hnone hsome => ?_⟩
    obtain ⟨found, hfind⟩ := Option.ne_none_iff_exists'.mp hsome
    obtain ⟨slot, hwas⟩ := hsame.find hfind
    exact absurd hwas (by simp [hnone])
  · refine ⟨[id], hopens.opened, fun other hnone hsome => ?_⟩
    obtain ⟨found, hfind⟩ := Option.ne_none_iff_exists'.mp hsome
    rcases hopens.find hfind with rfl | hwas
    · exact List.mem_singleton.mpr rfl
    · exact absurd hwas (by simp [hnone])

/-- An id that is not live becomes so by being opened. -/
theorem run_opened {r : TableRun} (h : r.Counted) (calls : List TableCall) :
    ∃ more, (run TableRun.step r calls).opened = r.opened ++ more ∧ ∀ id, r.table.find id = none →
      (run TableRun.step r calls).table.find id ≠ none → id ∈ more := by
  induction calls generalizing r with
  | nil => exact ⟨[], (List.append_nil _).symm, fun id hnone hsome => absurd hnone hsome⟩
  | cons call calls ih =>
    obtain ⟨first, hfirst, hopened⟩ := step_opened h call
    obtain ⟨rest, hrest, hopened'⟩ := ih (h.step call)
    refine ⟨first ++ rest, ?_, fun id hnone hsome => ?_⟩
    · rw [← List.append_assoc, ← hfirst]
      exact hrest
    · by_cases hstep : (r.step call).table.find id = none
      · exact List.mem_append_right _ (hopened' id hstep hsome)
      · exact List.mem_append_left _ (hopened id hnone hstep)

/-- No two openings of a run have the same id, and an id that stops being live is not found again. -/
structure NeverReused (start : ChannelTable) (calls : List TableCall) : Prop where
  distinct : (run TableRun.step { table := start } calls).opened.Nodup
  gone : ∀ before between after, calls = before ++ between ++ after → ∀ id,
    (run TableRun.step { table := start } before).table.find id ≠ none →
    (run TableRun.step { table := start } (before ++ between)).table.find id = none →
    (run TableRun.step { table := start } calls).table.find id = none

theorem counted_run (maxChannels : UInt16) (channelWindow maxMessage : Nat) (calls : List TableCall) :
    (run TableRun.step { table := .make maxChannels channelWindow maxMessage } calls).Counted :=
  run_induction (fun _ call h => h.step call) calls (.make maxChannels channelWindow maxMessage)

/-- Ids are never reused exactly in the runs that open no channel number more than 256 times. -/
theorem never_reused_iff (maxChannels : UInt16) (channelWindow maxMessage : Nat)
    (calls : List TableCall) :
    NeverReused (.make maxChannels channelWindow maxMessage) calls ↔
      ∀ number, (run TableRun.step { table := .make maxChannels channelWindow maxMessage }
        calls).openings number ≤ 256 := by
  have hcounted := counted_run maxChannels channelWindow maxMessage
  rw [← (hcounted calls).nodup_iff]
  refine ⟨fun h => h.distinct, fun hnodup => ⟨hnodup, ?_⟩⟩
  rintro before between after rfl id hlive hgone
  by_contra hback
  obtain ⟨found, hfind⟩ := Option.ne_none_iff_exists'.mp hlive
  have hfirst := (hcounted before).live id found hfind
  obtain ⟨middle, hmiddle, _⟩ := run_opened (hcounted before) between
  obtain ⟨more, hmore, hopened⟩ := run_opened (hcounted (before ++ between)) after
  rw [run_append] at hnodup hback
  rw [← run_append] at hmiddle
  have hagain := hopened id hgone hback
  rw [hmore, hmiddle] at hnodup
  exact (List.nodup_append.mp hnodup).2.2 id (List.mem_append_left _ hfirst) id hagain rfl

/-- Channel 1 opened by the peer, reset and retired, `count` times. -/
def reopened (count : Nat) : List TableCall :=
  (generations 1 count).flatMap fun id => [.acceptRemote id, .reset id, .retireTombstone id]

theorem reopened_succ (count : Nat) : reopened (count + 1) = reopened count ++
    [.acceptRemote ⟨1, UInt8.ofNat (count + 1)⟩, .reset ⟨1, UInt8.ofNat (count + 1)⟩,
      .retireTombstone ⟨1, UInt8.ofNat (count + 1)⟩] := by
  unfold reopened generations
  rw [List.range_succ, List.map_append, List.flatMap_append]
  rfl

/-- Its slot is free again, and every opening went through. -/
theorem reopened_run (channelWindow maxMessage count : Nat) :
    run TableRun.step { table := .make 1 channelWindow maxMessage } (reopened count) =
      { table := { slots := [{ id := ⟨1, UInt8.ofNat count⟩, flow := .ofWindow channelWindow
                               reassembler := { maxMessage } }]
                   channelWindow, maxMessage }
        opened := generations 1 count } := by
  induction count with
  | zero => rfl
  | succ count ih =>
    have hnext : UInt8.ofNat (count + 1) = UInt8.ofNat count + 1 := UInt8.ofNat_add _ _
    rw [reopened_succ, run_append, ih, generations_succ, hnext]
    generalize UInt8.ofNat count = generation
    simp [run, TableRun.step, ChannelTable.acceptRemote, ChannelTable.reset,
      ChannelTable.retireTombstone, ChannelTable.find, ChannelTable.slot?, ChannelTable.setSlot,
      ChannelTable.opened, ChannelSlot.live]

/-- The peer can open channel 1 again under the generation that it had first. -/
theorem never_reused_wrap : ¬ ∀ (maxChannels : UInt16) (channelWindow maxMessage : Nat)
    (calls : List TableCall), NeverReused (.make maxChannels channelWindow maxMessage) calls := by
  intro h
  have hdistinct := (h 1 1024 4096 (reopened 257)).distinct
  rw [reopened_run] at hdistinct
  exact absurd ((generations_nodup 1 257).mp hdistinct) (by decide)

end LatticeGateway
