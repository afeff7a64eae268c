import LatticeGateway.ReassemblerRefinement

namespace LatticeGateway

open Patchwork Runs

/-- The stored ranges of all messages under way. -/
def Reassembler.rangeCount (r : Reassembler) : Nat :=
  KeyedSum.total (fun pending => pending.ranges.length) r.pending

/-- An empty fragment is refused, ends its message or lies inside a stored range: none is stored. -/
def Reassembler.StoresBytes (r : Reassembler) : ReassemblerCall → Prop
  | .insert _ sequence offset total bytes =>
    bytes ≠ [] ∨ (total = 0 ∨ total.toNat > r.maxMessage) ∨ offset > total ∨
      (∃ pending ∈ r.pending.lookup sequence, pending.total ≠ total) ∨
      ∃ range ∈ r.ranges sequence, range.offset < offset ∧ offset < range.end
  | .resetMessage _ => True

instance (r : Reassembler) (c : ReassemblerCall) : Decidable (r.StoresBytes c) := by
  unfold Reassembler.StoresBytes
  cases c with
  | insert =>
    have := @Option.decidableExistsMem
    infer_instance
  | resetMessage => exact isTrue trivial

/-- The messages and ranges that are held cost at least a byte each. -/
structure Reassembler.WithinBudget (r : Reassembler) : Prop where
  messages : r.pending.keys.length ≤ r.retained
  ranges : r.rangeCount ≤ r.retained
  retained : r.retained ≤ r.maxMessage

/-- Every message under way has a range, and every range a byte. -/
def Reassembler.Filled (r : Reassembler) : Prop :=
  ∀ sequence pending, r.pending.lookup sequence = some pending →
    pending.ranges ≠ [] ∧ ∀ range ∈ pending.ranges, range.bytes ≠ []

theorem length_le_rangeBytes {ranges : List Range} (h : ∀ range ∈ ranges, range.bytes ≠ []) :
    ranges.length ≤ rangeBytes ranges := by
  induction ranges with
  | nil => exact Nat.le_refl _
  | cons range ranges ih =>
    have hpos := List.length_pos_iff.mpr (h range (by simp))
    have hrest := ih fun other hother => h other (List.mem_cons_of_mem _ hother)
    unfold rangeBytes at hrest ⊢
    rw [List.map_cons, List.sum_cons, List.length_cons]
    omega

theorem Reassembler.Filled.withinBudget {r : Reassembler} (h : r.Filled) (hr : r.Sound) :
    r.WithinBudget := by
  have hranges : r.rangeCount ≤ r.retained := by
    rw [hr.retained]
    exact KeyedSum.total_mono fun sequence pending hfound =>
      length_le_rangeBytes (h sequence pending hfound).2
  have hmessages : r.pending.keys.length ≤ r.rangeCount := by
    rw [← KeyedSum.total_one]
    exact KeyedSum.total_mono fun sequence pending hfound =>
      List.length_pos_iff.mpr (h sequence pending hfound).1
  exact ⟨hmessages.trans hranges, hranges, hr.bounded⟩

theorem Reassembler.Filled.erased {r : Reassembler} (h : r.Filled) (sequence : UInt32) (retained : Nat) :
    Reassembler.Filled { r with retained, pending := r.pending.erase sequence } := by
  intro other pending hfound
  by_cases hkey : other = sequence
  · rw [hkey, AList.lookup_erase] at hfound
    cases hfound
  · rw [AList.lookup_erase_ne hkey] at hfound
    exact h other pending hfound

theorem Reassembler.Filled.reset {r : Reassembler} (h : r.Filled) (sequence : UInt32) :
    (r.resetMessage sequence).Filled := by
  unfold Reassembler.resetMessage
  split
  next => exact h
  next => exact h.erased sequence _

/-- A fragment that is stored has bytes, and so has all that is stored with it. -/
theorem Reassembler.Filled.stored {r : Reassembler} (h : r.Filled) {sequence offset total : UInt32}
    {bytes : Bytes} (hbytes : bytes ≠ []) (retained : Nat) :
    Reassembler.Filled { r with
      retained
      pending := r.pending.insert sequence { total, ranges := r.added sequence offset bytes } } := by
  intro other pending hfound
  by_cases hkey : other = sequence
  swap
  · rw [AList.lookup_insert_ne hkey] at hfound
    exact h other pending hfound
  rw [hkey, AList.lookup_insert] at hfound
  obtain rfl := Option.some.inj hfound
  have hperm := @perm_added r sequence offset bytes
  constructor
  · intro hnone
    dsimp only at hnone
    rw [hnone] at hperm
    have hlength := hperm.length_eq
    simp at hlength
  · intro range hrange
    rcases List.mem_append.mp (hperm.mem_iff.mp hrange) with hold | hnew
    · unfold Reassembler.ranges at hold
      cases hpending : r.pending.lookup sequence with
      | none =>
        rw [hpending] at hold
        cases hold
      | some pending =>
        rw [hpending] at hold
        exact (h sequence pending hpending).2 range hold
    · rw [List.mem_singleton.mp hnew]
      exact hbytes

theorem Reassembler.Filled.store {r : Reassembler} (h : r.Filled) (channel : ChannelId)
    {sequence offset total : UInt32} {bytes : Bytes} (hbytes : bytes ≠ []) :
    (r.store channel sequence offset total bytes).2.Filled := by
  by_cases hfull : (checkedAdd r.retained bytes.length).all (· > r.maxMessage) = true
  · rw [store_refused hfull]
    exact h
  by_cases hwhole : ∃ covered, coveredBy (r.added sequence offset bytes) 0 = some covered ∧
      ¬ covered < total
  · obtain ⟨covered, hcovered, hge⟩ := hwhole
    rw [store_completes hfull channel hcovered hge]
    exact h.erased sequence _
  · rw [store_kept hfull channel hwhole]
    exact h.stored hbytes _

/-- An empty fragment that is neither refused nor held is not what the scan calls fresh. -/
theorem Reassembler.Fits.bytes_ne_nil {r : Reassembler} {channel : ChannelId}
    {sequence offset total : UInt32} {bytes : Bytes} (h : r.Fits sequence offset total bytes)
    (hr : r.Sound) (hstores : r.StoresBytes (.insert channel sequence offset total bytes))
    (hscan : scanRanges offset (UInt32.ofNat (offset.toNat + bytes.length)) bytes
      (r.ranges sequence) = .fresh) : bytes ≠ [] := by
  rintro rfl
  have hfound := h.scanned hr
  rw [hscan] at hfound
  rcases hstores with hbytes | hbad | hpast | ⟨pending, hpending, hchanged⟩ | ⟨range, hrange, hlt, hlt'⟩
  · exact hbytes rfl
  · exact h.good hbad
  · have hle := h.inside
    have hgt := UInt32.lt_iff_toNat_lt.mp hpast
    change offset.toNat + 0 ≤ total.toNat at hle
    omega
  · exact hchanged (h.same pending hpending)
  · -- the fragment ends where it begins, inside the range
    have hend : UInt32.ofNat (offset.toNat + ([] : Bytes).length) = offset := by simp
    have hholds : range.Holds offset (UInt32.ofNat (offset.toNat + ([] : Bytes).length)) := by
      rw [hend]
      refine ⟨?_, UInt32.le_of_lt hlt, UInt32.le_of_lt hlt'⟩
      rintro (hle | hge)
      · exact UInt32.not_le.mpr hlt hle
      · exact UInt32.not_le.mpr hlt' hge
    exact (hfound range hrange).2 hholds

theorem Reassembler.Filled.step {r : Reassembler} (h : r.Filled) (hr : r.Sound) {c : ReassemblerCall}
    (hstores : r.StoresBytes c) : (r.step c).Filled := by
  cases c with
  | resetMessage sequence => exact h.reset sequence
  | insert channel sequence offset total bytes =>
    change (r.insert channel sequence offset total bytes).2.Filled
    by_cases hout : (ReassemblerCall.insert channel sequence offset total bytes).OutOfRange r.maxMessage
    · have hsame := (hr.simulates (.insert channel sequence offset total bytes)).untouched (.inl hout)
      change (r.insert channel sequence offset total bytes).2 = r at hsame
      rwa [hsame]
    have hgood : ¬ (total = 0 ∨ total.toNat > r.maxMessage) := fun hbad => hout (.inl hbad)
    have hinside : (fragmentPatch offset bytes).stop ≤ total.toNat :=
      Nat.le_of_not_lt fun hpast => hout (.inr hpast)
    by_cases hsame : ∀ pending ∈ r.pending.lookup sequence, pending.total = total
    · have hfits : r.Fits sequence offset total bytes := ⟨hgood, hinside, hsame⟩
      rw [hfits.insert_scanned channel]
      cases hscan : scanRanges offset (UInt32.ofNat (offset.toNat + bytes.length)) bytes
          (r.ranges sequence) with
      | conflict => exact h.reset sequence
      | contained => exact h
      | fresh => exact h.store channel (hfits.bytes_ne_nil hr hstores hscan)
    · push Not at hsame
      obtain ⟨pending, hfound, hchanged⟩ := hsame
      have hle : offset.toNat + bytes.length ≤ total.toNat := hinside
      rw [insert_changed hgood hle hfound (hr.entry sequence pending hfound).total hchanged]
      exact h.reset sequence

/-- Memory keeps within the budget in every run that stores no empty fragment. -/
theorem fragments_within_budget (maxMessage : Nat) (calls : List ReassemblerCall)
    (h : Along Reassembler.step Reassembler.StoresBytes { maxMessage } calls) :
    ∀ before after, calls = before ++ after →
      (run Reassembler.step { maxMessage } before).WithinBudget ∧
        (run Reassembler.step { maxMessage } before).maxMessage = maxMessage := by
  rintro before after rfl
  have hinvariant : (run Reassembler.step { maxMessage } before).Sound ∧
      (run Reassembler.step { maxMessage } before).Filled ∧
      (run Reassembler.step { maxMessage } before).maxMessage = maxMessage := by
    refine @run_invariant _ _ _ _ (fun r : Reassembler => r.Sound ∧ r.Filled ∧ r.maxMessage = maxMessage)
      ?_ _ _ ⟨fresh_sound maxMessage, fun _ _ hfound => (by cases hfound), rfl⟩ (along_append.mp h).1
    rintro r c ⟨hr, hfilled, hlimit⟩ hstores
    have hstep := hr.simulates c
    exact ⟨hstep.sound, hfilled.step hr hstores, hstep.limit.trans hlimit⟩
  obtain ⟨hr, hfilled, hlimit⟩ := hinvariant
  exact ⟨hfilled.withinBudget hr, hlimit⟩

/-- Two messages, and an empty fragment inside the first one's range. -/
theorem fragments_within_budget_two :
    (run Reassembler.step { maxMessage := 4 } [.insert {} 1 0 4 [7, 8], .insert {} 1 1 4 [],
      .insert {} 2 3 4 [9]]).WithinBudget :=
  (fragments_within_budget 4 _ (by decide +kernel) _ [] rfl).1

/-- Empty fragments of one message pile up and cost nothing. -/
theorem empty_fragments_pile_up :
    (run Reassembler.step { maxMessage := 8 } [.insert {} 1 0 5 [], .insert {} 1 0 5 [],
        .insert {} 2 0 5 []]).pending.keys.length = 2 ∧
      (run Reassembler.step { maxMessage := 8 } [.insert {} 1 0 5 [], .insert {} 1 0 5 [],
        .insert {} 2 0 5 []]).rangeCount = 3 ∧
      (run Reassembler.step { maxMessage := 8 } [.insert {} 1 0 5 [], .insert {} 1 0 5 [],
        .insert {} 2 0 5 []]).retained = 0 := by
  decide +kernel

end LatticeGateway
