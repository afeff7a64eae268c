import LatticeGateway.ChannelState
import LatticeGateway.Patchwork

namespace LatticeGateway

open Patchwork

/-- A stored range as a patch of its message. -/
def Range.patch (range : Range) : Patch UInt8 := ⟨range.offset.toNat, range.bytes⟩

/-- A fragment that is offered. -/
def fragmentPatch (offset : UInt32) (bytes : Bytes) : Patch UInt8 := ⟨offset.toNat, bytes⟩

def patches (ranges : List Range) : List (Patch UInt8) := ranges.map Range.patch

theorem Range.end_toNat {range : Range} (h : range.patch.stop < 2 ^ 32) :
    range.end.toNat = range.patch.stop := by
  unfold Range.end
  rw [UInt32.toNat_ofNat']
  exact Nat.mod_eq_of_lt h

/-- The range reaches around the fragment, and not only up to it. -/
def Range.Holds (range : Range) (offset fragmentEnd : UInt32) : Prop :=
  ¬ (fragmentEnd ≤ range.offset ∨ offset ≥ range.end) ∧ offset ≥ range.offset ∧ fragmentEnd ≤ range.end

theorem byteAt_patch {start : Nat} {bytes : Bytes} {i : Nat} {a : UInt8}
    (h : Patch.at ⟨start, bytes⟩ i = some a) : byteAt bytes (i - start) = a := by
  have hitem := (Patch.at_eq_some_iff.mp h).2
  unfold byteAt
  rw [List.getD_eq_getElem?_getD, hitem]
  rfl

section

variable {range : Range} {offset fragmentEnd : UInt32} {bytes : Bytes}
  (hrange : range.end.toNat = range.patch.stop)
  (hfragment : fragmentEnd.toNat = (fragmentPatch offset bytes).stop)

include hrange hfragment

theorem agree_of_disjoint (h : fragmentEnd ≤ range.offset ∨ offset ≥ range.end) :
    Agree range.patch.at (fragmentPatch offset bytes).at := by
  intro i a b ha hb
  obtain ⟨hstart, hstop⟩ := Patch.at_bounds ha
  obtain ⟨hstart', hstop'⟩ := Patch.at_bounds hb
  change range.offset.toNat ≤ i at hstart
  change offset.toNat ≤ i at hstart'
  rcases h with hbefore | hbehind
  · have hle := UInt32.le_iff_toNat_le.mp hbefore
    omega
  · have hle := UInt32.le_iff_toNat_le.mp hbehind
    omega

theorem overlapAgrees_iff : overlapAgrees range offset fragmentEnd bytes = true ↔
    Agree range.patch.at (fragmentPatch offset bytes).at := by
  unfold overlapAgrees
  dsimp only
  rw [List.all_eq_true]
  constructor
  · intro hall i a b ha hb
    obtain ⟨hstart, hstop⟩ := Patch.at_bounds ha
    obtain ⟨hstart', hstop'⟩ := Patch.at_bounds hb
    change range.offset.toNat ≤ i at hstart
    change offset.toNat ≤ i at hstart'
    have hsame := hall (i - max offset.toNat range.offset.toNat) (List.mem_range.mpr (by omega))
    rw [Nat.add_sub_cancel' (by omega), beq_iff_eq] at hsame
    rw [← byteAt_patch ha, ← byteAt_patch hb]
    exact hsame
  · intro hagree j hj
    have hlt := List.mem_range.mp hj
    obtain ⟨a, ha⟩ := @Patch.at_of_bounds _ range.patch (max offset.toNat range.offset.toNat + j)
      (by change range.offset.toNat ≤ _; omega) (by omega)
    obtain ⟨b, hb⟩ := @Patch.at_of_bounds _ (fragmentPatch offset bytes)
      (max offset.toNat range.offset.toNat + j) (by change offset.toNat ≤ _; omega) (by omega)
    rw [beq_iff_eq, byteAt_patch ha, byteAt_patch hb]
    exact hagree _ a b ha hb

/-- A range that holds a fragment and agrees with it says all that the fragment says. -/
theorem Range.Holds.knows (h : range.Holds offset fragmentEnd)
    (hagree : Agree range.patch.at (fragmentPatch offset bytes).at) {i : Nat} {b : UInt8}
    (hb : (fragmentPatch offset bytes).at i = some b) : range.patch.at i = some b := by
  obtain ⟨_, hge, hle⟩ := h
  have hge := UInt32.le_iff_toNat_le.mp hge
  have hle := UInt32.le_iff_toNat_le.mp hle
  obtain ⟨hstart, hstop⟩ := Patch.at_bounds hb
  change offset.toNat ≤ i at hstart
  obtain ⟨a, ha⟩ := @Patch.at_of_bounds _ range.patch i (by change range.offset.toNat ≤ i; omega)
    (by omega)
  rw [ha, hagree i a b ha hb]

end

/-- What a scan of the stored ranges says about a fragment. -/
def Found (offset fragmentEnd : UInt32) (bytes : Bytes) (ranges : List Range) : Overlap → Prop
  | .conflict => ∃ range ∈ ranges, ¬ Agree range.patch.at (fragmentPatch offset bytes).at
  | .contained => ∃ range ∈ ranges, range.Holds offset fragmentEnd ∧
      Agree range.patch.at (fragmentPatch offset bytes).at
  | .fresh => ∀ range ∈ ranges, Agree range.patch.at (fragmentPatch offset bytes).at ∧
      ¬ range.Holds offset fragmentEnd

/-- A range that settles nothing leaves the answer to the others. -/
theorem Found.cons {offset fragmentEnd : UInt32} {bytes : Bytes} {range : Range} {ranges : List Range}
    {overlap : Overlap} (h : Found offset fragmentEnd bytes ranges overlap)
    (hagree : Agree range.patch.at (fragmentPatch offset bytes).at)
    (hholds : ¬ range.Holds offset fragmentEnd) :
    Found offset fragmentEnd bytes (range :: ranges) overlap := by
  cases overlap with
  | conflict =>
    obtain ⟨other, hother, hconflict⟩ := h
    exact ⟨other, List.mem_cons_of_mem _ hother, hconflict⟩
  | contained =>
    obtain ⟨other, hother, hcontained⟩ := h
    exact ⟨other, List.mem_cons_of_mem _ hother, hcontained⟩
  | fresh =>
    intro other hother
    rcases List.mem_cons.mp hother with rfl | hother
    · exact ⟨hagree, hholds⟩
    · exact h other hother

theorem scanRanges_found {offset fragmentEnd : UInt32} {bytes : Bytes} {ranges : List Range}
    (hranges : ∀ range ∈ ranges, range.end.toNat = range.patch.stop)
    (hfragment : fragmentEnd.toNat = (fragmentPatch offset bytes).stop) :
    Found offset fragmentEnd bytes ranges (scanRanges offset fragmentEnd bytes ranges) := by
  induction ranges with
  | nil =>
    intro range hrange
    cases hrange
  | cons range ranges ih =>
    have hrange := hranges range (by simp)
    have hrest := ih fun other hother => hranges other (List.mem_cons_of_mem _ hother)
    unfold scanRanges
    by_cases hdisjoint : fragmentEnd ≤ range.offset ∨ offset ≥ range.end
    · rw [if_pos hdisjoint]
      exact hrest.cons (agree_of_disjoint hrange hfragment hdisjoint) fun h => h.1 hdisjoint
    rw [if_neg hdisjoint]
    by_cases hagree : overlapAgrees range offset fragmentEnd bytes = false
    · rw [if_pos hagree]
      refine ⟨range, by simp, fun h => ?_⟩
      rw [(overlapAgrees_iff hrange hfragment).mpr h] at hagree
      cases hagree
    have hagrees := (overlapAgrees_iff hrange hfragment).mp (by simpa using hagree)
    rw [if_neg hagree]
    by_cases hwithin : offset ≥ range.offset ∧ fragmentEnd ≤ range.end
    · rw [if_pos hwithin]
      exact ⟨range, by simp, ⟨hdisjoint, hwithin⟩, hagrees⟩
    · rw [if_neg hwithin]
      exact hrest.cons hagrees fun h => hwithin h.2

theorem toNat_max (a b : UInt32) : (max a b).toNat = max a.toNat b.toNat := by
  change (if a ≤ b then b else a).toNat = _
  split
  next hle =>
    have := UInt32.le_iff_toNat_le.mp hle
    omega
  next hle =>
    have := UInt32.lt_iff_toNat_lt.mp (UInt32.not_le.mp hle)
    omega

theorem coveredBy_sweep {ranges : List Range}
    (hranges : ∀ range ∈ ranges, range.end.toNat = range.patch.stop) (covered : UInt32) :
    (coveredBy ranges covered).map UInt32.toNat = sweep (patches ranges) covered.toNat := by
  induction ranges generalizing covered with
  | nil => rfl
  | cons range ranges ih =>
    have hrange := hranges range (by simp)
    have hstart : range.offset > covered ↔ range.patch.start > covered.toNat := UInt32.lt_iff_toNat_lt
    unfold coveredBy patches sweep
    rw [List.map_cons]
    dsimp only
    by_cases hgap : range.offset > covered
    · rw [if_pos hgap, if_pos (hstart.mp hgap)]
      rfl
    · rw [if_neg hgap, if_neg (fun h => hgap (hstart.mpr h)),
        ih fun other hother => hranges other (List.mem_cons_of_mem _ hother), toNat_max, hrange]
      rfl

theorem foldl_overwrite (ranges : List Range) (payload : Bytes) :
    ranges.foldl overwrite payload = (patches ranges).foldl paint payload := by
  unfold patches
  rw [List.foldl_map]
  rfl

end LatticeGateway
