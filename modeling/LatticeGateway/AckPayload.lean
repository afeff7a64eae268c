import LatticeGateway.Acknowledgement

namespace LatticeGateway

/-- The ranges that stand in the payload from an offset on. -/
def ackRangesAt (payload : Bytes) (offset count : Nat) : List AckRange :=
  (List.range count).map fun i =>
    { first := u32At payload (offset + 8 * i), last := u32At payload (offset + 8 * i + 4) }

/-- The ranges that an ACK payload lists. -/
def listedRanges (payload : Bytes) : List AckRange := ackRangesAt payload 4 (u16At payload 2).toNat

/-- As many bytes as the count wants. -/
def AckLaidOut (payload : Bytes) : Prop := payload.length = 4 + 8 * (u16At payload 2).toNat

instance (payload : Bytes) : Decidable (AckLaidOut payload) := inferInstanceAs (Decidable (_ = _))

/-- The payload that lists the ranges as they come. -/
def ackBytes (epoch : UInt16) (ranges : List AckRange) : Bytes :=
  u16Bytes epoch ++ (u16Bytes (UInt16.ofNat ranges.length) ++ ranges.flatMap ackRangeBytes)

def SortedRanges (ranges : List AckRange) : Prop := ranges.Pairwise fun a b => a.first ≤ b.first

theorem ackRangesAt_succ (payload : Bytes) (offset count : Nat) :
    ackRangesAt payload offset (count + 1) =
      { first := u32At payload offset, last := u32At payload (offset + 4) } ::
        ackRangesAt payload (offset + 8) count := by
  unfold ackRangesAt
  rw [List.range_succ_eq_map, List.map_cons, List.map_map, Nat.mul_zero, Nat.add_zero]
  refine congrArg _ (List.map_congr_left fun i _ => ?_)
  have hshift : offset + 8 * i.succ = offset + 8 + 8 * i := by omega
  rw [Function.comp_apply, hshift]

theorem readAckRanges_listed {payload : Bytes} {count offset : Nat}
    (h : offset + 8 * count ≤ payload.length) :
    readAckRanges payload count offset = .ok (ackRangesAt payload offset count) := by
  induction count generalizing offset with
  | zero => rfl
  | succ count ih =>
    have hfirst : readU32Be payload offset = .ok (u32At payload offset) := if_neg (by omega)
    have hlast : readU32Be payload (offset + 4) = .ok (u32At payload (offset + 4)) := if_neg (by omega)
    unfold readAckRanges
    rw [hfirst, hlast, ackRangesAt_succ]
    dsimp only
    rw [ih (by omega)]

/-- What is written for the ranges that were read are the bytes they were read from. -/
theorem flatMap_ackRangesAt {payload : Bytes} {count offset : Nat}
    (h : offset + 8 * count = payload.length) :
    (ackRangesAt payload offset count).flatMap ackRangeBytes = payload.drop offset := by
  induction count generalizing offset with
  | zero => rw [List.drop_eq_nil_of_le (by omega)]; rfl
  | succ count ih =>
    have hrest := ih (show offset + 8 + 8 * count = payload.length by omega)
    rw [ackRangesAt_succ, List.flatMap_cons, hrest]
    unfold ackRangeBytes
    dsimp only
    rw [u32Bytes_at (by omega), u32Bytes_at (by omega), List.append_assoc,
      drop_take_append payload (offset + 4) 4, drop_take_append payload offset 4]

theorem ackRangesAt_written (head : Bytes) (ranges : List AckRange) :
    ackRangesAt (head ++ ranges.flatMap ackRangeBytes) head.length ranges.length = ranges := by
  induction ranges generalizing head with
  | nil => rfl
  | cons range ranges ih =>
    have hbytes : head ++ (range :: ranges).flatMap ackRangeBytes =
        (head ++ ackRangeBytes range) ++ ranges.flatMap ackRangeBytes := by
      rw [List.flatMap_cons, List.append_assoc]
    have hlength : (head ++ ackRangeBytes range).length = head.length + 8 := by simp [ackRangeBytes]
    have hfirst : u32At (head ++ (range :: ranges).flatMap ackRangeBytes) head.length = range.first := by
      rw [List.flatMap_cons, ackRangeBytes, List.append_assoc]
      exact u32At_behind rfl _ _
    have hlast : u32At (head ++ (range :: ranges).flatMap ackRangeBytes) (head.length + 4) = range.last := by
      rw [List.flatMap_cons, ackRangeBytes, List.append_assoc, ← List.append_assoc head]
      exact u32At_behind (by simp) _ _
    have hrest := ih (head ++ ackRangeBytes range)
    rw [hlength, ← hbytes] at hrest
    rw [List.length_cons, ackRangesAt_succ, hfirst, hlast, hrest]

theorem AckLaidOut.bytes {payload : Bytes} (h : AckLaidOut payload) :
    ackBytes (u16At payload 0) (listedRanges payload) = payload := by
  unfold AckLaidOut at h
  have hcount : UInt16.ofNat (listedRanges payload).length = u16At payload 2 := by
    simp [listedRanges, ackRangesAt]
  unfold ackBytes
  rw [hcount, u16Bytes_at (i := 0) (by omega), u16Bytes_at (i := 2) (by omega)]
  unfold listedRanges
  rw [flatMap_ackRangesAt h.symm, drop_take_append payload 2 2, drop_take_append payload 0 2, List.drop_zero]

/-- An ACK of the ranges is laid out, and lists them under its epoch. -/
theorem ackBytes_reads (epoch : UInt16) {ranges : List AckRange} (h : ranges.length ≤ 0xFFFF) :
    AckLaidOut (ackBytes epoch ranges) ∧ u16At (ackBytes epoch ranges) 0 = epoch ∧
      listedRanges (ackBytes epoch ranges) = ranges := by
  have hcount : u16At (ackBytes epoch ranges) 2 = UInt16.ofNat ranges.length :=
    u16At_behind (length_u16Bytes epoch) _ _
  have hnat : (UInt16.ofNat ranges.length).toNat = ranges.length := by
    rw [UInt16.toNat_ofNat', Nat.mod_eq_of_lt (by omega)]
  have hbytes : (ranges.flatMap ackRangeBytes).length = 8 * ranges.length := by
    rw [List.length_flatMap]
    simp [ackRangeBytes, List.map_const', Nat.mul_comm]
  refine ⟨?_, u16At_u16Bytes epoch _, ?_⟩
  · unfold AckLaidOut
    rw [hcount, hnat]
    unfold ackBytes
    rw [List.length_append, List.length_append, hbytes]
    simp only [length_u16Bytes]
    omega
  · have hread := ackRangesAt_written (u16Bytes epoch ++ u16Bytes (UInt16.ofNat ranges.length)) ranges
    unfold listedRanges
    rw [hcount, hnat]
    rwa [List.append_assoc] at hread

/-- What passes the checks is in order, behind the range before it. -/
theorem checkRanges_sound {latest : Option UInt32} {previous : Option AckRange} {ranges : List AckRange}
    (h : checkRanges latest previous ranges = .ok ()) :
    (∀ range ∈ ranges, range.first ≤ range.last) ∧ ranges.Pairwise (fun a b => a.last < b.first) ∧
      ∀ before ∈ previous, ∀ range ∈ ranges, before.last < range.first := by
  induction ranges generalizing previous with
  | nil => exact ⟨by simp, .nil, by simp⟩
  | cons range ranges ih =>
    unfold checkRanges at h
    split at h
    next => cases h
    next hvalid =>
      split at h
      next => cases h
      next hbehind =>
        split at h
        next => cases h
        next =>
          obtain ⟨hall, hpair, hafter⟩ := ih h
          have hle : range.first ≤ range.last := UInt32.not_lt.mp hvalid
          refine ⟨List.forall_mem_cons.mpr ⟨hle, hall⟩,
            List.pairwise_cons.mpr ⟨hafter range rfl, hpair⟩, ?_⟩
          intro before hbefore
          obtain rfl : previous = some before := hbefore
          have hlt : before.last < range.first := by simpa using hbehind
          refine List.forall_mem_cons.mpr ⟨hlt, ?_⟩
          intro other hother
          exact UInt32.lt_trans (UInt32.lt_of_lt_of_le hlt hle) (hafter range rfl other hother)

theorem checkRanges_sorted_iff (ranges : List AckRange) :
    checkRanges none none (sortRanges ranges) = .ok () ↔ DisjointRanges ranges := by
  have hperm : (sortRanges ranges).Perm ranges := List.perm_insertionSort _ ranges
  constructor
  · intro h
    obtain ⟨hvalid, hpair, _⟩ := checkRanges_sound h
    refine ⟨fun range hrange => hvalid range (hperm.mem_iff.mpr hrange), ?_⟩
    exact (hperm.pairwise_iff fun hab => hab.symm).mp (hpair.imp Or.inl)
  · intro h
    have hcheck := @checkRanges_ok none none (sortRanges ranges)
      (fun range hrange => h.valid range (hperm.mem_iff.mp hrange)) h.sorted (by simp)
    exact hcheck.mpr (by simp)

theorem encodeAckPayload_iff {epoch : UInt16} {ranges : List AckRange} {payload : Bytes} :
    encodeAckPayload epoch ranges = .ok payload ↔
      DisjointRanges ranges ∧ ranges.length ≤ 0xFFFF ∧ ackBytes epoch (sortRanges ranges) = payload := by
  have hcount : (sortRanges ranges).length = ranges.length := List.length_insertionSort _ ranges
  unfold encodeAckPayload
  dsimp only
  rw [← checkRanges_sorted_iff, hcount]
  rcases hcheck : checkRanges none none (sortRanges ranges) with error | ok
  · simp
  · dsimp only
    by_cases hmany : ranges.length > 0xFFFF
    · rw [if_pos hmany]
      exact ⟨fun h => (by cases h), fun h => absurd h.2.1 (by omega)⟩
    · rw [if_neg hmany, List.append_assoc, ← hcount]
      unfold ackBytes
      constructor
      · intro h
        injection h with h
        exact ⟨rfl, by omega, h⟩
      · rintro ⟨_, _, h⟩
        rw [h]

/-- The payload is read if it is laid out and its ranges are disjoint; in whatever order. -/
theorem decodeAckPayload_iff {payload : Bytes} {epoch : UInt16} {ranges : List AckRange} :
    decodeAckPayload payload = .ok (epoch, ranges) ↔
      AckLaidOut payload ∧ DisjointRanges ranges ∧ epoch = u16At payload 0 ∧ ranges = listedRanges payload := by
  unfold decodeAckPayload AckLaidOut
  by_cases hlength : payload.length = 4 + 8 * (u16At payload 2).toNat
  · have hread := @readAckRanges_listed payload (u16At payload 2).toNat 4 (by omega)
    have hcount : (listedRanges payload).length ≤ 0xFFFF := by
      have hlt := (u16At payload 2).toNat_lt
      simp only [listedRanges, ackRangesAt, List.length_map, List.length_range]
      omega
    rw [if_neg (by omega)]
    dsimp only
    rw [if_neg (by omega), hread]
    have hlisted : ackRangesAt payload 4 (u16At payload 2).toNat = listedRanges payload := rfl
    rw [hlisted]
    dsimp only
    rcases hencode : encodeAckPayload (u16At payload 0) (listedRanges payload) with error | bytes
    · have hnot : ¬ DisjointRanges (listedRanges payload) := fun h => by
        rw [encodeAckPayload_iff.mpr ⟨h, hcount, rfl⟩] at hencode
        cases hencode
      refine iff_of_false (fun h => by cases h) ?_
      rintro ⟨_, hdisjoint, _, rfl⟩
      exact hnot hdisjoint
    · have hdisjoint := (encodeAckPayload_iff.mp hencode).1
      constructor
      · intro h
        cases h
        exact ⟨hlength, hdisjoint, rfl, rfl⟩
      · rintro ⟨_, _, rfl, rfl⟩
        rfl
  · refine iff_of_false ?_ fun h => hlength h.1
    intro h
    split at h
    next => cases h
    next =>
      dsimp only at h
      rw [if_pos (by omega)] at h
      cases h

theorem sortRanges_sorted {ranges : List AckRange} (h : SortedRanges ranges) : sortRanges ranges = ranges :=
  h.insertionSort_eq

/-- The payload is read as exactly what it is the encoding of. -/
def AckCanonical (payload : Bytes) : Prop :=
  ∀ (epoch : UInt16) (ranges : List AckRange), decodeAckPayload payload = .ok (epoch, ranges) ↔
    SortedRanges ranges ∧ encodeAckPayload epoch ranges = .ok payload

/-- The codec is canonical on exactly the payloads that do not list disjoint ranges out of order. -/
theorem ack_canonical_iff (payload : Bytes) :
    AckCanonical payload ↔
      (AckLaidOut payload → DisjointRanges (listedRanges payload) → SortedRanges (listedRanges payload)) := by
  constructor
  · intro h hlaid hdisjoint
    exact ((h _ _).mp (decodeAckPayload_iff.mpr ⟨hlaid, hdisjoint, rfl, rfl⟩)).1
  · intro h epoch ranges
    constructor
    · intro hdecode
      obtain ⟨hlaid, hdisjoint, rfl, rfl⟩ := decodeAckPayload_iff.mp hdecode
      have hsorted := h hlaid hdisjoint
      have hcount : (listedRanges payload).length ≤ 0xFFFF := by
        have hlt := (u16At payload 2).toNat_lt
        simp only [listedRanges, ackRangesAt, List.length_map, List.length_range]
        omega
      refine ⟨hsorted, encodeAckPayload_iff.mpr ⟨hdisjoint, hcount, ?_⟩⟩
      rw [sortRanges_sorted hsorted]
      exact hlaid.bytes
    · rintro ⟨hsorted, hencode⟩
      obtain ⟨hdisjoint, hcount, hbytes⟩ := encodeAckPayload_iff.mp hencode
      rw [sortRanges_sorted hsorted] at hbytes
      subst hbytes
      obtain ⟨hlaid, hepoch, hranges⟩ := ackBytes_reads epoch hcount
      exact decodeAckPayload_iff.mpr ⟨hlaid, hdisjoint, hepoch.symm, hranges.symm⟩

/-- Two disjoint ranges, the second before the first. -/
def swappedAck : Bytes := ackBytes 1 [{ first := 5, last := 6 }, { first := 1, last := 2 }]

theorem ack_not_canonical : ¬ AckCanonical swappedAck := by
  intro h
  obtain ⟨hlaid, hvalid, hdisjoint, hunsorted⟩ : AckLaidOut swappedAck ∧
      (∀ range ∈ listedRanges swappedAck, range.first ≤ range.last) ∧
      (listedRanges swappedAck).Pairwise (fun a b => a.last < b.first ∨ b.last < a.first) ∧
      ¬ (listedRanges swappedAck).Pairwise (fun a b => a.first ≤ b.first) := by
    decide +kernel
  have hdecode := decodeAckPayload_iff.mpr ⟨hlaid, ⟨hvalid, hdisjoint⟩, rfl, rfl⟩
  exact hunsorted ((h _ _).mp hdecode).1

end LatticeGateway
