import LatticeGateway.MessageFamily

namespace LatticeGateway

/-- Fragments stored one behind the other, the first at `offset`. -/
def laid : Nat → List Bytes → List Range
  | _, [] => []
  | offset, bytes :: rest => { offset := UInt32.ofNat offset, bytes } :: laid (offset + bytes.length) rest

theorem laid_append (offset : Nat) (fragments more : List Bytes) :
    laid offset (fragments ++ more) =
      laid offset fragments ++ laid (offset + fragments.flatten.length) more := by
  induction fragments generalizing offset with
  | nil => rfl
  | cons bytes rest ih =>
    rw [List.cons_append, laid, ih, laid, List.cons_append, List.flatten_cons, List.length_append,
      Nat.add_assoc]

theorem laid_offset {offset : Nat} {fragments : List Bytes} {range : Range}
    (h : range ∈ laid offset fragments) (hsmall : offset + fragments.flatten.length < 2 ^ 32) :
    offset ≤ range.offset.toNat ∧
      range.offset.toNat + range.bytes.length ≤ offset + fragments.flatten.length ∧
      range.end.toNat = range.offset.toNat + range.bytes.length := by
  induction fragments generalizing offset with
  | nil => cases h
  | cons bytes rest ih =>
    rw [List.flatten_cons, List.length_append] at hsmall ⊢
    rcases List.mem_cons.mp h with rfl | hrest
    · have hoffset : (UInt32.ofNat offset).toNat = offset := by
        rw [UInt32.toNat_ofNat']
        omega
      unfold Range.end
      dsimp only
      rw [hoffset, UInt32.toNat_ofNat']
      omega
    · obtain ⟨hge, hle, hend⟩ := ih hrest (by omega)
      exact ⟨by omega, by omega, hend⟩

theorem laid_sorted {offset : Nat} {fragments : List Bytes}
    (hsmall : offset + fragments.flatten.length < 2 ^ 32) :
    (laid offset fragments).Pairwise fun a b => a.offset ≤ b.offset := by
  induction fragments generalizing offset with
  | nil => exact .nil
  | cons bytes rest ih =>
    rw [List.flatten_cons, List.length_append] at hsmall
    refine .cons ?_ (ih (by omega))
    intro range hrange
    have hge := (laid_offset hrange (by omega)).1
    refine UInt32.le_iff_toNat_le.mpr ?_
    rw [UInt32.toNat_ofNat']
    omega

theorem laid_covered {offset : Nat} {fragments : List Bytes}
    (hsmall : offset + fragments.flatten.length < 2 ^ 32) :
    coveredBy (laid offset fragments) (UInt32.ofNat offset) =
      some (UInt32.ofNat (offset + fragments.flatten.length)) := by
  induction fragments generalizing offset with
  | nil => rfl
  | cons bytes rest ih =>
    rw [List.flatten_cons, List.length_append] at hsmall
    have hoffset : (UInt32.ofNat offset).toNat = offset := by
      rw [UInt32.toNat_ofNat']
      omega
    have hend : Range.end { offset := UInt32.ofNat offset, bytes } =
        UInt32.ofNat (offset + bytes.length) := by
      unfold Range.end
      dsimp only
      rw [hoffset]
    have hmax : max (UInt32.ofNat offset) (UInt32.ofNat (offset + bytes.length)) =
        UInt32.ofNat (offset + bytes.length) := by
      have hle : UInt32.ofNat offset ≤ UInt32.ofNat (offset + bytes.length) := by
        refine UInt32.le_iff_toNat_le.mpr ?_
        rw [hoffset, UInt32.toNat_ofNat']
        omega
      exact if_pos hle
    unfold laid coveredBy
    rw [if_neg (UInt32.lt_irrefl _), hend, hmax, ih (by omega), List.flatten_cons, List.length_append,
      Nat.add_assoc]

theorem laid_overwrite {offset : Nat} {fragments : List Bytes} {payload : Bytes}
    (hsmall : offset + fragments.flatten.length < 2 ^ 32)
    (hroom : offset + fragments.flatten.length ≤ payload.length) :
    (laid offset fragments).foldl overwrite payload =
      payload.take offset ++ fragments.flatten ++ payload.drop (offset + fragments.flatten.length) := by
  induction fragments generalizing offset payload with
  | nil => simp [laid]
  | cons bytes rest ih =>
    rw [List.flatten_cons, List.length_append] at hsmall hroom ⊢
    have hoffset : (UInt32.ofNat offset).toNat = offset := by
      rw [UInt32.toNat_ofNat']
      omega
    have hwritten : overwrite payload { offset := UInt32.ofNat offset, bytes } =
        payload.take offset ++ bytes ++ payload.drop (offset + bytes.length) := by
      unfold overwrite
      rw [hoffset]
    have hhead : (payload.take offset ++ bytes).length = offset + bytes.length := by
      rw [List.length_append, List.length_take]
      omega
    have htake : (payload.take offset ++ bytes ++ payload.drop (offset + bytes.length)).take
        (offset + bytes.length) = payload.take offset ++ bytes := List.take_left' hhead
    have hdrop : (payload.take offset ++ bytes ++ payload.drop (offset + bytes.length)).drop
        (offset + bytes.length + rest.flatten.length) =
          payload.drop (offset + (bytes.length + rest.flatten.length)) := by
      rw [← List.drop_drop, List.drop_left' hhead, List.drop_drop, Nat.add_assoc]
    have hlonger : offset + bytes.length + rest.flatten.length ≤
        (payload.take offset ++ bytes ++ payload.drop (offset + bytes.length)).length := by
      rw [List.length_append, hhead, List.length_drop]
      omega
    rw [laid, List.foldl_cons, hwritten, ih (by omega) hlonger, htake, hdrop]
    simp only [List.append_assoc]

theorem rangeBytes_laid (offset : Nat) (fragments : List Bytes) :
    rangeBytes (laid offset fragments) = fragments.flatten.length := by
  induction fragments generalizing offset with
  | nil => rfl
  | cons bytes rest ih =>
    have hrest := ih (offset + bytes.length)
    unfold rangeBytes at hrest ⊢
    rw [laid, List.map_cons, List.sum_cons, hrest, List.flatten_cons, List.length_append]

theorem scanRanges_behind {offset fragmentEnd : UInt32} {bytes : Bytes} {ranges : List Range}
    (h : ∀ range ∈ ranges, range.end ≤ offset) : scanRanges offset fragmentEnd bytes ranges = .fresh := by
  induction ranges with
  | nil => rfl
  | cons range ranges ih =>
    unfold scanRanges
    rw [if_pos (.inr (h range (by simp)))]
    exact ih fun other hother => h other (List.mem_cons_of_mem _ hother)

/-- Nothing that is held reaches behind the last of the fragments. -/
theorem scanRanges_laid {fragments : List Bytes} (hsmall : fragments.flatten.length < 2 ^ 32)
    (fragmentEnd : UInt32) (bytes : Bytes) :
    scanRanges (UInt32.ofNat fragments.flatten.length) fragmentEnd bytes (laid 0 fragments) = .fresh := by
  refine scanRanges_behind fun range hrange => ?_
  obtain ⟨_, hle, hend⟩ := laid_offset hrange (by omega)
  refine UInt32.le_iff_toNat_le.mpr ?_
  rw [UInt32.toNat_ofNat']
  omega

theorem laid_insertionSort {fragments : List Bytes} {bytes : Bytes}
    (hsmall : (fragments ++ [bytes]).flatten.length < 2 ^ 32) :
    List.insertionSort (fun a b : Range => a.offset ≤ b.offset)
      (laid 0 fragments ++ [{ offset := UInt32.ofNat fragments.flatten.length, bytes }]) =
        laid 0 (fragments ++ [bytes]) := by
  have happend : laid 0 (fragments ++ [bytes]) =
      laid 0 fragments ++ [{ offset := UInt32.ofNat fragments.flatten.length, bytes }] := by
    rw [laid_append, Nat.zero_add]
    rfl
  rw [← happend]
  exact (laid_sorted (by omega)).insertionSort_eq

/-- Written over a buffer of their own length, the fragments are what it holds. -/
theorem laid_joined {fragments : List Bytes} (hsmall : fragments.flatten.length < 2 ^ 32) :
    (laid 0 fragments).foldl overwrite (List.replicate fragments.flatten.length 0) =
      fragments.flatten := by
  have hroom : 0 + fragments.flatten.length ≤
      (List.replicate fragments.flatten.length (0 : UInt8)).length := by
    rw [List.length_replicate]
    omega
  have hdrop : (List.replicate fragments.flatten.length (0 : UInt8)).drop
      (0 + fragments.flatten.length) = [] := by
    refine List.drop_eq_nil_of_le ?_
    rw [List.length_replicate]
    omega
  rw [laid_overwrite (by omega) hroom, List.take_zero, List.nil_append, hdrop, List.append_nil]

/-- The reassembler holds the first fragments of one message, and nothing else. -/
structure Reassembler.Holds (r : Reassembler) (sequence total : UInt32) (fragments : List Bytes) : Prop where
  found : r.pending.lookup sequence =
    if fragments = [] then none else some { total, ranges := laid 0 fragments }
  others : ∀ other, other ≠ sequence → r.pending.lookup other = none
  retained : r.retained = fragments.flatten.length

theorem Reassembler.Holds.next {r : Reassembler} {sequence total : UInt32}
    (h : r.Holds sequence total []) (sequence' total' : UInt32) : r.Holds sequence' total' [] := by
  have hnone : ∀ other, r.pending.lookup other = none := by
    intro other
    by_cases hsame : other = sequence
    · rw [hsame, h.found, if_pos rfl]
    · exact h.others other hsame
  refine ⟨?_, fun other _ => hnone other, h.retained⟩
  rw [hnone, if_pos rfl]

/-- The entry of the message, which a first fragment makes, has the ranges held and no other total. -/
theorem Reassembler.Holds.entry {r : Reassembler} {sequence total : UInt32} {fragments : List Bytes}
    (h : r.Holds sequence total fragments) :
    ((r.pending.lookup sequence).getD {}).ranges = laid 0 fragments ∧
      (((r.pending.lookup sequence).getD {}).total = 0 ∨
        ((r.pending.lookup sequence).getD {}).total = total) := by
  rw [h.found]
  by_cases hnil : fragments = []
  · rw [if_pos hnil, hnil]
    exact ⟨rfl, .inl rfl⟩
  · rw [if_neg hnil]
    exact ⟨rfl, .inr rfl⟩

/-- The fragment behind those that are held is stored, or completes the message. -/
theorem Reassembler.Holds.insert {r : Reassembler} {sequence total : UInt32} {fragments : List Bytes}
    (h : r.Holds sequence total fragments) (channel : ChannelId) {bytes : Bytes} (hne : bytes ≠ [])
    (hfits : fragments.flatten.length + bytes.length ≤ total.toNat) (hmax : total.toNat ≤ r.maxMessage) :
    ∃ r', r'.maxMessage = r.maxMessage ∧
      if fragments.flatten.length + bytes.length < total.toNat then
        r.insert channel sequence (UInt32.ofNat fragments.flatten.length) total bytes = (.ok none, r') ∧
          r'.Holds sequence total (fragments ++ [bytes])
      else
        r.insert channel sequence (UInt32.ofNat fragments.flatten.length) total bytes =
          (.ok (some { channel, sequence, payload := fragments.flatten ++ bytes }), r') ∧
          r'.Holds sequence total [] := by
  have htotal := total.toNat_lt
  have hpos : 0 < bytes.length := List.length_pos_iff.mpr hne
  have hlength : (fragments ++ [bytes]).flatten.length = fragments.flatten.length + bytes.length := by
    simp
  have hoffset : (UInt32.ofNat fragments.flatten.length).toNat = fragments.flatten.length := by
    rw [UInt32.toNat_ofNat']
    omega
  have hnonzero : total ≠ 0 := by
    rintro rfl
    rw [UInt32.toNat_zero] at hfits
    omega
  obtain ⟨hranges, hsame⟩ := h.entry
  have hcovered : coveredBy (laid 0 (fragments ++ [bytes])) 0 =
      some (UInt32.ofNat (fragments.flatten.length + bytes.length)) := by
    have hall := @laid_covered 0 (fragments ++ [bytes]) (by omega)
    rw [hlength, Nat.zero_add] at hall
    exact hall
  have hend : (UInt32.ofNat (fragments.flatten.length + bytes.length)).toNat =
      fragments.flatten.length + bytes.length := by
    rw [UInt32.toNat_ofNat']
    omega
  unfold Reassembler.insert
  rw [if_neg (by rintro (hzero | hover) <;> [exact hnonzero hzero; omega])]
  dsimp only
  rw [hoffset, checkedAdd_of_lt (by omega)]
  dsimp only
  rw [if_neg (by omega), if_neg (by rintro ⟨hset, hother⟩; exact hsame.elim hset hother), hranges,
    scanRanges_laid (by omega)]
  dsimp only
  rw [h.retained, checkedAdd_of_lt (by omega)]
  dsimp only
  rw [if_neg (by omega), laid_insertionSort (by omega), hcovered]
  dsimp only
  split
  next hless =>
    have hlt : UInt32.ofNat (fragments.flatten.length + bytes.length) < total := by
      refine UInt32.lt_iff_toNat_lt.mpr ?_
      omega
    rw [if_pos hlt]
    refine ⟨{ r with retained := fragments.flatten.length + bytes.length
                     pending := r.pending.insert sequence { total, ranges := laid 0 (fragments ++ [bytes]) } },
      rfl, rfl, ?_, ?_, ?_⟩
    · rw [AList.lookup_insert, if_neg (by simp)]
    · intro other hother
      rw [AList.lookup_insert_ne hother]
      exact h.others other hother
    · exact hlength.symm
  next hdone =>
    have hge : ¬ UInt32.ofNat (fragments.flatten.length + bytes.length) < total := by
      intro hlt
      have := UInt32.lt_iff_toNat_lt.mp hlt
      omega
    have hwhole : total.toNat = (fragments ++ [bytes]).flatten.length := by omega
    rw [if_neg hge, hwhole, laid_joined (by omega), rangeBytes_laid, hlength, Nat.sub_self,
      List.flatten_append, List.flatten_singleton]
    refine ⟨{ r with retained := 0, pending := r.pending.erase sequence }, rfl, rfl, ?_, ?_, rfl⟩
    · rw [AList.lookup_erase, if_pos rfl]
    · intro other hother
      rw [AList.lookup_erase_ne hother]
      exact h.others other hother

end LatticeGateway
