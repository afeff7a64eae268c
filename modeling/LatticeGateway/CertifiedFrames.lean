import LatticeGateway.Inspection

namespace LatticeGateway

/-- No finding of the inspection is an error. -/
def Certified (findings : List FrameFinding) : Prop := ∀ finding ∈ findings, finding.severity ≠ .error

instance decidableCertified (findings : List FrameFinding) : Decidable (Certified findings) :=
  inferInstanceAs (Decidable (∀ finding ∈ findings, finding.severity ≠ .error))

theorem certified_append {findings more : List FrameFinding} :
    Certified (findings ++ more) ↔ Certified findings ∧ Certified more := List.forall_mem_append

theorem not_certified_singleton {finding : FrameFinding} (h : finding.severity = .error) :
    ¬ Certified [finding] := fun hcertified => hcertified finding (List.mem_singleton_self _) h

namespace Frame

variable {frame : Frame} {index : Nat}

theorem dataExtensionFindings_certified {type : UInt16} {missingCode : FrameFindingCode} {name : String}
    (h : Certified (frame.dataExtensionFindings index type missingCode name)) :
    ∃ value, extensionU32 frame type = .ok value := by
  unfold dataExtensionFindings at h
  unfold extensionU32
  cases hext : findExtension frame type with
  | none =>
    rw [hext] at h
    exact (not_certified_singleton rfl h).elim
  | some ext =>
    rw [hext] at h
    dsimp only at h ⊢
    split at h
    next => exact (not_certified_singleton rfl h).elim
    next hsize =>
      rw [if_neg hsize]
      unfold readU32Be
      rw [if_neg (by omega)]
      exact ⟨_, rfl⟩

theorem zeroTotalFindings_certified (h : Certified (frame.zeroTotalFindings index)) {total : UInt32}
    (htotal : extensionU32 frame kExtMessageTotal = .ok total) : total ≠ 0 := by
  unfold zeroTotalFindings at h
  rw [htotal] at h
  dsimp only at h
  split at h
  next => exact (not_certified_singleton rfl h).elim
  next hne => exact hne

end Frame

/-- A reassembler that holds nothing takes a fragment exactly if its total is one that it allows and the
fragment ends within it. -/
theorem Reassembler.insert_fresh_iff {maxMessage : Nat} {channel : ChannelId}
    {sequence offset total : UInt32} {bytes : Bytes} :
    (∃ message, (Reassembler.insert { maxMessage } channel sequence offset total bytes).1 = .ok message) ↔
      total ≠ 0 ∧ total.toNat ≤ maxMessage ∧ offset.toNat + bytes.length ≤ total.toNat := by
  unfold Reassembler.insert
  dsimp only
  by_cases hlimit : total = 0 ∨ total.toNat > maxMessage
  · rw [if_pos hlimit]
    constructor
    · rintro ⟨message, ⟨⟩⟩
    · rintro ⟨hne, hle, _⟩
      rcases hlimit with hzero | hlarge
      · exact (hne hzero).elim
      · omega
  · rw [if_neg hlimit]
    obtain ⟨hne, hle⟩ := not_or.mp hlimit
    have htotal := total.toNat_lt
    cases hend : checkedAdd offset.toNat bytes.length with
    | none =>
      constructor
      · rintro ⟨message, ⟨⟩⟩
      · rintro ⟨_, _, hfits⟩
        rw [checkedAdd_of_lt (by omega)] at hend
        cases hend
    | some fragmentEnd =>
      have hsum : fragmentEnd = offset.toNat + bytes.length := checkedAdd_eq_some hend
      dsimp only
      by_cases hpast : fragmentEnd > total.toNat
      · rw [if_pos hpast]
        constructor
        · rintro ⟨message, ⟨⟩⟩
        · rintro ⟨_, _, hfits⟩
          omega
      · rw [if_neg hpast]
        refine ⟨fun _ => ⟨hne, by omega, by omega⟩, fun _ => ?_⟩
        have hnone : ((∅ : AList fun _ : UInt32 => Pending).lookup sequence).getD {} = {} := by
          rw [AList.lookup_empty]
          rfl
        have hretained : checkedAdd 0 bytes.length = some bytes.length := by
          rw [checkedAdd_of_lt (by omega), Nat.zero_add]
        rw [hnone, if_neg fun hfound => hfound.1 rfl]
        dsimp only [scanRanges]
        rw [hretained]
        dsimp only
        rw [if_neg (by omega)]
        split
        next => exact ⟨_, rfl⟩
        next => split <;> exact ⟨_, rfl⟩

/-- What `handle_data` needs of a frame: the four numbers, and a new reassembler that takes the fragment. -/
def Receivable (frame : Frame) (maxMessage : Nat) : Prop :=
  ∃ sequence offset total family, extensionU32 frame kExtMessageSeq = .ok sequence ∧
    extensionU32 frame kExtFragmentOffset = .ok offset ∧ extensionU32 frame kExtMessageTotal = .ok total ∧
    extensionU32 frame kExtFamilyId = .ok family ∧
    ∃ message, (Reassembler.insert { maxMessage } frame.channel sequence offset total frame.payload).1 =
      .ok message

/-- The payload of the frame, from its declared offset, ends within its declared total. -/
def PayloadFits (frame : Frame) : Prop :=
  ∀ offset total, extensionU32 frame kExtFragmentOffset = .ok offset →
    extensionU32 frame kExtMessageTotal = .ok total → offset.toNat + frame.payload.length ≤ total.toNat

/-- A DATA frame without error findings is received exactly if its payload ends within the total: the
inspection only looks at where it starts. -/
theorem certified_receivable_iff (frame : Frame) (index : Nat) (hdata : frame.type = .data)
    (h : Certified (inspectFrame frame index)) (maxMessage : Nat)
    (hmax : ∀ total, extensionU32 frame kExtMessageTotal = .ok total → total.toNat ≤ maxMessage) :
    Receivable frame maxMessage ↔ PayloadFits frame := by
  have hfindings : Certified (frame.dataFindings index) := by
    unfold inspectFrame at h
    rw [if_pos hdata] at h
    simp only [certified_append] at h
    exact h.1.1.1.2
  unfold Frame.dataFindings at hfindings
  simp only [certified_append] at hfindings
  obtain ⟨⟨⟨⟨⟨hseq, hoffset⟩, htotal⟩, hfamily⟩, hzero⟩, _⟩ := hfindings
  obtain ⟨sequence, hseq⟩ := Frame.dataExtensionFindings_certified hseq
  obtain ⟨offset, hoffset⟩ := Frame.dataExtensionFindings_certified hoffset
  obtain ⟨total, htotal⟩ := Frame.dataExtensionFindings_certified htotal
  obtain ⟨family, hfamily⟩ := Frame.dataExtensionFindings_certified hfamily
  have hne := Frame.zeroTotalFindings_certified hzero htotal
  have hle := hmax total htotal
  unfold Receivable PayloadFits
  rw [hseq, hoffset, htotal, hfamily]
  constructor
  · rintro ⟨_, _, _, _, ⟨⟩, ⟨⟩, ⟨⟩, ⟨⟩, hmessage⟩
    rintro _ _ ⟨⟩ ⟨⟩
    exact (Reassembler.insert_fresh_iff.mp hmessage).2.2
  · intro hfits
    exact ⟨sequence, offset, total, family, rfl, rfl, rfl, rfl,
      Reassembler.insert_fresh_iff.mpr ⟨hne, hle, hfits offset total rfl rfl⟩⟩

/-- A fragment of that payload of a message of two bytes. -/
def pairFragment (offset : Nat) (payload : Bytes) : Frame :=
  { type := .data, channel := ⟨1, 1⟩, extensions := ConnectionEngine.fragmentExtensions 1 offset 2, payload }

theorem certified_receivable_pair : Receivable (pairFragment 1 [65]) 2 := by
  have htotal : extensionU32 (pairFragment 1 [65]) kExtMessageTotal = .ok 2 := by decide
  have hoffset : extensionU32 (pairFragment 1 [65]) kExtFragmentOffset = .ok 1 := by decide
  refine (certified_receivable_iff (pairFragment 1 [65]) 0 rfl (by decide) 2 ?_).mpr ?_
  · intro total h
    rw [htotal] at h
    cases h
    decide
  · intro offset total h h'
    rw [hoffset] at h
    rw [htotal] at h'
    cases h
    cases h'
    decide

/-- The fragment starts within the message and runs past its end. -/
theorem certified_not_receivable : ¬ ∀ (frame : Frame) (index : Nat), frame.type = .data →
    Certified (inspectFrame frame index) → ∀ maxMessage : Nat,
      (∀ total, extensionU32 frame kExtMessageTotal = .ok total → total.toNat ≤ maxMessage) →
        Receivable frame maxMessage := by
  intro h
  have htotal : extensionU32 (pairFragment 1 [65, 66]) kExtMessageTotal = .ok 2 := by decide
  have hoffset : extensionU32 (pairFragment 1 [65, 66]) kExtFragmentOffset = .ok 1 := by decide
  have hreceivable := h (pairFragment 1 [65, 66]) 0 rfl (by decide) 2 fun total hsame => by
    rw [htotal] at hsame
    cases hsame
    decide
  obtain ⟨_, _, _, _, _, hoffset', htotal', _, hmessage⟩ := hreceivable
  rw [hoffset] at hoffset'
  rw [htotal] at htotal'
  cases hoffset'
  cases htotal'
  exact absurd (Reassembler.insert_fresh_iff.mp hmessage).2.2 (by decide)

end LatticeGateway
