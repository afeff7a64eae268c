import LatticeGateway.ReplayHistory
import LatticeGateway.SnapshotText

namespace LatticeGateway

/-- What a window that can be serialized and restored satisfies. -/
structure ReplayWindow.Sound (w : ReplayWindow) : Prop where
  capacity_pos : 1 ≤ w.capacity
  capacity_fits : w.capacity < 2 ^ 64
  epoch : w.epoch ≠ 0
  room : w.entries.length ≤ w.capacity
  increasing : w.entries.Pairwise fun a b => a.frameSeq < b.frameSeq
  entry : ∀ e ∈ w.entries, e.epoch = w.epoch ∧ e.encoded ≠ []

def entryLine (entry : ReplayEntry) : Bytes :=
  ascii "entry" ++ kBar :: (decimal entry.frameSeq.toNat ++ kBar :: (decimal entry.retries.toNat ++
    kBar :: hex entry.encoded))

theorem serializeEntry_eq (entry : ReplayEntry) : serializeEntry entry = entryLine entry ++ [kNewline] := by
  have htag : ascii "entry|" = ascii "entry" ++ [kBar] := by decide
  unfold serializeEntry entryLine
  rw [htag]
  simp only [List.append_assoc, List.cons_append, List.nil_append]

theorem decimal_ne_newline (n : Nat) : ∀ ch ∈ decimal n, ch ≠ kNewline := fun ch hch =>
  ((decimal_spec n).2.1 ch hch).unreserved.1

theorem decimal_ne_bar (n : Nat) : ∀ ch ∈ decimal n, ch ≠ kBar := fun ch hch =>
  ((decimal_spec n).2.1 ch hch).unreserved.2

theorem entryLine_ne_newline (entry : ReplayEntry) : ∀ ch ∈ entryLine entry, ch ≠ kNewline := by
  have htag : ∀ ch ∈ ascii "entry", ch ≠ kNewline := fun ch hch =>
    ne_of_mem_of_not_mem hch (by decide +kernel)
  have hbar : kBar ≠ kNewline := by decide
  intro ch hch
  simp only [entryLine, List.mem_append, List.mem_cons] at hch
  rcases hch with hch | rfl | hch | rfl | hch | rfl | hch
  · exact htag ch hch
  · exact hbar
  · exact decimal_ne_newline _ ch hch
  · exact hbar
  · exact decimal_ne_newline _ ch hch
  · exact hbar
  · exact (hex_unreserved _ ch hch).1

theorem lines_entries (entries : List ReplayEntry) :
    lines (entries.flatMap serializeEntry) = entries.map entryLine := by
  have hjoined : entries.flatMap serializeEntry = (entries.map entryLine).flatMap (· ++ [kNewline]) := by
    rw [List.flatMap_map]
    exact List.flatMap_congr fun entry _ => serializeEntry_eq entry
  rw [hjoined]
  refine lines_joined fun line hline => ?_
  obtain ⟨entry, _, rfl⟩ := List.mem_map.mp hline
  exact entryLine_ne_newline entry

/-- The lines of a snapshot. -/
theorem lines_serializeRetained (w : ReplayWindow) :
    lines w.serializeRetained = ascii "LTXREPLAY/1" :: (ascii "capacity|" ++ decimal w.capacity) ::
      (ascii "epoch|" ++ decimal w.epoch.toNat) :: w.entries.map entryLine := by
  have hheader : ∀ ch ∈ ascii "LTXREPLAY/1", ch ≠ kNewline := fun ch hch =>
    ne_of_mem_of_not_mem hch (by decide +kernel)
  have hcapacity : ∀ ch ∈ ascii "capacity|" ++ decimal w.capacity, ch ≠ kNewline := by
    have htag : ∀ ch ∈ ascii "capacity|", ch ≠ kNewline := fun ch hch =>
      ne_of_mem_of_not_mem hch (by decide +kernel)
    intro ch hch
    exact (List.mem_append.mp hch).elim (htag ch) (decimal_ne_newline _ ch)
  have hepoch : ∀ ch ∈ ascii "epoch|" ++ decimal w.epoch.toNat, ch ≠ kNewline := by
    have htag : ∀ ch ∈ ascii "epoch|", ch ≠ kNewline := fun ch hch =>
      ne_of_mem_of_not_mem hch (by decide +kernel)
    intro ch hch
    exact (List.mem_append.mp hch).elim (htag ch) (decimal_ne_newline _ ch)
  have hshape : w.serializeRetained = ascii "LTXREPLAY/1" ++ kNewline ::
      ((ascii "capacity|" ++ decimal w.capacity) ++ kNewline ::
        ((ascii "epoch|" ++ decimal w.epoch.toNat) ++ kNewline :: w.entries.flatMap serializeEntry)) := by
    simp only [ReplayWindow.serializeRetained, List.append_assoc, List.cons_append, List.nil_append]
  rw [hshape, lines_cons hheader, lines_cons hcapacity, lines_cons hepoch, lines_entries]

theorem parseHeader_decimal (tag : Bytes) {n : Nat} (missing invalid : String) {limit : UInt64}
    (hpos : n ≠ 0) (hle : n ≤ limit.toNat) :
    parseHeader tag (some (tag ++ decimal n)) missing invalid limit = .ok (UInt64.ofNat n) := by
  have hlimit := limit.toNat_lt
  have hvalue : (UInt64.ofNat n).toNat = n := by
    rw [UInt64.toNat_ofNat']
    exact Nat.mod_eq_of_lt (by omega)
  have hrange : ¬ (UInt64.ofNat n = 0 ∨ UInt64.ofNat n > limit) := by
    rw [← UInt64.toNat_inj, gt_iff_lt, UInt64.lt_iff_toNat_lt, hvalue, UInt64.toNat_zero]
    omega
  unfold parseHeader
  dsimp only
  rw [List.take_left, if_neg (by simp), List.drop_left, parseU64_decimal (by omega)]
  dsimp only
  rw [if_neg hrange]

theorem parseEntry_entryLine {entry : ReplayEntry} (hencoded : entry.encoded ≠ []) :
    parseEntry entry.epoch (entryLine entry) = .ok entry := by
  have hseq := entry.frameSeq.toNat_lt
  have hretries := entry.retries.toNat_lt
  have htag : ∀ ch ∈ ascii "entry", ch ≠ kBar := fun ch hch =>
    ne_of_mem_of_not_mem hch (by decide +kernel)
  have hseqValue : (UInt64.ofNat entry.frameSeq.toNat).toNat = entry.frameSeq.toNat := by
    rw [UInt64.toNat_ofNat']
    omega
  have hretriesValue : (UInt64.ofNat entry.retries.toNat).toNat = entry.retries.toNat := by
    rw [UInt64.toNat_ofNat']
    omega
  have hrange : ¬ (UInt64.ofNat entry.frameSeq.toNat > 0xFFFFFFFF ∨
      UInt64.ofNat entry.retries.toNat > 0xFF ∨ entry.encoded = []) := by
    rw [gt_iff_lt, gt_iff_lt, UInt64.lt_iff_toNat_lt, UInt64.lt_iff_toNat_lt, hseqValue, hretriesValue]
    simp only [UInt64.reduceToNat, hencoded, or_false]
    omega
  have hframeSeq : (UInt64.ofNat entry.frameSeq.toNat).toUInt32 = entry.frameSeq := by
    apply UInt32.toNat_inj.mp
    rw [UInt64.toNat_toUInt32, hseqValue]
    omega
  have hretriesEq : (UInt64.ofNat entry.retries.toNat).toUInt8 = entry.retries := by
    apply UInt8.toNat_inj.mp
    rw [UInt64.toNat_toUInt8, hretriesValue]
    omega
  unfold parseEntry entryLine
  dsimp only
  rw [splitBar_append htag]
  dsimp only
  rw [splitBar_append (decimal_ne_bar _)]
  dsimp only
  rw [splitBar_append (decimal_ne_bar _)]
  dsimp only
  rw [if_neg (by simp), parseU64_decimal (by omega), parseU64_decimal (by omega), parseHex_hex]
  dsimp only
  rw [if_neg hrange, hframeSeq, hretriesEq]

/-- Entries still to come are appended to those restored before. -/
theorem restoreEntries_entryLines {entries : List ReplayEntry} {previous : Option UInt32}
    {restored : ReplayWindow} (hroom : restored.entries.length + entries.length ≤ restored.capacity)
    (hincreasing : entries.Pairwise fun a b => a.frameSeq < b.frameSeq)
    (hprevious : ∀ seq ∈ previous, ∀ e ∈ entries, seq < e.frameSeq)
    (hentry : ∀ e ∈ entries, e.epoch = restored.epoch ∧ e.encoded ≠ []) :
    restoreEntries (entries.map entryLine) previous restored =
      .ok { restored with entries := restored.entries ++ entries } := by
  induction entries generalizing previous restored with
  | nil => simp [restoreEntries]
  | cons entry entries ih =>
    obtain ⟨hepoch, hencoded⟩ := hentry entry (by simp)
    obtain ⟨hfirst, hrest⟩ := List.pairwise_cons.mp hincreasing
    have hline : entryLine entry ≠ [] := by simp [entryLine]
    have hparse := parseEntry_entryLine hencoded
    have hordered : ¬ previous.any (· ≥ entry.frameSeq) = true := by
      rintro hany
      obtain ⟨seq, hseq, hge⟩ := (Option.any_eq_true _ _).mp hany
      have hlt := hprevious seq hseq entry (by simp)
      exact absurd (by simpa using hge) (UInt32.not_le.mpr hlt)
    rw [List.length_cons] at hroom
    rw [hepoch] at hparse
    rw [List.map_cons, restoreEntries, if_neg hline, hparse]
    dsimp only
    have hroom' : (restored.entries ++ [entry]).length + entries.length ≤ restored.capacity := by
      rw [List.length_append, List.length_singleton]
      omega
    have hlater := @ih (some entry.frameSeq) { restored with entries := restored.entries ++ [entry] }
      hroom' hrest (by simpa using hfirst) (fun e he => hentry e (List.mem_cons_of_mem _ he))
    rw [if_neg hordered, if_neg (by omega), hlater, List.append_assoc, List.singleton_append]

/-- A window that satisfies what restoring checks is restored as it was. -/
theorem ReplayWindow.Sound.restore {w : ReplayWindow} (h : w.Sound) :
    restoreRetained w.serializeRetained = .ok w := by
  have hpos := h.capacity_pos
  have hfits := h.capacity_fits
  have hepochLt := w.epoch.toNat_lt
  have hepochNe : w.epoch.toNat ≠ 0 := fun hzero => h.epoch (UInt16.toNat_inj.mp hzero)
  have hcapacity : (UInt64.ofNat w.capacity).toNat = w.capacity := by
    rw [UInt64.toNat_ofNat']
    exact Nat.mod_eq_of_lt hfits
  have hepoch : (UInt64.ofNat w.epoch.toNat).toUInt16 = w.epoch := by
    apply UInt16.toNat_inj.mp
    rw [UInt64.toNat_toUInt16, UInt64.toNat_ofNat']
    omega
  have hcapacityHeader := parseHeader_decimal (ascii "capacity|") "replay snapshot missing capacity"
    "replay snapshot capacity is invalid" (by omega : w.capacity ≠ 0)
    (show w.capacity ≤ (0xFFFFFFFFFFFFFFFF : UInt64).toNat by
      simp only [UInt64.reduceToNat]
      omega)
  have hepochHeader := parseHeader_decimal (ascii "epoch|") "replay snapshot missing epoch"
    "replay snapshot epoch is invalid" hepochNe
    (show w.epoch.toNat ≤ (0xFFFF : UInt64).toNat by
      simp only [UInt64.reduceToNat]
      omega)
  have hentries := @restoreEntries_entryLines w.entries none { capacity := w.capacity, epoch := w.epoch }
    (by simpa using h.room) h.increasing (by simp) h.entry
  unfold restoreRetained
  rw [lines_serializeRetained]
  simp only [List.head?_cons, ne_eq, not_true, if_false, List.getElem?_cons_succ,
    List.getElem?_cons_zero, hcapacityHeader, hepochHeader, List.drop_succ_cons, List.drop_zero,
    hcapacity, hepoch]
  rw [hentries, List.nil_append]

theorem parseHeader_ok {tag : Bytes} {line : Option Bytes} {missing invalid : String}
    {limit value : UInt64} (h : parseHeader tag line missing invalid limit = .ok value) :
    value ≠ 0 ∧ value ≤ limit := by
  unfold parseHeader at h
  split at h
  next => cases h
  next =>
    split at h
    next => cases h
    next =>
      split at h
      next => cases h
      next =>
        split at h
        next => cases h
        next hrange =>
          cases h
          rw [not_or, gt_iff_lt, UInt64.not_lt] at hrange
          exact hrange

theorem parseEntry_ok {epoch : UInt16} {line : Bytes} {entry : ReplayEntry}
    (h : parseEntry epoch line = .ok entry) : entry.epoch = epoch ∧ entry.encoded ≠ [] := by
  unfold parseEntry at h
  dsimp only at h
  repeat' split at h
  all_goals cases h
  next hrange => exact ⟨rfl, fun hempty => hrange (.inr (.inr hempty))⟩

/-- Restoring keeps to the order and the capacity that it has read so far. -/
theorem restoreEntries_sound {text : List Bytes} {previous : Option UInt32} {restored w : ReplayWindow}
    (h : restoreEntries text previous restored = .ok w) (hsound : restored.Sound)
    (hprevious : previous = restored.entries.getLast?.map (·.frameSeq)) : w.Sound := by
  induction text generalizing previous restored with
  | nil =>
    cases h
    exact hsound
  | cons line text ih =>
    unfold restoreEntries at h
    split at h
    next => exact ih h hsound hprevious
    next =>
      split at h
      next => cases h
      next entry hparse =>
        split at h
        next => cases h
        next hordered =>
          split at h
          next => cases h
          next hroom =>
            have hlast : restored.entries.getLast?.any (entry.frameSeq ≤ ·.frameSeq) = false := by
              rw [Bool.not_eq_true, hprevious, Option.any_map] at hordered
              exact hordered
            refine ih h { hsound with
              room := ?_, increasing := pairwise_concat_last hsound.increasing hlast, entry := ?_ } ?_
            · rw [List.length_append, List.length_singleton]
              dsimp only
              omega
            · intro e he
              rcases List.mem_append.mp he with he | he
              · exact hsound.entry e he
              · rw [List.mem_singleton.mp he]
                exact parseEntry_ok hparse
            · simp

/-- Whatever text is accepted, the window it stands for is sound. -/
theorem restoreRetained_sound {text : Bytes} {w : ReplayWindow}
    (h : ReplayWindow.restoreRetained text = .ok w) : w.Sound := by
  unfold ReplayWindow.restoreRetained at h
  dsimp only at h
  split at h
  next => cases h
  next =>
    split at h
    next => cases h
    next capacity hcapacity =>
      split at h
      next => cases h
      next epoch hepoch =>
        obtain ⟨hpos, -⟩ := parseHeader_ok hcapacity
        obtain ⟨hne, hle⟩ := parseHeader_ok hepoch
        rw [ne_eq, ← UInt64.toNat_inj, UInt64.toNat_zero] at hpos hne
        rw [UInt64.le_iff_toNat_le] at hle
        simp only [UInt64.reduceToNat] at hle
        refine restoreEntries_sound h ⟨by dsimp only; omega, capacity.toNat_lt, ?_, by simp, .nil,
          by simp⟩ rfl
        dsimp only
        rw [ne_eq, ← UInt16.toNat_inj, UInt64.toNat_toUInt16, UInt16.toNat_zero]
        omega

namespace ReplayWindow

/-- The windows that recording, acknowledging and retrying lead to, from a new window or a restored
one. A recorded frame is not empty and is numbered above every frame still retained. -/
inductive Reached : ReplayWindow → Prop
  | fresh {capacity : Nat} : 1 ≤ capacity → capacity < 2 ^ 64 → Reached { capacity }
  | restored {text : Bytes} {w : ReplayWindow} : restoreRetained text = .ok w → Reached w
  | record {w : ReplayWindow} (epoch : UInt16) {frameSeq : UInt32} {encoded : Bytes} : Reached w →
      encoded ≠ [] → (∀ e ∈ w.entries, e.frameSeq < frameSeq) →
      Reached (w.record epoch frameSeq encoded).2
  | acknowledge {w : ReplayWindow} (epoch : UInt16) (ranges : List AckRange) : Reached w →
      Reached (w.acknowledge epoch ranges).2
  | dueForRetry {w : ReplayWindow} (retryLimit : UInt8) : Reached w → Reached (w.dueForRetry retryLimit).2

theorem Sound.record {w : ReplayWindow} (h : w.Sound) (epoch : UInt16) {frameSeq : UInt32}
    {encoded : Bytes} (hencoded : encoded ≠ []) (hnew : ∀ e ∈ w.entries, e.frameSeq < frameSeq) :
    (w.record epoch frameSeq encoded).2.Sound := by
  have hpos := h.capacity_pos
  have hroom := h.room
  unfold ReplayWindow.record
  split
  next => exact h
  next hepoch =>
    split
    next => exact h
    next =>
      have hkept : ∀ kept : List ReplayEntry, kept.Sublist w.entries → kept.length + 1 ≤ w.capacity →
          Sound { w with entries := kept ++ [{ epoch, frameSeq, encoded, retries := 0 }] } := by
        intro kept hsub hlen
        refine { h with room := ?_, increasing := ?_, entry := ?_ }
        · rw [List.length_append, List.length_singleton]
          exact hlen
        · refine List.pairwise_append.mpr ⟨h.increasing.sublist hsub, List.pairwise_singleton _ _, ?_⟩
          intro a ha b hb
          rw [List.mem_singleton.mp hb]
          exact hnew a (hsub.subset ha)
        · intro e he
          rcases List.mem_append.mp he with he | he
          · exact h.entry e (hsub.subset he)
          · rw [List.mem_singleton.mp he]
            exact ⟨not_not.mp hepoch, hencoded⟩
      dsimp only
      split
      next hfull =>
        -- the oldest entry goes out before the new one comes in
        refine hkept _ (List.tail_sublist _) ?_
        rw [List.length_tail]
        omega
      next => exact hkept _ (.refl _) (by omega)

theorem Sound.acknowledge {w : ReplayWindow} (h : w.Sound) (epoch : UInt16) (ranges : List AckRange) :
    (w.acknowledge epoch ranges).2.Sound := by
  unfold ReplayWindow.acknowledge
  split
  next => exact h
  next =>
    split
    next => exact h
    next =>
      have hsub := @List.filter_sublist _
        (fun e => ! (sortRanges ranges).any (·.covers e.frameSeq)) w.entries
      exact { h with
        room := hsub.length_le.trans h.room
        increasing := h.increasing.sublist hsub
        entry := fun e he => h.entry e (hsub.subset he) }

theorem Sound.dueForRetry {w : ReplayWindow} (h : w.Sound) (retryLimit : UInt8) :
    (w.dueForRetry retryLimit).2.Sound := by
  have hkeeps := retryLoop_keeps retryLimit w.entries
  have hlen := congrArg List.length hkeeps
  rw [List.length_map, List.length_map] at hlen
  refine { h with room := ?_, increasing := ?_, entry := ?_ }
  · exact hlen.le.trans h.room
  · have hpairwise := List.pairwise_map.mp (hkeeps.symm ▸ List.pairwise_map.mpr h.increasing :
      (((retryLoop retryLimit w.entries).2.map
        (fun e => (e.epoch, e.frameSeq, e.encoded))).Pairwise (fun a b => a.2.1 < b.2.1)))
    exact hpairwise
  · intro e he
    have hmem : (e.epoch, e.frameSeq, e.encoded) ∈
        w.entries.map (fun e => (e.epoch, e.frameSeq, e.encoded)) := by
      rw [← hkeeps]
      exact List.mem_map_of_mem he
    obtain ⟨e', he', heq⟩ := List.mem_map.mp hmem
    simp only [Prod.mk.injEq] at heq
    rw [← heq.1, ← heq.2.2]
    exact h.entry e' he'

theorem Reached.sound {w : ReplayWindow} (h : Reached w) : w.Sound := by
  induction h with
  | fresh hpos hfits => exact ⟨hpos, hfits, by simp, Nat.zero_le _, .nil, by simp⟩
  | restored h => exact restoreRetained_sound h
  | record epoch _ hencoded hnew ih => exact ih.record epoch hencoded hnew
  | acknowledge epoch ranges _ ih => exact ih.acknowledge epoch ranges
  | dueForRetry retryLimit _ ih => exact ih.dueForRetry retryLimit

/-- Restoring undoes serializing. -/
theorem restore_undoes_serialize (w : ReplayWindow) (h : Reached w) :
    restoreRetained w.serializeRetained = .ok w :=
  h.sound.restore

/-- A window of two that has recorded three frames, had the second acknowledged and retried. -/
theorem restore_undoes_serialize_two :
    restoreRetained (serializeRetained
        { capacity := 2, epoch := 1, entries := [⟨1, 12, [0x0A, 0x7C, 0xFF], 1⟩] }) =
      .ok { capacity := 2, epoch := 1, entries := [⟨1, 12, [0x0A, 0x7C, 0xFF], 1⟩] } :=
  restore_undoes_serialize _ (.dueForRetry 3 (.acknowledge 1 [⟨11, 11⟩]
    (@Reached.record _ 1 12 [0x0A, 0x7C, 0xFF] (@Reached.record _ 1 11 [2] (@Reached.record _ 1 10 [1]
      (@Reached.fresh 2 (by decide) (by decide)) (by decide) (by decide)) (by decide) (by decide))
      (by decide) (by decide))))

end ReplayWindow

end LatticeGateway
