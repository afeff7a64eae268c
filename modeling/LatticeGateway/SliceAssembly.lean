import LatticeGateway.ReassemblerRefinement

namespace LatticeGateway

open Patchwork Runs

/-- The range is cut out of the payload. -/
structure SliceOf (payload : Bytes) (slice : Range) : Prop where
  inside : slice.offset.toNat + slice.bytes.length ≤ payload.length
  bytes : slice.bytes = (payload.drop slice.offset.toNat).take slice.bytes.length

instance (payload : Bytes) (slice : Range) : Decidable (SliceOf payload slice) :=
  decidable_of_iff (slice.offset.toNat + slice.bytes.length ≤ payload.length ∧
      slice.bytes = (payload.drop slice.offset.toNat).take slice.bytes.length)
    ⟨fun h => ⟨h.1, h.2⟩, fun h => ⟨h.inside, h.bytes⟩⟩

/-- Some slice has the byte at `i`. -/
def Reaches (slices : List Range) (i : Nat) : Prop :=
  ∃ slice ∈ slices, slice.offset.toNat ≤ i ∧ i < slice.offset.toNat + slice.bytes.length

instance (slices : List Range) (i : Nat) : Decidable (Reaches slices i) :=
  inferInstanceAs (Decidable (∃ slice ∈ slices, _ ∧ _))

def Fills (payload : Bytes) (slices : List Range) : Prop := ∀ i < payload.length, Reaches slices i

instance (payload : Bytes) (slices : List Range) : Decidable (Fills payload slices) :=
  inferInstanceAs (Decidable (∀ i < payload.length, Reaches slices i))

def sliceCall (channel : ChannelId) (sequence total : UInt32) (slice : Range) : ReassemblerCall :=
  .insert channel sequence slice.offset total slice.bytes

/-- One stored range holds the slice already, or the budget has room for all of it. -/
def Reassembler.Takes (r : Reassembler) (sequence : UInt32) (slice : Range) : Prop :=
  (∃ range ∈ r.ranges sequence, range.Holds slice.offset slice.end) ∨
    r.retained + slice.bytes.length ≤ r.maxMessage

theorem SliceOf.at {payload : Bytes} {slice : Range} (h : SliceOf payload slice) {i : Nat} {b : UInt8}
    (hb : slice.patch.at i = some b) : payload[i]? = some b := by
  obtain ⟨hle, hitem⟩ := Patch.at_eq_some_iff.mp hb
  change slice.offset.toNat ≤ i at hle
  change slice.bytes[i - slice.offset.toNat]? = some b at hitem
  have hlt := (List.getElem?_eq_some_iff.mp hitem).1
  rw [h.bytes, List.getElem?_take, if_pos hlt, List.getElem?_drop, Nat.add_sub_cancel' hle] at hitem
  exact hitem

theorem SliceOf.end_toNat {payload : Bytes} {slice : Range} (h : SliceOf payload slice)
    (hsmall : payload.length < 2 ^ 32) : slice.end.toNat = slice.offset.toNat + slice.bytes.length := by
  have hinside := h.inside
  exact Range.end_toNat (show slice.offset.toNat + slice.bytes.length < 2 ^ 32 by omega)

theorem slices_agree {payload : Bytes} {slice slice' : Range} (h : SliceOf payload slice)
    (h' : SliceOf payload slice') : Agree slice.patch.at slice'.patch.at := by
  intro i a b ha hb
  exact Option.some.inj ((h.at ha).symm.trans (h'.at hb))

theorem covers_slices_iff (slices : List Range) (payload : Bytes) :
    Covers (known (patches slices)) payload.length ↔ Fills payload slices := by
  rw [covers_known_iff]
  refine forall_congr' fun i => imp_congr_right fun _ => ?_
  constructor
  · rintro ⟨p, hp, hbounds⟩
    obtain ⟨range, hrange, rfl⟩ := mem_patches.mp hp
    exact ⟨range, hrange, hbounds⟩
  · rintro ⟨slice, hslice, hbounds⟩
    exact ⟨slice.patch, mem_patches.mpr ⟨slice, hslice, rfl⟩, hbounds⟩

/-- Slices that fill the payload spell it. -/
theorem assembled_slices {payload : Bytes} {f : Nat → Option UInt8}
    (hknown : ∀ i b, f i = some b → payload[i]? = some b) (hcovers : Covers f payload.length) :
    assembled payload.length f 0 = payload := by
  unfold assembled
  refine List.ext_getElem? fun i => ?_
  rw [List.getElem?_map]
  by_cases hlt : i < payload.length
  · obtain ⟨b, hb⟩ := hcovers i hlt
    rw [List.getElem?_range hlt, Option.map_some, hb, hknown i b hb]
    rfl
  · rw [List.getElem?_eq_none (by rw [List.length_range]; omega), List.getElem?_eq_none (by omega)]
    rfl

/-- What the reassembler holds of one message after these slices, and it holds no other. -/
structure Reassembler.Gathers (r : Reassembler) (sequence total : UInt32) (payload : Bytes)
    (slices : List Range) : Prop where
  sound : r.Sound
  same : ∀ pending ∈ r.pending.lookup sequence, pending.total = total
  stored : ∀ range ∈ r.ranges sequence, range ∈ slices
  reached : ∀ i, Reaches slices i → Reaches (r.ranges sequence) i
  retained : r.retained = rangeBytes (r.ranges sequence)
  small : payload.length = total.toNat
  nonempty : 0 < payload.length
  fits : payload.length ≤ r.maxMessage
  slices : ∀ slice ∈ slices, SliceOf payload slice

section

variable {r : Reassembler} {sequence total : UInt32} {payload : Bytes} {slices : List Range} {slice : Range}

theorem Reassembler.Gathers.fitting (h : r.Gathers sequence total payload slices)
    (hslice : SliceOf payload slice) : r.Fits sequence slice.offset total slice.bytes := by
  have hsmall := h.small
  have hinside := hslice.inside
  have hnonempty := h.nonempty
  have hfits := h.fits
  refine ⟨?_, ?_, h.same⟩
  · rintro (rfl | hover)
    · rw [UInt32.toNat_zero] at hsmall
      omega
    · omega
  · change slice.offset.toNat + slice.bytes.length ≤ total.toNat
    omega

theorem Reassembler.Gathers.slices_concat (h : r.Gathers sequence total payload slices)
    (hslice : SliceOf payload slice) : ∀ other ∈ slices ++ [slice], SliceOf payload other :=
  List.forall_mem_append.mpr ⟨h.slices, List.forall_mem_singleton.mpr hslice⟩

theorem Reassembler.Gathers.agrees (h : r.Gathers sequence total payload slices)
    (hslice : SliceOf payload slice) :
    ∀ range ∈ r.ranges sequence, Agree range.patch.at (fragmentPatch slice.offset slice.bytes).at :=
  fun range hrange => slices_agree (h.slices range (h.stored range hrange)) hslice

/-- The scan finds the range that holds the slice, and nothing when there is none. -/
theorem Reassembler.Gathers.scan (h : r.Gathers sequence total payload slices)
    (hslice : SliceOf payload slice) :
    scanRanges slice.offset slice.end slice.bytes (r.ranges sequence) = .contained ∧
        (∃ range ∈ r.ranges sequence, range.Holds slice.offset slice.end) ∨
      scanRanges slice.offset slice.end slice.bytes (r.ranges sequence) = .fresh ∧
        ¬ ∃ range ∈ r.ranges sequence, range.Holds slice.offset slice.end := by
  have hfound := (h.fitting hslice).scanned h.sound
  change Found slice.offset slice.end slice.bytes (r.ranges sequence)
    (scanRanges slice.offset slice.end slice.bytes (r.ranges sequence)) at hfound
  cases hscan : scanRanges slice.offset slice.end slice.bytes (r.ranges sequence) with
  | conflict =>
    rw [hscan] at hfound
    obtain ⟨range, hrange, hdiffers⟩ := hfound
    exact absurd (h.agrees hslice range hrange) hdiffers
  | contained =>
    rw [hscan] at hfound
    obtain ⟨range, hrange, hholds, _⟩ := hfound
    exact .inl ⟨rfl, range, hrange, hholds⟩
  | fresh =>
    rw [hscan] at hfound
    refine .inr ⟨rfl, ?_⟩
    rintro ⟨range, hrange, hholds⟩
    exact (hfound range hrange).2 hholds

/-- A slice that one range holds changes nothing. -/
theorem Reassembler.Gathers.held (h : r.Gathers sequence total payload slices)
    (hslice : SliceOf payload slice) (channel : ChannelId)
    (hheld : ∃ range ∈ r.ranges sequence, range.Holds slice.offset slice.end) :
    r.insert channel sequence slice.offset total slice.bytes = (.ok none, r) ∧
      r.Gathers sequence total payload (slices ++ [slice]) := by
  have hscanned := (h.fitting hslice).insert_scanned channel
  rcases h.scan hslice with ⟨hcontained, range, hrange, _, hge, hle⟩ | ⟨_, hnone⟩
  · unfold Range.end at hcontained
    rw [hcontained] at hscanned
    refine ⟨hscanned, { h with stored := ?_, reached := ?_, slices := h.slices_concat hslice }⟩
    · exact fun other hother => List.mem_append_left _ (h.stored other hother)
    · rintro i ⟨other, hother, hfirst, hlast⟩
      rcases List.mem_append.mp hother with hold | hnew
      · exact h.reached i ⟨other, hold, hfirst, hlast⟩
      · rw [List.mem_singleton.mp hnew] at hfirst hlast
        have hsmall : payload.length < 2 ^ 32 := h.small ▸ total.toNat_lt
        have hend := hslice.end_toNat hsmall
        have hrangeEnd := (h.slices range (h.stored range hrange)).end_toNat hsmall
        have hge := UInt32.le_iff_toNat_le.mp hge
        have hle := UInt32.le_iff_toNat_le.mp hle
        exact ⟨range, hrange, by omega, by omega⟩
  · exact absurd hheld hnone

/-- A slice that no range holds is offered to the budget. -/
theorem Reassembler.Gathers.unheld (h : r.Gathers sequence total payload slices)
    (hslice : SliceOf payload slice) (channel : ChannelId)
    (hnone : ¬ ∃ range ∈ r.ranges sequence, range.Holds slice.offset slice.end) :
    r.insert channel sequence slice.offset total slice.bytes =
      r.store channel sequence slice.offset total slice.bytes := by
  have hscanned := (h.fitting hslice).insert_scanned channel
  rcases h.scan hslice with ⟨_, hheld⟩ | ⟨hfresh, _⟩
  · exact absurd hheld hnone
  · unfold Range.end at hfresh
    rwa [hfresh] at hscanned

theorem Reassembler.Gathers.agree (h : r.Gathers sequence total payload slices)
    (hslice : SliceOf payload slice) :
    Agree (known (patches (r.ranges sequence))) (fragmentPatch slice.offset slice.bytes).at := by
  refine (agree_known_iff (h.sound.consistent sequence) _).mpr fun p hp => ?_
  obtain ⟨range, hrange, rfl⟩ := mem_patches.mp hp
  exact h.agrees hslice range hrange

/-- With the slice the ranges reach what the slices reach. -/
theorem Reassembler.Gathers.added_reaches (h : r.Gathers sequence total payload slices) (i : Nat) :
    Reaches (r.added sequence slice.offset slice.bytes) i ↔ Reaches (slices ++ [slice]) i := by
  constructor
  · rintro ⟨range, hrange, hbounds⟩
    refine ⟨range, ?_, hbounds⟩
    rcases List.mem_append.mp (perm_added.mem_iff.mp hrange) with hold | hnew
    · exact List.mem_append_left _ (h.stored range hold)
    · exact List.mem_append_right _ hnew
  · rintro ⟨other, hother, hbounds⟩
    rcases List.mem_append.mp hother with hold | hnew
    · obtain ⟨range, hrange, hreached⟩ := h.reached i ⟨other, hold, hbounds⟩
      exact ⟨range, perm_added.mem_iff.mpr (List.mem_append_left _ hrange), hreached⟩
    · exact ⟨other, perm_added.mem_iff.mpr (List.mem_append_right _ hnew), hbounds⟩

theorem Reassembler.Gathers.added_fills (h : r.Gathers sequence total payload slices) :
    Covers (known (patches (r.added sequence slice.offset slice.bytes))) total.toNat ↔
      Fills payload (slices ++ [slice]) := by
  rw [← h.small, covers_slices_iff]
  exact forall_congr' fun i => imp_congr_right fun _ => h.added_reaches i

/-- The budget has no room for the slice. -/
theorem Reassembler.Gathers.refused (h : r.Gathers sequence total payload slices)
    (hslice : SliceOf payload slice) (channel : ChannelId) (hfull : ¬ r.Takes sequence slice) :
    r.insert channel sequence slice.offset total slice.bytes =
      (.error (channelError .resourceLimit channel
        "retained incomplete fragments exceed receive budget"), r) := by
  obtain ⟨hnone, hover⟩ := not_or.mp hfull
  rw [h.unheld hslice channel hnone]
  apply store_refused
  cases hadd : checkedAdd r.retained slice.bytes.length with
  | none => rfl
  | some next =>
    obtain rfl := checkedAdd_eq_some hadd
    simpa using hover

theorem room_of_le {retained size limit : Nat} (hlimit : limit < 2 ^ 64) (hle : retained + size ≤ limit) :
    ¬ (checkedAdd retained size).all (· > limit) = true := by
  rw [checkedAdd_of_lt (by omega)]
  simpa using hle

/-- A slice is stored, as long as something is missing. -/
theorem Reassembler.Gathers.kept (h : r.Gathers sequence total payload slices)
    (hslice : SliceOf payload slice) (channel : ChannelId) (hlimit : r.maxMessage < 2 ^ 64)
    (hnone : ¬ ∃ range ∈ r.ranges sequence, range.Holds slice.offset slice.end)
    (hroom : r.retained + slice.bytes.length ≤ r.maxMessage) (hopen : ¬ Fills payload (slices ++ [slice])) :
    ∃ r', r.insert channel sequence slice.offset total slice.bytes = (.ok none, r') ∧
      r'.maxMessage = r.maxMessage ∧ r'.ranges sequence = r.added sequence slice.offset slice.bytes ∧
      r'.Gathers sequence total payload (slices ++ [slice]) := by
  have hfits := h.fitting hslice
  have hgap : ¬ Covers (known (patches (r.added sequence slice.offset slice.bytes))) total.toNat :=
    fun hcovers => hopen (h.added_fills.mp hcovers)
  have hcovered := coveredBy_added h.sound h.same hfits.inside
  have hstore := store_kept (room_of_le hlimit hroom) channel
    (fun hwhole => hgap (hcovered.mp hwhole))
  have htotal : total ≠ 0 := fun hzero => hfits.good (.inl hzero)
  have hsound := h.sound.stored htotal h.same hfits.inside (h.agree hslice) hroom hgap
  let r' : Reassembler := { r with
    retained := r.retained + slice.bytes.length
    pending := r.pending.insert sequence { total, ranges := r.added sequence slice.offset slice.bytes } }
  have hranges : r'.ranges sequence = r.added sequence slice.offset slice.bytes := by
    unfold Reassembler.ranges
    rw [AList.lookup_insert]
    rfl
  refine ⟨r', (h.unheld hslice channel hnone).trans hstore, rfl, hranges,
    ⟨hsound, ?_, ?_, ?_, ?_, h.small, h.nonempty, h.fits, h.slices_concat hslice⟩⟩
  · intro pending hpending
    rw [AList.lookup_insert] at hpending
    cases hpending
    rfl
  · intro range hrange
    rw [hranges] at hrange
    rcases List.mem_append.mp (perm_added.mem_iff.mp hrange) with hold | hnew
    · exact List.mem_append_left _ (h.stored range hold)
    · exact List.mem_append_right _ hnew
  · intro i hi
    rw [hranges]
    exact (h.added_reaches i).mpr hi
  · rw [hranges, rangeBytes_added, ← h.retained]

/-- The slice that fills the last gap hands out the payload and leaves nothing behind. -/
theorem Reassembler.Gathers.completes (h : r.Gathers sequence total payload slices)
    (hslice : SliceOf payload slice) (channel : ChannelId) (hlimit : r.maxMessage < 2 ^ 64)
    (hnone : ¬ ∃ range ∈ r.ranges sequence, range.Holds slice.offset slice.end)
    (hroom : r.retained + slice.bytes.length ≤ r.maxMessage) (hfills : Fills payload (slices ++ [slice])) :
    ∃ r', r.insert channel sequence slice.offset total slice.bytes =
      (.ok (some { channel, sequence, payload }), r') ∧ r'.retained = 0 := by
  have hfits := h.fitting hslice
  have hwhole := h.added_fills.mpr hfills
  obtain ⟨covered, hcovered, hge⟩ := (coveredBy_added h.sound h.same hfits.inside).mpr hwhole
  have hstore := store_completes (room_of_le hlimit hroom) channel hcovered hge
  have hassembled := payload_added h.sound h.same hfits.inside (h.agree hslice)
  have hknown := (known_added h.sound (h.agree hslice)).2
  rw [hknown, ← h.small] at hwhole
  have hspells : ∀ i b, overlay (known (patches (r.ranges sequence)))
      (fragmentPatch slice.offset slice.bytes).at i = some b → payload[i]? = some b := by
    intro i b hb
    unfold overlay at hb
    rcases Option.or_eq_some_iff.mp hb with hold | ⟨_, hnew⟩
    · obtain ⟨p, hp, hat⟩ := known_mem hold
      obtain ⟨range, hrange, rfl⟩ := mem_patches.mp hp
      exact (h.slices range (h.stored range hrange)).at hat
    · exact hslice.at hnew
  rw [hassembled, ← h.small, assembled_slices hspells hwhole] at hstore
  refine ⟨_, (h.unheld hslice channel hnone).trans hstore, ?_⟩
  dsimp only
  rw [rangeBytes_added, h.retained]
  exact Nat.sub_self _

/-- A call is its insertion. -/
theorem Reassembler.slice_inserted {r r' : Reassembler} {channel : ChannelId}
    {result : Except Error (Option LogicalMessage)}
    (h : r.insert channel sequence slice.offset total slice.bytes = (result, r')) :
    r.reply (sliceCall channel sequence total slice) = result.mapError (·.code) ∧
      r.step (sliceCall channel sequence total slice) = r' :=
  ⟨congrArg (fun pair => pair.1.mapError (·.code)) h, congrArg Prod.snd h⟩

theorem Reassembler.Gathers.step_refused (h : r.Gathers sequence total payload slices)
    (hslice : SliceOf payload slice) (channel : ChannelId) (hfull : ¬ r.Takes sequence slice) :
    r.reply (sliceCall channel sequence total slice) = .error .resourceLimit ∧
      r.step (sliceCall channel sequence total slice) = r :=
  slice_inserted (h.refused hslice channel hfull)

theorem Reassembler.Gathers.step_taken (h : r.Gathers sequence total payload slices)
    (hslice : SliceOf payload slice) (channel : ChannelId) (hlimit : r.maxMessage < 2 ^ 64)
    (htakes : r.Takes sequence slice) (hopen : ¬ Fills payload (slices ++ [slice])) :
    r.reply (sliceCall channel sequence total slice) = .ok none ∧
      (r.step (sliceCall channel sequence total slice)).maxMessage = r.maxMessage ∧
      (r.step (sliceCall channel sequence total slice)).Gathers sequence total payload (slices ++ [slice]) := by
  by_cases hheld : ∃ range ∈ r.ranges sequence, range.Holds slice.offset slice.end
  · obtain ⟨hinsert, hgathers⟩ := h.held hslice channel hheld
    obtain ⟨hreply, hstep⟩ := slice_inserted hinsert
    rw [hstep]
    exact ⟨hreply, rfl, hgathers⟩
  · obtain ⟨r', hinsert, hsame, _, hgathers⟩ := h.kept hslice channel hlimit hheld
      (htakes.resolve_left hheld) hopen
    obtain ⟨hreply, hstep⟩ := slice_inserted hinsert
    rw [hstep]
    exact ⟨hreply, hsame, hgathers⟩

/-- A slice that fills the payload is held by no range before it is there. -/
theorem Reassembler.Gathers.unheld_of_fills (h : r.Gathers sequence total payload slices)
    (hopen : ¬ Fills payload slices) (hfills : Fills payload (slices ++ [slice]))
    (hslice : SliceOf payload slice) (channel : ChannelId) :
    ¬ ∃ range ∈ r.ranges sequence, range.Holds slice.offset slice.end := by
  intro hheld
  obtain ⟨_, hgathers⟩ := h.held hslice channel hheld
  apply hopen
  intro i hi
  obtain ⟨range, hrange, hbounds⟩ := hgathers.reached i (hfills i hi)
  exact ⟨range, h.stored range hrange, hbounds⟩

theorem Reassembler.Gathers.step_last (h : r.Gathers sequence total payload slices)
    (hslice : SliceOf payload slice) (channel : ChannelId) (hlimit : r.maxMessage < 2 ^ 64)
    (htakes : r.Takes sequence slice) (hopen : ¬ Fills payload slices)
    (hfills : Fills payload (slices ++ [slice])) :
    r.reply (sliceCall channel sequence total slice) = .ok (some { channel, sequence, payload }) ∧
      (r.step (sliceCall channel sequence total slice)).retained = 0 := by
  have hnone := h.unheld_of_fills hopen hfills hslice channel
  obtain ⟨r', hinsert, hretained⟩ := h.completes hslice channel hlimit hnone
    (htakes.resolve_left hnone) hfills
  obtain ⟨hreply, hstep⟩ := slice_inserted hinsert
  rw [hstep]
  exact ⟨hreply, hretained⟩

end

theorem Fills.mono {payload : Bytes} {slices more : List Range} (h : Fills payload slices)
    (hsub : ∀ slice ∈ slices, slice ∈ more) : Fills payload more := by
  intro i hi
  obtain ⟨slice, hslice, hbounds⟩ := h i hi
  exact ⟨slice, hsub slice hslice, hbounds⟩

theorem open_front {payload : Bytes} {slices more : List Range} (h : ¬ Fills payload (slices ++ more)) :
    ¬ Fills payload slices :=
  fun hfills => h (hfills.mono fun _ hslice => List.mem_append_left _ hslice)

theorem gathers_empty {maxMessage : Nat} {payload : Bytes} {total : UInt32} (sequence : UInt32)
    (hsmall : payload.length = total.toNat) (hpos : 0 < payload.length) (hle : payload.length ≤ maxMessage) :
    Reassembler.Gathers { maxMessage } sequence total payload [] where
  sound := fresh_sound maxMessage
  same := fun _ h => (by cases h)
  stored := fun _ h => h
  reached := fun _ h => h
  retained := rfl
  small := hsmall
  nonempty := hpos
  fits := hle
  slices := fun _ h => absurd h List.not_mem_nil

theorem split_concat {slices before after : List Range} {last slice : Range}
    (h : slices ++ [last] = before ++ slice :: after) :
    slices = before ∧ last = slice ∨ ∃ rest, slices = before ++ slice :: rest := by
  rcases List.eq_nil_or_concat after with rfl | ⟨rest, final, rfl⟩
  · rw [← List.concat_eq_append, ← List.concat_eq_append] at h
    exact .inl (List.concat_inj.mp h)
  · rw [List.concat_eq_append, ← List.cons_append, ← List.append_assoc, ← List.concat_eq_append,
      ← List.concat_eq_append] at h
    exact .inr ⟨rest, (List.concat_inj.mp h).1⟩

/-- An otherwise empty reassembler after these slices. -/
def afterSlices (maxMessage : Nat) (channel : ChannelId) (sequence total : UInt32) (slices : List Range) :
    Reassembler :=
  run Reassembler.step { maxMessage } (slices.map (sliceCall channel sequence total))

section

variable {maxMessage : Nat} {channel : ChannelId} {sequence total : UInt32} {payload : Bytes}

theorem afterSlices_concat (slices : List Range) (slice : Range) :
    afterSlices maxMessage channel sequence total (slices ++ [slice]) =
      (afterSlices maxMessage channel sequence total slices).step (sliceCall channel sequence total slice) := by
  unfold afterSlices
  rw [List.map_append, run_append]
  rfl

/-- Slices that do not fill the payload leave it gathered, from those among them that were taken. -/
theorem gathers_some (hempty : Reassembler.Gathers { maxMessage } sequence total payload [])
    (hlimit : maxMessage < 2 ^ 64) {slices : List Range} (hslices : ∀ slice ∈ slices, SliceOf payload slice)
    (hopen : ¬ Fills payload slices) : ∃ taken, (∀ slice ∈ taken, slice ∈ slices) ∧
      (afterSlices maxMessage channel sequence total slices).maxMessage = maxMessage ∧
      (afterSlices maxMessage channel sequence total slices).Gathers sequence total payload taken := by
  induction slices using List.reverseRecOn with
  | nil => exact ⟨[], fun _ h => h, rfl, hempty⟩
  | append_singleton slices slice ih =>
    obtain ⟨hfront, hslice⟩ := List.forall_mem_append.mp hslices
    obtain ⟨taken, hsub, hsame, hgathers⟩ := ih hfront (open_front hopen)
    have hslice := List.forall_mem_singleton.mp hslice
    rw [afterSlices_concat]
    by_cases htakes : (afterSlices maxMessage channel sequence total slices).Takes sequence slice
    · have hboth : ∀ other ∈ taken ++ [slice], other ∈ slices ++ [slice] := by
        intro other hother
        rcases List.mem_append.mp hother with hold | hnew
        · exact List.mem_append_left _ (hsub other hold)
        · exact List.mem_append_right _ hnew
      obtain ⟨_, hlimited, hnext⟩ := hgathers.step_taken hslice channel (by omega) htakes
        (fun hfills => hopen (hfills.mono hboth))
      exact ⟨taken ++ [slice], hboth, hlimited.trans hsame, hnext⟩
    · obtain ⟨_, hstep⟩ := hgathers.step_refused hslice channel htakes
      rw [hstep]
      exact ⟨taken, fun other hother => List.mem_append_left _ (hsub other hother), hsame, hgathers⟩

/-- Each of the slices is taken in its turn. -/
def TakenInTurn (maxMessage : Nat) (channel : ChannelId) (sequence total : UInt32) (slices : List Range) : Prop :=
  ∀ before slice after, slices = before ++ slice :: after →
    (afterSlices maxMessage channel sequence total before).Takes sequence slice

theorem TakenInTurn.upto {slices more : List Range}
    (h : TakenInTurn maxMessage channel sequence total (slices ++ more)) :
    TakenInTurn maxMessage channel sequence total slices := by
  intro before slice after hsplit
  refine h before slice (after ++ more) ?_
  rw [hsplit, List.append_assoc, List.cons_append]

theorem TakenInTurn.front {slices : List Range} {last : Range}
    (h : TakenInTurn maxMessage channel sequence total (slices ++ [last])) :
    TakenInTurn maxMessage channel sequence total slices ∧
      (afterSlices maxMessage channel sequence total slices).Takes sequence last := by
  exact ⟨h.upto, h slices last [] rfl⟩

theorem TakenInTurn.concat {slices : List Range} {last : Range}
    (h : TakenInTurn maxMessage channel sequence total slices)
    (hlast : (afterSlices maxMessage channel sequence total slices).Takes sequence last) :
    TakenInTurn maxMessage channel sequence total (slices ++ [last]) := by
  intro before slice after hsplit
  rcases split_concat hsplit with ⟨rfl, rfl⟩ | ⟨rest, hrest⟩
  · exact hlast
  · exact h before slice rest hrest

theorem taken_nil : TakenInTurn maxMessage channel sequence total [] := by
  intro before slice after hsplit
  cases before <;> cases hsplit

/-- Slices that are all taken are all gathered. -/
theorem gathers_all (hempty : Reassembler.Gathers { maxMessage } sequence total payload [])
    (hlimit : maxMessage < 2 ^ 64) {slices : List Range} (hslices : ∀ slice ∈ slices, SliceOf payload slice)
    (hopen : ¬ Fills payload slices) (htaken : TakenInTurn maxMessage channel sequence total slices) :
    (afterSlices maxMessage channel sequence total slices).maxMessage = maxMessage ∧
      (afterSlices maxMessage channel sequence total slices).Gathers sequence total payload slices := by
  induction slices using List.reverseRecOn with
  | nil => exact ⟨rfl, hempty⟩
  | append_singleton slices slice ih =>
    obtain ⟨hfront, hslice⟩ := List.forall_mem_append.mp hslices
    obtain ⟨hearlier, htakes⟩ := htaken.front
    obtain ⟨hsame, hgathers⟩ := ih hfront (open_front hopen) hearlier
    obtain ⟨_, hlimited, hnext⟩ := hgathers.step_taken (List.forall_mem_singleton.mp hslice) channel
      (by omega) htakes hopen
    rw [afterSlices_concat]
    exact ⟨hlimited.trans hsame, hnext⟩

end

/-- Every slice is inserted, and the last one returns the payload. -/
structure SlicesAccepted (maxMessage : Nat) (channel : ChannelId) (sequence total : UInt32) (payload : Bytes)
    (slices : List Range) (last : Range) : Prop where
  inserted : ∀ before slice after, slices = before ++ slice :: after →
    (afterSlices maxMessage channel sequence total before).reply (sliceCall channel sequence total slice) =
      .ok none
  returned : (afterSlices maxMessage channel sequence total slices).reply
    (sliceCall channel sequence total last) = .ok (some { channel, sequence, payload })

section

variable {maxMessage : Nat} {channel : ChannelId} {sequence total : UInt32} {payload : Bytes}

/-- Slices that are all taken are accepted. -/
theorem TakenInTurn.accepted {slices : List Range} {last : Range}
    (h : TakenInTurn maxMessage channel sequence total (slices ++ [last]))
    (hempty : Reassembler.Gathers { maxMessage } sequence total payload []) (hlimit : maxMessage < 2 ^ 64)
    (hslices : ∀ slice ∈ slices ++ [last], SliceOf payload slice) (hopen : ¬ Fills payload slices)
    (hfills : Fills payload (slices ++ [last])) :
    SlicesAccepted maxMessage channel sequence total payload slices last := by
  obtain ⟨hearlier, htakes⟩ := h.front
  obtain ⟨hfront, hlast⟩ := List.forall_mem_append.mp hslices
  have hlast := List.forall_mem_singleton.mp hlast
  obtain ⟨hsame, hgathers⟩ := gathers_all hempty hlimit hfront hopen hearlier
  refine ⟨fun before slice after hsplit => ?_, ?_⟩
  · subst hsplit
    rw [List.append_cons] at hopen hfront hearlier
    have hopen := open_front hopen
    obtain ⟨hearlier, htakes⟩ := hearlier.upto.front
    obtain ⟨hbefore, hslice⟩ := List.forall_mem_append.mp (List.forall_mem_append.mp hfront).1
    obtain ⟨hsame, hgathers⟩ := gathers_all hempty hlimit hbefore (open_front hopen) hearlier
    exact (hgathers.step_taken (List.forall_mem_singleton.mp hslice) channel (by omega) htakes hopen).1
  · exact (hgathers.step_last hlast channel (by omega) htakes hopen hfills).1

/-- A slice that is not taken in its turn is refused and changes nothing. -/
theorem slice_refused (hempty : Reassembler.Gathers { maxMessage } sequence total payload [])
    (hlimit : maxMessage < 2 ^ 64) (channel : ChannelId) {slices : List Range} {last : Range}
    (hslices : ∀ slice ∈ slices ++ [last], SliceOf payload slice) (hopen : ¬ Fills payload slices)
    {before after : List Range} {slice : Range} (hsplit : slices ++ [last] = before ++ slice :: after)
    (hfull : ¬ (afterSlices maxMessage channel sequence total before).Takes sequence slice) :
    (afterSlices maxMessage channel sequence total before).reply (sliceCall channel sequence total slice) =
        .error .resourceLimit ∧
      afterSlices maxMessage channel sequence total (before ++ [slice]) =
        afterSlices maxMessage channel sequence total before := by
  rw [hsplit] at hslices
  obtain ⟨hbefore, hrest⟩ := List.forall_mem_append.mp hslices
  have hfront : ∀ other ∈ before, other ∈ slices := by
    intro other hother
    rcases split_concat hsplit with ⟨rfl, _⟩ | ⟨rest, rfl⟩
    · exact hother
    · exact List.mem_append_left _ hother
  obtain ⟨_, _, _, hgathers⟩ := @gathers_some maxMessage channel sequence total payload hempty hlimit before
    hbefore (fun hfilled => hopen (hfilled.mono hfront))
  rw [afterSlices_concat]
  exact hgathers.step_refused (List.forall_mem_cons.mp hrest).1 channel hfull

end

/-- Slices of one payload, in any order and with any overlaps, are refused exactly where a slice that no
stored one holds does not fit the budget whole; such a slice changes nothing. -/
theorem slices_accepted_iff (maxMessage : Nat) (hlimit : maxMessage < 2 ^ 64) (channel : ChannelId)
    (sequence total : UInt32) (payload : Bytes) (hsmall : payload.length = total.toNat)
    (hpos : 0 < payload.length) (hle : payload.length ≤ maxMessage) (slices : List Range) (last : Range)
    (hslices : ∀ slice ∈ slices ++ [last], SliceOf payload slice) (hopen : ¬ Fills payload slices)
    (hfills : Fills payload (slices ++ [last])) :
    (SlicesAccepted maxMessage channel sequence total payload slices last ↔
      TakenInTurn maxMessage channel sequence total (slices ++ [last])) ∧
    ∀ before slice after, slices ++ [last] = before ++ slice :: after →
      ¬ (afterSlices maxMessage channel sequence total before).Takes sequence slice →
      (afterSlices maxMessage channel sequence total before).reply (sliceCall channel sequence total slice) =
          .error .resourceLimit ∧
        afterSlices maxMessage channel sequence total (before ++ [slice]) =
          afterSlices maxMessage channel sequence total before := by
  have hempty := gathers_empty sequence hsmall hpos hle
  refine ⟨⟨fun h before slice after hsplit => ?_, fun htaken => ?_⟩,
    fun before slice after => slice_refused hempty hlimit channel hslices hopen⟩
  · by_contra hfull
    obtain ⟨hreply, _⟩ := slice_refused hempty hlimit channel hslices hopen hsplit hfull
    rcases split_concat hsplit with ⟨rfl, rfl⟩ | ⟨rest, hrest⟩
    · cases hreply.symm.trans h.returned
    · cases hreply.symm.trans (h.inserted before slice rest hrest)
  · exact htaken.accepted hempty hlimit hslices hopen hfills

/-- Overlapping pairs of four bytes, without the last pair. -/
def pairSlices : List Range := [⟨0, [1, 2]⟩, ⟨1, [2, 3]⟩]

theorem slices_accepted_pairs :
    SlicesAccepted 8 { number := 1, generation := 1 } 1 4 [1, 2, 3, 4] pairSlices ⟨2, [3, 4]⟩ := by
  refine (slices_accepted_iff 8 (by decide) _ 1 4 [1, 2, 3, 4] rfl (by decide) (by decide) pairSlices _
    (by decide) (by decide) (by decide)).1.mpr ?_
  refine TakenInTurn.concat (TakenInTurn.concat (TakenInTurn.concat taken_nil ?_) ?_) ?_
  all_goals exact .inr (by decide)

/-- Two overlapping slices of four bytes, in a budget of four. -/
theorem slices_over_budget : ¬ ∀ (maxMessage : Nat) (channel : ChannelId) (sequence total : UInt32)
    (payload : Bytes) (slices : List Range) (last : Range), maxMessage < 2 ^ 64 →
    payload.length = total.toNat → 0 < payload.length → payload.length ≤ maxMessage →
    (∀ slice ∈ slices ++ [last], SliceOf payload slice) → ¬ Fills payload slices →
    Fills payload (slices ++ [last]) →
    SlicesAccepted maxMessage channel sequence total payload slices last := by
  intro h
  have haccepted := h 4 { number := 1, generation := 1 } 1 4 [1, 2, 3, 4] [⟨0, [1, 2, 3]⟩] ⟨1, [2, 3, 4]⟩
    (by decide) rfl (by decide) (by decide) (by decide) (by decide) (by decide)
  exact absurd haccepted.returned (by decide)

end LatticeGateway
