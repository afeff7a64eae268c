import LatticeGateway.DataSending
import LatticeGateway.HelloPayload
import LatticeGateway.SliceAssembly

namespace LatticeGateway

open Runs ConnectionEngine

/-- Slices that lie in the payload side by side and fill it. -/
structure Tiling (payload : Bytes) (pieces : List Range) : Prop where
  slices : ∀ piece ∈ pieces, SliceOf payload piece
  nonempty : ∀ piece ∈ pieces, piece.bytes ≠ []
  apart : pieces.Pairwise fun piece other =>
    piece.offset.toNat + piece.bytes.length ≤ other.offset.toNat
  fills : Fills payload pieces
  size : rangeBytes pieces = payload.length

/-- One of the slices ends before the other starts. -/
def Apart (piece other : Range) : Prop :=
  piece.offset.toNat + piece.bytes.length ≤ other.offset.toNat ∨
    other.offset.toNat + other.bytes.length ≤ piece.offset.toNat

instance : Std.Symm Apart := ⟨fun _ _ h => h.symm⟩

theorem Tiling.disjoint {payload : Bytes} {pieces : List Range} (h : Tiling payload pieces)
    {piece other : Range} (hpiece : piece ∈ pieces) (hother : other ∈ pieces) (hne : piece ≠ other) :
    Apart piece other :=
  (h.apart.imp (S := Apart) Or.inl).forall hpiece hother hne

/-- Without one piece something is missing. -/
theorem Tiling.open {payload : Bytes} {pieces order : List Range} {last : Range}
    (h : Tiling payload pieces) (horder : ∀ piece ∈ order, piece ∈ pieces) (hlast : last ∈ pieces)
    (hmissing : last ∉ order) : ¬ Fills payload order := by
  intro hfills
  have hinside := (h.slices last hlast).inside
  have hpos := List.length_pos_of_ne_nil (h.nonempty last hlast)
  obtain ⟨piece, hpiece, hfirst, hend⟩ := hfills last.offset.toNat (by omega)
  have hne : piece ≠ last := fun hsame => hmissing (hsame ▸ hpiece)
  rcases h.disjoint (horder piece hpiece) hlast hne with hbefore | hbehind <;> omega

theorem rangeBytes_le_of_subset {ranges pieces : List Range} (hnodup : ranges.Nodup)
    (hsub : ∀ range ∈ ranges, range ∈ pieces) : rangeBytes ranges ≤ rangeBytes pieces := by
  obtain ⟨more, hperm, hsublist⟩ := List.subperm_of_subset hnodup hsub
  unfold rangeBytes
  rw [← (hperm.map _).sum_eq]
  exact (hsublist.map _).sum_le_sum fun _ _ => Nat.zero_le _

theorem Range.holds_self {payload : Bytes} {slice : Range} (h : SliceOf payload slice)
    (hsmall : payload.length < 2 ^ 32) (hne : slice.bytes ≠ []) : slice.Holds slice.offset slice.end := by
  have hpos := List.length_pos_of_ne_nil hne
  have hend := h.end_toNat hsmall
  refine ⟨?_, UInt32.le_refl _, UInt32.le_refl _⟩
  rintro (hle | hge)
  · have hle := UInt32.le_iff_toNat_le.mp hle
    omega
  · have hge := UInt32.le_iff_toNat_le.mp hge
    omega

section

variable {maxMessage : Nat} {sequence total : UInt32} {payload : Bytes}
  {pieces : List Range}

/-- A piece that is not there yet fits the budget with those that are. -/
theorem Tiling.takes (h : Tiling payload pieces) {r : Reassembler} {order : List Range} {piece : Range}
    (hgathers : r.Gathers sequence total payload order) (hnodup : (r.ranges sequence).Nodup)
    (horder : ∀ other ∈ order, other ∈ pieces) (hpiece : piece ∈ pieces) : r.Takes sequence piece := by
  by_cases hthere : piece ∈ r.ranges sequence
  · have hsmall := hgathers.small
    have hlt := total.toNat_lt
    exact .inl ⟨piece, hthere, Range.holds_self (h.slices piece hpiece) (by omega) (h.nonempty piece hpiece)⟩
  · have hboth : (piece :: r.ranges sequence).Nodup := List.nodup_cons.mpr ⟨hthere, hnodup⟩
    have hle := rangeBytes_le_of_subset hboth (List.forall_mem_cons.mpr
      ⟨hpiece, fun range hrange => horder range (hgathers.stored range hrange)⟩)
    rw [h.size, rangeBytes, List.map_cons, List.sum_cons] at hle
    have hretained : r.retained = ((r.ranges sequence).map fun range => range.bytes.length).sum :=
      hgathers.retained
    have hfits := hgathers.fits
    exact .inr (by omega)

/-- The ranges stay distinct. -/
theorem Tiling.step_nodup (h : Tiling payload pieces) (channel : ChannelId) {r : Reassembler}
    {order : List Range} {piece : Range} (hgathers : r.Gathers sequence total payload order)
    (hnodup : (r.ranges sequence).Nodup) (hpiece : piece ∈ pieces) (hlimit : r.maxMessage < 2 ^ 64) (htakes : r.Takes sequence piece)
    (hopen : ¬ Fills payload (order ++ [piece])) :
    ((r.step (sliceCall channel sequence total piece)).ranges sequence).Nodup := by
  have hslice := h.slices piece hpiece
  by_cases hheld : ∃ range ∈ r.ranges sequence, range.Holds piece.offset piece.end
  · obtain ⟨_, hstep⟩ := Reassembler.slice_inserted (hgathers.held hslice channel hheld).1
    rwa [hstep]
  · obtain ⟨r', hinsert, _, hranges, _⟩ := hgathers.kept hslice channel hlimit hheld
      (htakes.resolve_left hheld) hopen
    obtain ⟨_, hstep⟩ := Reassembler.slice_inserted hinsert
    have hsmall := hgathers.small
    have hlt := total.toNat_lt
    rw [hstep, hranges, perm_added.nodup_iff]
    refine List.nodup_append.mpr ⟨hnodup, List.nodup_singleton _, ?_⟩
    rintro range hrange _ hnew rfl
    rw [List.mem_singleton.mp hnew] at hrange
    exact hheld ⟨piece, hrange, Range.holds_self hslice (by omega) (h.nonempty piece hpiece)⟩

/-- Pieces in any order and number are all taken, as long as one is missing. -/
theorem Tiling.gathers (h : Tiling payload pieces) (channel : ChannelId) (hlimit : maxMessage < 2 ^ 64)
    (hempty : Reassembler.Gathers { maxMessage } sequence total payload []) {order : List Range}
    (horder : ∀ piece ∈ order, piece ∈ pieces) (hopen : ¬ Fills payload order) :
    TakenInTurn maxMessage channel sequence total order ∧
      (afterSlices maxMessage channel sequence total order).maxMessage = maxMessage ∧
      (afterSlices maxMessage channel sequence total order).Gathers sequence total payload order ∧
      ((afterSlices maxMessage channel sequence total order).ranges sequence).Nodup := by
  induction order using List.reverseRecOn with
  | nil => exact ⟨taken_nil, rfl, hempty, List.nodup_nil⟩
  | append_singleton order piece ih =>
    obtain ⟨hfront, hpiece⟩ := List.forall_mem_append.mp horder
    have hpiece := List.forall_mem_singleton.mp hpiece
    obtain ⟨htaken, hsame, hgathers, hnodup⟩ := ih hfront (open_front hopen)
    have htakes := h.takes hgathers hnodup hfront hpiece
    have hstep := h.step_nodup channel hgathers hnodup hpiece (by omega) htakes hopen
    obtain ⟨_, hlimited, hnext⟩ := hgathers.step_taken (h.slices piece hpiece) channel (by omega) htakes hopen
    rw [afterSlices_concat]
    exact ⟨htaken.concat htakes, hlimited.trans hsame, hnext, hstep⟩

/-- The last piece, whenever it comes, completes the payload. -/
theorem Tiling.accepted (h : Tiling payload pieces) (channel : ChannelId) (hlimit : maxMessage < 2 ^ 64)
    (hsmall : payload.length = total.toNat) (hpos : 0 < payload.length) (hle : payload.length ≤ maxMessage)
    {order : List Range} {last : Range} (horder : ∀ piece ∈ order, piece ∈ pieces) (hlast : last ∈ pieces)
    (hmissing : last ∉ order) (hothers : ∀ piece ∈ pieces, piece = last ∨ piece ∈ order) :
    SlicesAccepted maxMessage channel sequence total payload order last ∧
      (afterSlices maxMessage channel sequence total (order ++ [last])).retained = 0 := by
  have hempty := gathers_empty sequence hsmall hpos hle
  have hopen := h.open horder hlast hmissing
  obtain ⟨htaken, hsame, hgathers, hnodup⟩ := h.gathers channel hlimit hempty horder hopen
  have htakes := h.takes hgathers hnodup horder hlast
  have hfills : Fills payload (order ++ [last]) := by
    refine h.fills.mono fun piece hpiece => ?_
    rcases hothers piece hpiece with rfl | hthere
    · exact List.mem_append_right _ (List.mem_singleton_self _)
    · exact List.mem_append_left _ hthere
  have hslices : ∀ slice ∈ order ++ [last], SliceOf payload slice :=
    List.forall_mem_append.mpr ⟨fun slice hslice => h.slices slice (horder slice hslice),
      List.forall_mem_singleton.mpr (h.slices last hlast)⟩
  rw [afterSlices_concat]
  exact ⟨(htaken.concat htakes).accepted hempty hlimit hslices hopen hfills,
    (hgathers.step_last (h.slices last hlast) channel (by omega) htakes hopen hfills).2⟩

end

theorem fragments_slice {maxFragment : Nat} (payload : Bytes) {fuel offset : Nat} {round : Nat × Bytes}
    (h : round ∈ fragments maxFragment payload fuel offset) :
    offset ≤ round.1 ∧ round.1 < payload.length ∧ round.2 = (payload.drop round.1).take maxFragment := by
  induction fuel generalizing offset with
  | zero => cases h
  | succ fuel ih =>
    unfold fragments at h
    split at h
    next hmore =>
      rcases List.mem_cons.mp h with rfl | hrest
      · exact ⟨Nat.le_refl _, hmore, rfl⟩
      · obtain ⟨hle, hslice⟩ := ih hrest
        exact ⟨by omega, hslice⟩
    next => cases h

theorem fragments_apart (maxFragment : Nat) (payload : Bytes) (fuel offset : Nat) :
    (fragments maxFragment payload fuel offset).Pairwise fun round other =>
      round.1 + round.2.length ≤ other.1 := by
  induction fuel generalizing offset with
  | zero => exact .nil
  | succ fuel ih =>
    unfold fragments
    split
    next =>
      refine .cons (fun round hround => ?_) (ih _)
      have hle := (fragments_slice payload hround).1
      have htake := List.length_take_le maxFragment (payload.drop offset)
      dsimp only
      omega
    next => exact .nil

theorem fragments_reach {maxFragment : Nat} (hpos : 0 < maxFragment) (payload : Bytes) {fuel offset i : Nat}
    (hfuel : payload.length ≤ offset + fuel) (hle : offset ≤ i) (hlt : i < payload.length) :
    ∃ round ∈ fragments maxFragment payload fuel offset, round.1 ≤ i ∧ i < round.1 + round.2.length := by
  induction fuel generalizing offset with
  | zero => omega
  | succ fuel ih =>
    unfold fragments
    rw [if_pos (by omega)]
    by_cases hfirst : i < offset + maxFragment
    · refine ⟨_, List.mem_cons_self, hle, ?_⟩
      rw [List.length_take, List.length_drop]
      omega
    · obtain ⟨round, hround, hbounds⟩ := ih (show payload.length ≤ offset + maxFragment + fuel by omega)
        (by omega)
      exact ⟨round, List.mem_cons_of_mem _ hround, hbounds⟩

/-- What `send` cuts the payload into. -/
def pieces (maxFragment : Nat) (payload : Bytes) : List Range :=
  (fragments maxFragment payload payload.length 0).map fun round => ⟨UInt32.ofNat round.1, round.2⟩

theorem pieces_size {maxFragment : Nat} (hpos : 0 < maxFragment) (payload : Bytes) :
    rangeBytes (pieces maxFragment payload) = payload.length := by
  have hjoin := congrArg List.length (@fragments_join maxFragment hpos payload payload.length 0
    (by omega))
  rw [List.length_flatMap, List.drop_zero] at hjoin
  unfold rangeBytes pieces
  rw [List.map_map]
  exact hjoin

theorem pieces_tile {maxFragment : Nat} (hpos : 0 < maxFragment) {payload : Bytes}
    (hsmall : payload.length < 2 ^ 32) : Tiling payload (pieces maxFragment payload) := by
  have hoffset : ∀ round ∈ fragments maxFragment payload payload.length 0,
      (UInt32.ofNat round.1).toNat = round.1 := by
    intro round hround
    have hlt := (fragments_slice payload hround).2.1
    rw [UInt32.toNat_ofNat', Nat.mod_eq_of_lt (by omega)]
  refine ⟨?_, ?_, ?_, ?_, pieces_size hpos payload⟩
  · rintro piece hpiece
    obtain ⟨round, hround, rfl⟩ := List.mem_map.mp hpiece
    obtain ⟨_, hlt, hbytes⟩ := fragments_slice payload hround
    have hlength := congrArg List.length hbytes
    rw [List.length_take, List.length_drop] at hlength
    refine ⟨?_, ?_⟩ <;> dsimp only <;> rw [hoffset round hround]
    · omega
    · refine hbytes.trans (List.take_eq_take_iff.mpr ?_)
      rw [hlength, List.length_drop]
      omega
  · rintro piece hpiece
    obtain ⟨round, hround, rfl⟩ := List.mem_map.mp hpiece
    exact (fragments_round hpos payload hround).1
  · unfold pieces
    rw [List.pairwise_map]
    refine (fragments_apart maxFragment payload payload.length 0).imp_of_mem ?_
    intro round other hround hother hle
    rwa [hoffset round hround, hoffset other hother]
  · intro i hi
    obtain ⟨round, hround, hfirst, hlast⟩ := fragments_reach hpos payload
      (show payload.length ≤ 0 + payload.length by omega) (Nat.zero_le i) hi
    refine ⟨_, List.mem_map.mpr ⟨round, hround, rfl⟩, ?_⟩
    rw [hoffset round hround]
    exact ⟨hfirst, hlast⟩

theorem afterSlices_sound (maxMessage : Nat) (channel : ChannelId) (sequence total : UInt32)
    (slices : List Range) : (afterSlices maxMessage channel sequence total slices).Sound :=
  run_induction (fun _ c h => (h.simulates c).sound) _ (fresh_sound maxMessage)

/-- A message is handed out with the length that was announced. -/
theorem Reassembler.Sound.reply_length {r : Reassembler} (h : r.Sound) {channel : ChannelId}
    {sequence total : UInt32} {slice : Range} {message : LogicalMessage}
    (hreply : r.reply (sliceCall channel sequence total slice) = .ok (some message)) :
    message.payload.length = total.toNat := by
  have hmessages := congrArg Prod.fst (h.simulates (sliceCall channel sequence total slice)).messages
  unfold sliceCall ByteMaps.step ByteMaps.insert at hmessages
  dsimp only at hmessages
  unfold sliceCall at hreply
  rw [hreply] at hmessages
  repeat' split at hmessages
  all_goals cases hmessages
  dsimp only
  unfold Patchwork.assembled
  rw [List.length_map, List.length_range]

/-- `send` cuts the payload into frames that keep to the limit, and its fragments in any order, some of
them repeated before the last one comes, give back the payload. -/
structure FragmentsInverse (caps : CapabilitySet) (payload : Bytes) : Prop where
  encodes : ∀ codec : FrameCodec, 28 ≤ codec.limits.maxHeader → caps.maxFrame ≤ codec.limits.maxFrame →
    ∀ (id : ChannelId) (sequence frameSeq : UInt32), id.number ≤ kMaxChannelNo →
    ∀ round ∈ fragments (max 1 (caps.maxFrame / 2)) payload payload.length 0, ∃ encoded,
      codec.encode (dataFrame id sequence payload.length frameSeq round) = .ok encoded ∧
        encoded.length ≤ caps.maxFrame
  assembles : ∀ (channel : ChannelId) (sequence : UInt32) (order : List Range),
    ∀ last ∈ pieces (max 1 (caps.maxFrame / 2)) payload,
    (∀ piece ∈ order, piece ∈ pieces (max 1 (caps.maxFrame / 2)) payload) → last ∉ order →
    (∀ piece ∈ pieces (max 1 (caps.maxFrame / 2)) payload, piece = last ∨ piece ∈ order) →
    SlicesAccepted caps.maxMessage channel sequence (UInt32.ofNat payload.length) payload order last ∧
      (afterSlices caps.maxMessage channel sequence (UInt32.ofNat payload.length)
        (order ++ [last])).retained = 0

theorem FragmentsInverse.of_small {caps : CapabilitySet} (hge : 128 ≤ caps.maxFrame)
    (hlimit : caps.maxMessage < 2 ^ 64) {payload : Bytes} (hpos : 0 < payload.length)
    (hle : payload.length ≤ caps.maxMessage) (hsmall : payload.length < 2 ^ 32) :
    FragmentsInverse caps payload where
  encodes codec hheader hframe id sequence frameSeq hnumber round hround := by
    have hlength := (fragments_round (by omega) payload hround).2
    exact dataFrame_within hge hheader hframe hnumber sequence payload.length frameSeq (by omega) (by omega)
  assembles channel sequence order last hlast horder hmissing hothers := by
    have htotal : payload.length = (UInt32.ofNat payload.length).toNat := by
      rw [UInt32.toNat_ofNat', Nat.mod_eq_of_lt hsmall]
    exact (pieces_tile (by omega) hsmall).accepted channel hlimit htotal hpos hle horder hlast hmissing hothers

/-- A longer payload is announced with too small a total. -/
theorem FragmentsInverse.small {caps : CapabilitySet} {payload : Bytes} (h : FragmentsInverse caps payload)
    (hpos : 0 < payload.length) : payload.length < 2 ^ 32 := by
  let fragment := max 1 (caps.maxFrame / 2)
  have hne : pieces fragment payload ≠ [] := by
    intro hnil
    have hsize := pieces_size (show 0 < fragment by omega) payload
    rw [hnil, rangeBytes, List.map_nil, List.sum_nil] at hsize
    omega
  obtain ⟨last, hlast⟩ := List.exists_mem_of_ne_nil _ hne
  obtain ⟨haccepted, _⟩ := h.assembles {} 1 ((pieces fragment payload).filter (· ≠ last)) last hlast
    (fun piece hpiece => (List.mem_filter.mp hpiece).1) (by simp) (fun piece hpiece => by grind)
  have hlength := (afterSlices_sound _ _ _ _ _).reply_length haccepted.returned
  have hlt := (UInt32.ofNat payload.length).toNat_lt
  dsimp only at hlength
  omega

theorem decodeHelloPayload_message {encoded : Bytes} {hello : HelloMessage}
    (h : decodeHelloPayload encoded = .ok hello) : hello.limits.maxMessage < 2 ^ 32 := by
  rw [(decodeHelloPayload_iff.mp h).2]
  exact UInt32.toNat_lt _

/-- Fragmentation and reassembly are inverse to each other on payloads that a total of 32 bits can
announce, and so on every payload when the limits of one side were read off the wire. -/
theorem fragments_inverse_iff (ours peer : HelloMessage) (caps : CapabilitySet)
    (hagreed : negotiate ours peer = .ok caps) (hlimit : caps.maxMessage < 2 ^ 64) (payload : Bytes)
    (hpos : 0 < payload.length) (hle : payload.length ≤ caps.maxMessage) :
    (FragmentsInverse caps payload ↔ payload.length < 2 ^ 32) ∧
      ((∃ encoded, decodeHelloPayload encoded = .ok peer) → FragmentsInverse caps payload) := by
  have hcaps := negotiate_ok hagreed
  refine ⟨⟨fun h => h.small hpos, fun hsmall => .of_small hcaps.frame_ge hlimit hpos hle hsmall⟩, ?_⟩
  rintro ⟨encoded, hdecode⟩
  have hpeer := decodeHelloPayload_message hdecode
  have hmin := hcaps.maxMessage
  exact .of_small hcaps.frame_ge hlimit hpos hle (by omega)

/-- A HELLO with these limits. -/
def limitedHello (maxFrame maxMessage : Nat) : HelloMessage where
  plugins := [echoDescriptor]
  limits := { maxFrame, maxMessage, connectionWindow := maxFrame }

theorem negotiate_limited {maxFrame maxMessage : Nat} (hframe : 128 ≤ maxFrame) (hmessage : 0 < maxMessage) :
    ∃ caps, negotiate (limitedHello maxFrame maxMessage) (limitedHello maxFrame maxMessage) = .ok caps ∧
      caps.maxMessage = maxMessage := by
  unfold negotiate limitedHello
  dsimp only
  rw [if_neg (by decide), if_neg, if_neg (by decide)]
  · exact ⟨_, rfl, Nat.min_self _⟩
  · rw [Nat.min_self, Nat.min_self]
    rintro (hlow | hlow | hlow | hlow)
    · omega
    · omega
    · omega
    · exact absurd hlow (by decide)

theorem fragments_inverse_narrow : ∃ caps,
    negotiate (limitedHello 128 400) (limitedHello 128 400) = .ok caps ∧
      FragmentsInverse caps (List.replicate 200 65) := by
  obtain ⟨caps, hagreed, hmessage⟩ := @negotiate_limited 128 400 (by decide) (by decide)
  have hlength : (List.replicate 200 (65 : UInt8)).length = 200 := List.length_replicate
  exact ⟨caps, hagreed, (fragments_inverse_iff _ _ caps hagreed (by omega) _ (by omega) (by omega)).1.mpr
    (by omega)⟩

/-- With limits of eight gigabytes a payload of four is announced with the total zero. -/
theorem fragments_lose_large : ¬ ∀ (ours peer : HelloMessage) (caps : CapabilitySet) (payload : Bytes),
    negotiate ours peer = .ok caps → caps.maxMessage < 2 ^ 64 → 0 < payload.length →
    payload.length ≤ caps.maxMessage → FragmentsInverse caps payload := by
  intro h
  obtain ⟨caps, hagreed, hmessage⟩ := @negotiate_limited (2 ^ 33) (2 ^ 33) (by decide) (by decide)
  have hlength : (List.replicate (2 ^ 32) (65 : UInt8)).length = 2 ^ 32 := List.length_replicate
  have hinverse := h _ _ caps (List.replicate (2 ^ 32) 65) hagreed (by omega) (by omega) (by omega)
  have hsmall := hinverse.small (by omega)
  omega

end LatticeGateway
