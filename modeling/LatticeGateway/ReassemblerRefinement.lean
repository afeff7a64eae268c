import LatticeGateway.FragmentPatches
import LatticeGateway.KeyedSum
import LatticeGateway.Runs
import Mathlib.Logic.Function.Basic

namespace LatticeGateway

open Patchwork Runs

inductive ReassemblerCall
  | insert (channel : ChannelId) (sequence offset total : UInt32) (bytes : Bytes)
  | resetMessage (sequence : UInt32)

/-- What a call returns, an error by its code. -/
abbrev ReassemblerReply := Except ErrorCode (Option LogicalMessage)

def Reassembler.step (r : Reassembler) : ReassemblerCall → Reassembler
  | .insert channel sequence offset total bytes => (r.insert channel sequence offset total bytes).2
  | .resetMessage sequence => r.resetMessage sequence

def Reassembler.reply (r : Reassembler) : ReassemblerCall → ReassemblerReply
  | .insert channel sequence offset total bytes =>
    (r.insert channel sequence offset total bytes).1.mapError (·.code)
  | .resetMessage _ => .ok none

def Reassembler.replies (r : Reassembler) : List ReassemblerCall → List ReassemblerReply
  | [] => []
  | c :: calls => r.reply c :: replies (r.step c) calls

/-- The sizes of all stored ranges. -/
def Reassembler.storedBytes (r : Reassembler) : Nat :=
  KeyedSum.total (fun pending => rangeBytes pending.ranges) r.pending

def Reassembler.ranges (r : Reassembler) (sequence : UInt32) : List Range :=
  ((r.pending.lookup sequence).getD {}).ranges

/-- The budget has no room for the fragment, and no stored range holds it already. -/
def Reassembler.Refuses (r : Reassembler) : ReassemblerCall → Prop
  | .insert _ sequence offset _ bytes =>
    (checkedAdd r.retained bytes.length).all (· > r.maxMessage) = true ∧
      ∀ range ∈ r.ranges sequence,
        ¬ range.Holds offset (UInt32.ofNat (offset.toNat + bytes.length))
  | .resetMessage _ => False

/-- The calls, each with what the budget says about it. -/
def Reassembler.judged (r : Reassembler) : List ReassemblerCall → List (ReassemblerCall × Prop)
  | [] => []
  | c :: calls => (c, r.Refuses c) :: judged (r.step c) calls

/-- The total is none that could be held, or the fragment does not lie within it. -/
def ReassemblerCall.OutOfRange (maxMessage : Nat) : ReassemblerCall → Prop
  | .insert _ _ offset total bytes =>
    (total = 0 ∨ total.toNat > maxMessage) ∨ offset.toNat + bytes.length > total.toNat
  | .resetMessage _ => False

/-- A message of which some bytes are known. -/
structure PartialMessage where
  total : UInt32
  bytes : Nat → Option UInt8

/-- The messages under way. -/
abbrev ByteMaps := UInt32 → Option PartialMessage

def ByteMaps.forget (m : ByteMaps) (sequence : UInt32) : ByteMaps := Function.update m sequence none

/-- A fragment either adds its bytes to those known of its message, and completes the message when
nothing is missing any more, or it is refused; one that contradicts what is known ends the message. -/
noncomputable def ByteMaps.insert (maxMessage : Nat) (m : ByteMaps) (refused : Prop) (channel : ChannelId)
    (sequence offset total : UInt32) (bytes : Bytes) : ReassemblerReply × ByteMaps :=
  open Classical in
  if total = 0 ∨ total.toNat > maxMessage then (.error .resourceLimit, m)
  else if offset.toNat + bytes.length > total.toNat then (.error .fragmentRange, m)
  else
    let message := (m sequence).getD { total, bytes := fun _ => none }
    if message.total ≠ total then (.error .fragmentRange, m.forget sequence)
    else if ¬ Agree message.bytes (fragmentPatch offset bytes).at then
      (.error .fragmentOverlap, m.forget sequence)
    else if refused then (.error .resourceLimit, m)
    else
      let known := overlay message.bytes (fragmentPatch offset bytes).at
      if Covers known total.toNat then
        (.ok (some { channel, sequence, payload := assembled total.toNat known 0 }), m.forget sequence)
      else (.ok none, Function.update m sequence (some { total, bytes := known }))

noncomputable def ByteMaps.step (maxMessage : Nat) (m : ByteMaps) :
    ReassemblerCall × Prop → ReassemblerReply × ByteMaps
  | (.insert channel sequence offset total bytes, refused) =>
    m.insert maxMessage refused channel sequence offset total bytes
  | (.resetMessage sequence, _) => (.ok none, m.forget sequence)

noncomputable def ByteMaps.replies (maxMessage : Nat) :
    ByteMaps → List (ReassemblerCall × Prop) → List ReassemblerReply
  | _, [] => []
  | m, c :: calls => (m.step maxMessage c).1 :: replies maxMessage (m.step maxMessage c).2 calls

/-- The messages that a reassembler stands for. -/
def Pending.message (pending : Pending) : PartialMessage := ⟨pending.total, known (patches pending.ranges)⟩

def Reassembler.messages (r : Reassembler) : ByteMaps := fun sequence =>
  (r.pending.lookup sequence).map Pending.message

/-- An entry has a total, ranges that fit it and agree with each other, and a gap. -/
structure Pending.Sound (pending : Pending) : Prop where
  total : pending.total ≠ 0
  inside : ∀ range ∈ pending.ranges, range.patch.stop ≤ pending.total.toNat
  consistent : Consistent (patches pending.ranges)
  gap : ¬ Covers (known (patches pending.ranges)) pending.total.toNat

structure Reassembler.Sound (r : Reassembler) : Prop where
  entry : ∀ sequence pending, r.pending.lookup sequence = some pending → pending.Sound
  retained : r.retained = r.storedBytes
  bounded : r.retained ≤ r.maxMessage

theorem mem_patches {ranges : List Range} {p : Patch UInt8} :
    p ∈ patches ranges ↔ ∃ range ∈ ranges, range.patch = p := List.mem_map

theorem rangeBytes_ranges (r : Reassembler) (sequence : UInt32) :
    ((r.pending.lookup sequence).map fun pending => rangeBytes pending.ranges).getD 0 =
      rangeBytes (r.ranges sequence) := by
  unfold Reassembler.ranges
  cases r.pending.lookup sequence <;> rfl

theorem messages_erase (r : Reassembler) (sequence : UInt32) (retained : Nat) :
    Reassembler.messages { r with retained, pending := r.pending.erase sequence } =
      r.messages.forget sequence := by
  funext other
  unfold Reassembler.messages ByteMaps.forget
  dsimp only
  by_cases hkey : other = sequence
  · rw [hkey, AList.lookup_erase, Function.update_self]
    rfl
  · rw [AList.lookup_erase_ne hkey, Function.update_of_ne hkey]

theorem Reassembler.Sound.ranges_le {r : Reassembler} (h : r.Sound) (sequence : UInt32) :
    rangeBytes (r.ranges sequence) ≤ r.retained := by
  have herase := KeyedSum.total_erase (fun pending => rangeBytes pending.ranges) r.pending sequence
  rw [rangeBytes_ranges] at herase
  rw [h.retained]
  unfold Reassembler.storedBytes
  omega

/-- A message is dropped with all its bytes. -/
theorem Reassembler.Sound.erased {r : Reassembler} (h : r.Sound) {sequence : UInt32} {retained : Nat}
    (hretained : retained + rangeBytes (r.ranges sequence) = r.retained) :
    Reassembler.Sound { r with retained, pending := r.pending.erase sequence } := by
  have herase := KeyedSum.total_erase (fun pending => rangeBytes pending.ranges) r.pending sequence
  rw [rangeBytes_ranges] at herase
  have hstored := h.retained
  have hbounded := h.bounded
  unfold Reassembler.storedBytes at hstored
  refine ⟨?_, ?_, ?_⟩
  · intro other pending hother
    by_cases hkey : other = sequence
    · rw [hkey, AList.lookup_erase] at hother
      cases hother
    · rw [AList.lookup_erase_ne hkey] at hother
      exact h.entry other pending hother
  · unfold Reassembler.storedBytes
    dsimp only
    omega
  · dsimp only
    omega

/-- Forgetting a message on both sides. -/
theorem Reassembler.Sound.reset {r : Reassembler} (h : r.Sound) (sequence : UInt32) :
    (r.resetMessage sequence).Sound ∧ (r.resetMessage sequence).maxMessage = r.maxMessage ∧
      (r.resetMessage sequence).messages = r.messages.forget sequence := by
  unfold Reassembler.resetMessage
  cases hfound : r.pending.lookup sequence with
  | none =>
    have hmessages : r.messages sequence = none := by
      unfold Reassembler.messages
      rw [hfound]
      rfl
    refine ⟨h, rfl, ?_⟩
    unfold ByteMaps.forget
    rw [← hmessages, Function.update_eq_self]
  | some found =>
    have hle := h.ranges_le sequence
    have hranges : r.ranges sequence = found.ranges := by
      unfold Reassembler.ranges
      rw [hfound]
      rfl
    rw [hranges] at hle
    refine ⟨h.erased ?_, rfl, messages_erase r sequence _⟩
    rw [hranges]
    omega

/-- The ranges of a message with one more. -/
def Reassembler.added (r : Reassembler) (sequence offset : UInt32) (bytes : Bytes) : List Range :=
  (r.ranges sequence ++ [(⟨offset, bytes⟩ : Range)]).insertionSort fun a b => a.offset ≤ b.offset

section

variable {r : Reassembler} {sequence offset total : UInt32} {bytes : Bytes}

theorem perm_added :
    (r.added sequence offset bytes).Perm (r.ranges sequence ++ [(⟨offset, bytes⟩ : Range)]) :=
  List.perm_insertionSort _ _

theorem perm_patches_added : (patches (r.added sequence offset bytes)).Perm
    (patches (r.ranges sequence) ++ [fragmentPatch offset bytes]) := by
  have hperm := (@perm_added r sequence offset bytes).map Range.patch
  rwa [List.map_append] at hperm

theorem sorted_added : (patches (r.added sequence offset bytes)).Pairwise fun p q => p.start ≤ q.start := by
  have hsorted : (r.added sequence offset bytes).Pairwise fun a b => a.offset ≤ b.offset :=
    List.pairwise_insertionSort _ _
  exact List.pairwise_map.mpr (hsorted.imp UInt32.le_iff_toNat_le.mp)

theorem rangeBytes_added :
    rangeBytes (r.added sequence offset bytes) = rangeBytes (r.ranges sequence) + bytes.length := by
  unfold rangeBytes
  rw [(perm_added.map fun range : Range => range.bytes.length).sum_eq, List.map_append, List.sum_append]
  simp

/-- Whatever is stored of a message is sound, or there is nothing. -/
theorem Reassembler.Sound.consistent (h : r.Sound) (sequence : UInt32) :
    Consistent (patches (r.ranges sequence)) := by
  unfold Reassembler.ranges
  cases hfound : r.pending.lookup sequence with
  | none =>
    intro p hp
    cases hp
  | some pending => exact (h.entry sequence pending hfound).consistent

theorem Reassembler.Sound.inside (h : r.Sound)
    (hsame : ∀ pending ∈ r.pending.lookup sequence, pending.total = total) :
    ∀ range ∈ r.ranges sequence, range.patch.stop ≤ total.toNat := by
  intro range hrange
  unfold Reassembler.ranges at hrange
  cases hfound : r.pending.lookup sequence with
  | none =>
    rw [hfound] at hrange
    cases hrange
  | some pending =>
    rw [hfound] at hrange
    rw [← hsame pending hfound]
    exact (h.entry sequence pending hfound).inside range hrange

theorem message_of_same (hsame : ∀ pending ∈ r.pending.lookup sequence, pending.total = total) :
    (r.messages sequence).getD { total, bytes := fun _ => none } =
      ⟨total, known (patches (r.ranges sequence))⟩ := by
  unfold Reassembler.messages Reassembler.ranges
  cases hfound : r.pending.lookup sequence with
  | none => rfl
  | some pending =>
    have htotal := hsame pending hfound
    rw [← htotal]
    rfl

theorem known_added (h : r.Sound)
    (hagree : Agree (known (patches (r.ranges sequence))) (fragmentPatch offset bytes).at) :
    Consistent (patches (r.added sequence offset bytes)) ∧
      known (patches (r.added sequence offset bytes)) =
        overlay (known (patches (r.ranges sequence))) (fragmentPatch offset bytes).at := by
  have hconsistent := h.consistent sequence
  have hboth := hconsistent.concat ((agree_known_iff hconsistent _).mp hagree)
  refine ⟨hboth.perm perm_patches_added.symm, ?_⟩
  rw [known_perm hboth perm_patches_added.symm, known_concat]

theorem inside_added (h : r.Sound)
    (hsame : ∀ pending ∈ r.pending.lookup sequence, pending.total = total)
    (hfits : (fragmentPatch offset bytes).stop ≤ total.toNat) :
    ∀ range ∈ r.added sequence offset bytes, range.patch.stop ≤ total.toNat := by
  intro range hrange
  rcases List.mem_append.mp (perm_added.mem_iff.mp hrange) with hold | hnew
  · exact h.inside hsame range hold
  · rw [List.mem_singleton.mp hnew]
    exact hfits

/-- The loop over the ranges finds no gap exactly when every byte is known. -/
theorem coveredBy_added (h : r.Sound)
    (hsame : ∀ pending ∈ r.pending.lookup sequence, pending.total = total)
    (hfits : (fragmentPatch offset bytes).stop ≤ total.toNat) :
    (∃ covered, coveredBy (r.added sequence offset bytes) 0 = some covered ∧ ¬ covered < total) ↔
      Covers (known (patches (r.added sequence offset bytes))) total.toNat := by
  have hinside := inside_added h hsame hfits
  have hends : ∀ range ∈ r.added sequence offset bytes, range.end.toNat = range.patch.stop :=
    fun range hrange => Range.end_toNat (Nat.lt_of_le_of_lt (hinside range hrange) total.toNat_lt)
  have hstarts : ∀ p ∈ patches (r.added sequence offset bytes), p.start ≤ total.toNat := by
    intro p hp
    obtain ⟨range, hrange, rfl⟩ := mem_patches.mp hp
    exact Nat.le_trans (Nat.le_add_right _ _) (hinside range hrange)
  have hsweep := @sweep_iff _ _ 0 _ sorted_added hstarts
  simp only [Nat.zero_le, true_imp_iff] at hsweep
  rw [covers_known_iff, ← hsweep]
  have hcovered := coveredBy_sweep hends 0
  rw [UInt32.toNat_zero] at hcovered
  rw [← hcovered]
  constructor
  · rintro ⟨covered, hsome, hge⟩
    refine ⟨covered.toNat, by rw [hsome]; rfl, ?_⟩
    exact UInt32.le_iff_toNat_le.mp (UInt32.not_lt.mp hge)
  · rintro ⟨stop, hstop, hge⟩
    obtain ⟨covered, hsome, rfl⟩ := Option.map_eq_some_iff.mp hstop
    exact ⟨covered, hsome, UInt32.not_lt.mpr (UInt32.le_iff_toNat_le.mpr hge)⟩

theorem payload_added (h : r.Sound)
    (hsame : ∀ pending ∈ r.pending.lookup sequence, pending.total = total)
    (hfits : (fragmentPatch offset bytes).stop ≤ total.toNat)
    (hagree : Agree (known (patches (r.ranges sequence))) (fragmentPatch offset bytes).at) :
    (r.added sequence offset bytes).foldl overwrite (List.replicate total.toNat 0) =
      assembled total.toNat
        (overlay (known (patches (r.ranges sequence))) (fragmentPatch offset bytes).at) 0 := by
  obtain ⟨hconsistent, hknown⟩ := known_added h hagree
  have hinside : ∀ p ∈ patches (r.added sequence offset bytes), p.stop ≤ total.toNat := by
    intro p hp
    obtain ⟨range, hrange, rfl⟩ := mem_patches.mp hp
    exact inside_added h hsame hfits range hrange
  rw [foldl_overwrite, foldl_paint_eq_assembled hconsistent hinside, hknown]

end

/-- What `insert` does with a fragment that no stored range holds or contradicts. -/
def Reassembler.store (r : Reassembler) (channel : ChannelId) (sequence offset total : UInt32)
    (bytes : Bytes) : Except Error (Option LogicalMessage) × Reassembler :=
  let full := channelError .resourceLimit channel "retained incomplete fragments exceed receive budget"
  match checkedAdd r.retained bytes.length with
  | none => (.error full, r)
  | some nextRetained =>
    if nextRetained > r.maxMessage then (.error full, r)
    else
      let ranges := r.added sequence offset bytes
      let stored := { r with retained := nextRetained
                             pending := r.pending.insert sequence { total, ranges } }
      match coveredBy ranges 0 with
      | none => (.ok none, stored)
      | some covered =>
        if covered < total then (.ok none, stored)
        else
          let payload := ranges.foldl overwrite (List.replicate total.toNat 0)
          (.ok (some { channel, sequence, payload }),
            { r with retained := nextRetained - rangeBytes ranges, pending := r.pending.erase sequence })

/-- A fragment that lies within its message, of the total that the message has. -/
structure Reassembler.Fits (r : Reassembler) (sequence offset total : UInt32) (bytes : Bytes) : Prop where
  good : ¬ (total = 0 ∨ total.toNat > r.maxMessage)
  inside : (fragmentPatch offset bytes).stop ≤ total.toNat
  same : ∀ pending ∈ r.pending.lookup sequence, pending.total = total

theorem insert_past {r : Reassembler} {channel : ChannelId} {sequence offset total : UInt32}
    {bytes : Bytes} (hgood : ¬ (total = 0 ∨ total.toNat > r.maxMessage))
    (hpast : offset.toNat + bytes.length > total.toNat) :
    r.insert channel sequence offset total bytes =
      (.error (channelError .fragmentRange channel "fragment extends past total length"), r) := by
  unfold Reassembler.insert
  rw [if_neg hgood]
  dsimp only
  cases hadd : checkedAdd offset.toNat bytes.length with
  | none => rfl
  | some fragmentEnd =>
    obtain rfl := checkedAdd_eq_some hadd
    dsimp only
    rw [if_pos hpast]

theorem insert_changed {r : Reassembler} {channel : ChannelId} {sequence offset total : UInt32}
    {bytes : Bytes} {pending : Pending} (hgood : ¬ (total = 0 ∨ total.toNat > r.maxMessage))
    (hfits : offset.toNat + bytes.length ≤ total.toNat) (hfound : r.pending.lookup sequence = some pending)
    (hzero : pending.total ≠ 0) (hchanged : pending.total ≠ total) :
    r.insert channel sequence offset total bytes =
      (.error (channelError .fragmentRange channel "message total changed"), r.resetMessage sequence) := by
  have htotal := total.toNat_lt
  unfold Reassembler.insert
  rw [if_neg hgood]
  dsimp only
  rw [checkedAdd_of_lt (by omega)]
  dsimp only
  rw [if_neg (by omega), hfound, Option.getD_some, if_pos ⟨hzero, hchanged⟩]

theorem Reassembler.Fits.insert_scanned {r : Reassembler} {sequence offset total : UInt32} {bytes : Bytes}
    (h : r.Fits sequence offset total bytes) (channel : ChannelId) :
    r.insert channel sequence offset total bytes =
      match scanRanges offset (UInt32.ofNat (offset.toNat + bytes.length)) bytes (r.ranges sequence) with
      | .conflict =>
        (.error (channelError .fragmentOverlap channel "conflicting overlapping fragment bytes"),
          r.resetMessage sequence)
      | .contained => (.ok none, r)
      | .fresh => r.store channel sequence offset total bytes := by
  have htotal := total.toNat_lt
  have hfits : offset.toNat + bytes.length ≤ total.toNat := h.inside
  have hunchanged : ¬ (((r.pending.lookup sequence).getD {}).total ≠ 0 ∧
      ((r.pending.lookup sequence).getD {}).total ≠ total) := by
    rintro ⟨hzero, hchanged⟩
    cases hfound : r.pending.lookup sequence with
    | none =>
      rw [hfound] at hzero
      exact hzero rfl
    | some pending =>
      rw [hfound] at hchanged
      exact hchanged (h.same pending hfound)
  unfold Reassembler.insert
  rw [if_neg h.good]
  dsimp only
  rw [checkedAdd_of_lt (by omega)]
  dsimp only
  rw [if_neg (by omega), if_neg hunchanged]
  rfl

theorem store_refused {r : Reassembler} {bytes : Bytes}
    (h : (checkedAdd r.retained bytes.length).all (· > r.maxMessage) = true) (channel : ChannelId)
    (sequence offset total : UInt32) :
    r.store channel sequence offset total bytes =
      (.error (channelError .resourceLimit channel
        "retained incomplete fragments exceed receive budget"), r) := by
  unfold Reassembler.store
  cases hadd : checkedAdd r.retained bytes.length with
  | none => rfl
  | some next =>
    rw [hadd] at h
    dsimp only
    rw [if_pos (by simpa using h)]

theorem store_room {r : Reassembler} {bytes : Bytes}
    (h : ¬ (checkedAdd r.retained bytes.length).all (· > r.maxMessage) = true) :
    checkedAdd r.retained bytes.length = some (r.retained + bytes.length) ∧
      r.retained + bytes.length ≤ r.maxMessage := by
  cases hadd : checkedAdd r.retained bytes.length with
  | none =>
    rw [hadd] at h
    exact absurd rfl h
  | some next =>
    obtain rfl := checkedAdd_eq_some hadd
    rw [hadd] at h
    exact ⟨rfl, by simpa using h⟩

theorem store_kept {r : Reassembler} {sequence offset total : UInt32} {bytes : Bytes}
    (h : ¬ (checkedAdd r.retained bytes.length).all (· > r.maxMessage) = true) (channel : ChannelId)
    (hgap : ¬ ∃ covered, coveredBy (r.added sequence offset bytes) 0 = some covered ∧ ¬ covered < total) :
    r.store channel sequence offset total bytes =
      (.ok none, { r with
        retained := r.retained + bytes.length
        pending := r.pending.insert sequence { total, ranges := r.added sequence offset bytes } }) := by
  obtain ⟨hadd, hroom⟩ := store_room h
  unfold Reassembler.store
  rw [hadd]
  dsimp only
  rw [if_neg (by omega)]
  cases hcovered : coveredBy (r.added sequence offset bytes) 0 with
  | none => rfl
  | some covered =>
    have hless : covered < total := by
      by_contra hge
      exact hgap ⟨covered, hcovered, hge⟩
    dsimp only
    rw [if_pos hless]

theorem store_completes {r : Reassembler} {sequence offset total covered : UInt32} {bytes : Bytes}
    (h : ¬ (checkedAdd r.retained bytes.length).all (· > r.maxMessage) = true) (channel : ChannelId)
    (hcovered : coveredBy (r.added sequence offset bytes) 0 = some covered) (hwhole : ¬ covered < total) :
    r.store channel sequence offset total bytes =
      (.ok (some { channel, sequence, payload :=
          (r.added sequence offset bytes).foldl overwrite (List.replicate total.toNat 0) }),
        { r with
          retained := r.retained + bytes.length - rangeBytes (r.added sequence offset bytes)
          pending := r.pending.erase sequence }) := by
  obtain ⟨hadd, hroom⟩ := store_room h
  unfold Reassembler.store
  rw [hadd]
  dsimp only
  rw [if_neg (by omega), hcovered]
  dsimp only
  rw [if_neg hwhole]

/-- A step that the byte maps make too. -/
structure Reassembler.Simulates (r : Reassembler) (c : ReassemblerCall) : Prop where
  sound : (r.step c).Sound
  limit : (r.step c).maxMessage = r.maxMessage
  messages : (r.reply c, (r.step c).messages) = r.messages.step r.maxMessage (c, r.Refuses c)
  untouched : c.OutOfRange r.maxMessage ∨ r.reply c = .error .resourceLimit → r.step c = r

theorem Reassembler.Simulates.of_insert {r r' : Reassembler} {channel : ChannelId}
    {sequence offset total : UInt32} {bytes : Bytes} {result : Except Error (Option LogicalMessage)}
    (hinsert : r.insert channel sequence offset total bytes = (result, r')) (hsound : r'.Sound)
    (hlimit : r'.maxMessage = r.maxMessage)
    (hmessages : r.messages.insert r.maxMessage (r.Refuses (.insert channel sequence offset total bytes))
      channel sequence offset total bytes = (result.mapError (·.code), r'.messages))
    (huntouched : (ReassemblerCall.insert channel sequence offset total bytes).OutOfRange r.maxMessage ∨
      result.mapError (·.code) = .error .resourceLimit → r' = r) :
    r.Simulates (.insert channel sequence offset total bytes) := by
  have hstep : r.step (.insert channel sequence offset total bytes) = r' := congrArg Prod.snd hinsert
  have hreply : r.reply (.insert channel sequence offset total bytes) = result.mapError (·.code) :=
    congrArg (fun p => p.1.mapError (·.code)) hinsert
  refine ⟨by rwa [hstep], by rwa [hstep], ?_, ?_⟩
  · rw [hstep, hreply]
    exact hmessages.symm
  · rw [hstep, hreply]
    exact huntouched

/-- The fragment is in range, but its message is dropped. -/
theorem Reassembler.Sound.forgets {r : Reassembler} (h : r.Sound) {channel : ChannelId}
    {sequence offset total : UInt32} {bytes : Bytes} {error : Error}
    (hinsert : r.insert channel sequence offset total bytes = (.error error, r.resetMessage sequence))
    (hmessages : r.messages.insert r.maxMessage (r.Refuses (.insert channel sequence offset total bytes))
      channel sequence offset total bytes = (.error error.code, r.messages.forget sequence))
    (hrange : ¬ (ReassemblerCall.insert channel sequence offset total bytes).OutOfRange r.maxMessage)
    (hcode : error.code ≠ .resourceLimit) :
    r.Simulates (.insert channel sequence offset total bytes) := by
  obtain ⟨hsound, hlimit, hforget⟩ := h.reset sequence
  refine .of_insert hinsert hsound hlimit ?_ ?_
  · rw [hforget, hmessages]
    rfl
  · rintro (hout | hlimited)
    · exact absurd hout hrange
    · exact absurd (Except.error.inj hlimited) hcode

section

variable {r : Reassembler} {sequence offset total : UInt32} {bytes : Bytes}

/-- The message with the fragment in it, as long as something is missing. -/
theorem Reassembler.Sound.stored (h : r.Sound) (htotal : total ≠ 0)
    (hsame : ∀ pending ∈ r.pending.lookup sequence, pending.total = total)
    (hfits : (fragmentPatch offset bytes).stop ≤ total.toNat)
    (hagree : Agree (known (patches (r.ranges sequence))) (fragmentPatch offset bytes).at)
    (hroom : r.retained + bytes.length ≤ r.maxMessage)
    (hgap : ¬ Covers (known (patches (r.added sequence offset bytes))) total.toNat) :
    Reassembler.Sound { r with
      retained := r.retained + bytes.length
      pending := r.pending.insert sequence { total, ranges := r.added sequence offset bytes } } := by
  have hinsert := KeyedSum.total_insert (fun pending => rangeBytes pending.ranges) r.pending sequence
    { total, ranges := r.added sequence offset bytes }
  rw [rangeBytes_ranges] at hinsert
  dsimp only at hinsert
  rw [rangeBytes_added] at hinsert
  have hretained := h.retained
  unfold Reassembler.storedBytes at hretained
  refine ⟨?_, ?_, hroom⟩
  · intro other pending hother
    by_cases hkey : other = sequence
    · rw [hkey, AList.lookup_insert] at hother
      obtain rfl := Option.some.inj hother
      exact ⟨htotal, inside_added h hsame hfits, (known_added h hagree).1, hgap⟩
    · rw [AList.lookup_insert_ne hkey] at hother
      exact h.entry other pending hother
  · unfold Reassembler.storedBytes
    dsimp only
    omega

theorem messages_insert (pending : Pending) (retained : Nat) :
    Reassembler.messages { r with retained, pending := r.pending.insert sequence pending } =
      Function.update r.messages sequence (some pending.message) := by
  funext other
  unfold Reassembler.messages
  dsimp only
  by_cases hkey : other = sequence
  · rw [hkey, AList.lookup_insert, Function.update_self]
    rfl
  · rw [AList.lookup_insert_ne hkey, Function.update_of_ne hkey]

end

section

variable {r : Reassembler} {sequence offset total : UInt32} {bytes : Bytes}

theorem Reassembler.Fits.inRange (h : r.Fits sequence offset total bytes) (channel : ChannelId) :
    ¬ (ReassemblerCall.insert channel sequence offset total bytes).OutOfRange r.maxMessage := by
  rintro (hbad | hpast)
  · exact h.good hbad
  · exact Nat.not_lt.mpr h.inside hpast

open Classical in
/-- What the byte maps do with such a fragment. -/
theorem Reassembler.Fits.offered (h : r.Fits sequence offset total bytes) (refused : Prop)
    (channel : ChannelId) :
    r.messages.insert r.maxMessage refused channel sequence offset total bytes =
      if ¬ Agree (known (patches (r.ranges sequence))) (fragmentPatch offset bytes).at then
        (.error .fragmentOverlap, r.messages.forget sequence)
      else if refused then (.error .resourceLimit, r.messages)
      else
        let known := overlay (known (patches (r.ranges sequence))) (fragmentPatch offset bytes).at
        if Covers known total.toNat then
          (.ok (some { channel, sequence, payload := assembled total.toNat known 0 }),
            r.messages.forget sequence)
        else (.ok none, Function.update r.messages sequence (some { total, bytes := known })) := by
  have hinside : ¬ offset.toNat + bytes.length > total.toNat := Nat.not_lt.mpr h.inside
  unfold ByteMaps.insert
  rw [if_neg h.good, if_neg hinside, message_of_same h.same]
  dsimp only
  rw [if_neg (not_not.mpr rfl)]

theorem Reassembler.Fits.scanned (h : r.Fits sequence offset total bytes) (hr : r.Sound) :
    Found offset (UInt32.ofNat (offset.toNat + bytes.length)) bytes (r.ranges sequence)
      (scanRanges offset (UInt32.ofNat (offset.toNat + bytes.length)) bytes (r.ranges sequence)) := by
  have htotal := total.toNat_lt
  refine scanRanges_found (fun range hrange => ?_) ?_
  · exact Range.end_toNat (Nat.lt_of_le_of_lt (hr.inside h.same range hrange) htotal)
  · rw [UInt32.toNat_ofNat']
    exact Nat.mod_eq_of_lt (Nat.lt_of_le_of_lt h.inside htotal)

theorem Reassembler.Fits.conflict (h : r.Fits sequence offset total bytes) (hr : r.Sound)
    (channel : ChannelId) (hscan : scanRanges offset (UInt32.ofNat (offset.toNat + bytes.length)) bytes
      (r.ranges sequence) = .conflict) : r.Simulates (.insert channel sequence offset total bytes) := by
  have hfound := h.scanned hr
  have hscanned := h.insert_scanned channel
  rw [hscan] at hfound hscanned
  have hconflict : ¬ Agree (known (patches (r.ranges sequence))) (fragmentPatch offset bytes).at := by
    intro hagree
    obtain ⟨range, hrange, hdiffers⟩ := hfound
    exact hdiffers ((agree_known_iff (hr.consistent sequence) _).mp hagree range.patch
      (mem_patches.mpr ⟨range, hrange, rfl⟩))
  refine hr.forgets hscanned ?_ (h.inRange channel) (by rintro ⟨⟩)
  rw [h.offered, if_pos hconflict]
  rfl

/-- The entry that holds the fragment. -/
theorem found_of_mem {range : Range} (hrange : range ∈ r.ranges sequence)
    (hsame : ∀ pending ∈ r.pending.lookup sequence, pending.total = total) :
    ∃ pending, r.pending.lookup sequence = some pending ∧ r.ranges sequence = pending.ranges ∧
      pending.total = total := by
  unfold Reassembler.ranges at *
  cases hfound : r.pending.lookup sequence with
  | some pending => exact ⟨pending, rfl, rfl, hsame pending hfound⟩
  | none =>
    rw [hfound] at hrange
    cases hrange

/-- What one range holds already adds nothing, and no other range can contradict that one. -/
theorem Reassembler.Fits.contained (h : r.Fits sequence offset total bytes) (hr : r.Sound)
    (channel : ChannelId) (hscan : scanRanges offset (UInt32.ofNat (offset.toNat + bytes.length)) bytes
      (r.ranges sequence) = .contained) : r.Simulates (.insert channel sequence offset total bytes) := by
  have hfound := h.scanned hr
  have hscanned := h.insert_scanned channel
  rw [hscan] at hfound hscanned
  obtain ⟨range, hrange, hholds, hagrees⟩ := hfound
  obtain ⟨pending, hlookup, hranges, htotal⟩ := found_of_mem hrange h.same
  have hend : (UInt32.ofNat (offset.toNat + bytes.length)).toNat = (fragmentPatch offset bytes).stop := by
    rw [UInt32.toNat_ofNat']
    exact Nat.mod_eq_of_lt (Nat.lt_of_le_of_lt h.inside total.toNat_lt)
  have hrangeEnd : range.end.toNat = range.patch.stop :=
    Range.end_toNat (Nat.lt_of_le_of_lt (hr.inside h.same range hrange) total.toNat_lt)
  have hknows : ∀ i b, (fragmentPatch offset bytes).at i = some b →
      known (patches (r.ranges sequence)) i = some b := fun i b hb =>
    known_of_mem (hr.consistent sequence) (mem_patches.mpr ⟨range, hrange, rfl⟩)
      (hholds.knows hrangeEnd hend hagrees hb)
  have hagree : Agree (known (patches (r.ranges sequence))) (fragmentPatch offset bytes).at := by
    intro i a b ha hb
    rw [hknows i b hb] at ha
    exact (Option.some.inj ha).symm
  have haccepted : ¬ r.Refuses (.insert channel sequence offset total bytes) := fun hrefused =>
    hrefused.2 range hrange hholds
  have hgap := (hr.entry sequence pending hlookup).gap
  rw [← hranges, htotal] at hgap
  have hmessage : r.messages sequence = some ⟨total, known (patches (r.ranges sequence))⟩ := by
    unfold Reassembler.messages
    rw [hlookup, hranges, ← htotal]
    rfl
  refine .of_insert hscanned hr rfl ?_ fun _ => rfl
  rw [h.offered, if_neg (not_not.mpr hagree), if_neg haccepted]
  dsimp only
  rw [overlay_eq_left hknows, if_neg hgap, ← hmessage, Function.update_eq_self]
  rfl

theorem Reassembler.Fits.fresh (h : r.Fits sequence offset total bytes) (hr : r.Sound)
    (channel : ChannelId) (hscan : scanRanges offset (UInt32.ofNat (offset.toNat + bytes.length)) bytes
      (r.ranges sequence) = .fresh) : r.Simulates (.insert channel sequence offset total bytes) := by
  have hfound := h.scanned hr
  have hscanned := h.insert_scanned channel
  rw [hscan] at hfound hscanned
  have hagree : Agree (known (patches (r.ranges sequence))) (fragmentPatch offset bytes).at := by
    refine (agree_known_iff (hr.consistent sequence) _).mpr fun p hp => ?_
    obtain ⟨range, hrange, rfl⟩ := mem_patches.mp hp
    exact (hfound range hrange).1
  by_cases hfull : (checkedAdd r.retained bytes.length).all (· > r.maxMessage) = true
  · have hrefused : r.Refuses (.insert channel sequence offset total bytes) :=
      ⟨hfull, fun range hrange => (hfound range hrange).2⟩
    refine .of_insert (hscanned.trans (store_refused hfull channel sequence offset total)) hr rfl ?_
      fun _ => rfl
    rw [h.offered, if_neg (not_not.mpr hagree), if_pos hrefused]
    rfl
  have haccepted : ¬ r.Refuses (.insert channel sequence offset total bytes) := fun hrefused =>
    hfull hrefused.1
  have hkept : ∀ {r' : Reassembler} {message : Option LogicalMessage},
      (ReassemblerCall.insert channel sequence offset total bytes).OutOfRange r.maxMessage ∨
        (Except.ok message : Except Error (Option LogicalMessage)).mapError (·.code) =
          .error .resourceLimit → r' = r := by
    rintro r' message (hout | hlimited)
    · exact absurd hout (h.inRange channel)
    · cases hlimited
  have hroom := (store_room hfull).2
  have hknown := (known_added hr hagree).2
  have hcovers := coveredBy_added hr h.same h.inside
  by_cases hwhole : Covers (known (patches (r.added sequence offset bytes))) total.toNat
  · obtain ⟨covered, hcovered, hge⟩ := hcovers.mpr hwhole
    have hsize := @rangeBytes_added r sequence offset bytes
    have hstored := hr.ranges_le sequence
    have herased : r.retained + bytes.length - rangeBytes (r.added sequence offset bytes) +
        rangeBytes (r.ranges sequence) = r.retained := by omega
    refine .of_insert (hscanned.trans (store_completes hfull channel hcovered hge)) (hr.erased herased)
      rfl ?_ hkept
    rw [h.offered, if_neg (not_not.mpr hagree), if_neg haccepted]
    dsimp only
    rw [← hknown, if_pos hwhole, messages_erase, payload_added hr h.same h.inside hagree, hknown]
    rfl
  · have hgap : ¬ ∃ covered, coveredBy (r.added sequence offset bytes) 0 = some covered ∧
        ¬ covered < total := fun hcovered => hwhole (hcovers.mp hcovered)
    have htotal : total ≠ 0 := fun hzero => h.good (.inl hzero)
    refine .of_insert (hscanned.trans (store_kept hfull channel hgap))
      (hr.stored htotal h.same h.inside hagree hroom hwhole) rfl ?_ hkept
    rw [h.offered, if_neg (not_not.mpr hagree), if_neg haccepted]
    dsimp only
    rw [← hknown, if_neg hwhole, messages_insert]
    rfl

end

/-- One fragment. -/
theorem Reassembler.Sound.insert {r : Reassembler} (h : r.Sound) (channel : ChannelId)
    (sequence offset total : UInt32) (bytes : Bytes) :
    r.Simulates (.insert channel sequence offset total bytes) := by
  by_cases hbad : total = 0 ∨ total.toNat > r.maxMessage
  · have hinsert : r.insert channel sequence offset total bytes =
        (.error (channelError .resourceLimit channel "message total exceeds limit"), r) := by
      unfold Reassembler.insert
      rw [if_pos hbad]
    refine .of_insert hinsert h rfl ?_ fun _ => rfl
    unfold ByteMaps.insert
    rw [if_pos hbad]
    rfl
  by_cases hpast : offset.toNat + bytes.length > total.toNat
  · refine .of_insert (insert_past hbad hpast) h rfl ?_ fun _ => rfl
    unfold ByteMaps.insert
    rw [if_neg hbad, if_pos hpast]
    rfl
  by_cases hsame : ∀ pending ∈ r.pending.lookup sequence, pending.total = total
  · have hfits : r.Fits sequence offset total bytes := ⟨hbad, Nat.le_of_not_lt hpast, hsame⟩
    cases hscan : scanRanges offset (UInt32.ofNat (offset.toNat + bytes.length)) bytes
        (r.ranges sequence) with
    | conflict => exact hfits.conflict h channel hscan
    | contained => exact hfits.contained h channel hscan
    | fresh => exact hfits.fresh h channel hscan
  · push Not at hsame
    obtain ⟨pending, hfound, hchanged⟩ := hsame
    have hinsert := @insert_changed r channel sequence offset total bytes pending hbad
      (Nat.le_of_not_lt hpast) hfound (h.entry sequence pending hfound).total hchanged
    have hmessage : (r.messages sequence).getD { total, bytes := fun _ => none } = pending.message := by
      unfold Reassembler.messages
      rw [hfound]
      rfl
    refine h.forgets hinsert ?_ (by rintro (hout | hout) <;> contradiction) (by rintro ⟨⟩)
    unfold ByteMaps.insert
    rw [if_neg hbad, if_neg hpast, hmessage]
    dsimp only
    rw [if_pos (show pending.message.total ≠ total from hchanged)]
    rfl

/-- One call. -/
theorem Reassembler.Sound.simulates {r : Reassembler} (h : r.Sound) (c : ReassemblerCall) :
    r.Simulates c := by
  cases c with
  | insert channel sequence offset total bytes => exact h.insert channel sequence offset total bytes
  | resetMessage sequence =>
    obtain ⟨hsound, hlimit, hforget⟩ := h.reset sequence
    refine ⟨hsound, hlimit, ?_, ?_⟩
    · change (_, (r.resetMessage sequence).messages) = _
      rw [hforget]
      rfl
    · rintro (⟨⟨⟩⟩ | ⟨⟨⟩⟩)

/-- A reassembler behaves as its byte maps do, and counts the bytes that it has stored. -/
structure Reassembler.Refines (maxMessage : Nat) (calls : List ReassemblerCall) : Prop where
  replies : Reassembler.replies { maxMessage } calls =
    ByteMaps.replies maxMessage (fun _ => none) (Reassembler.judged { maxMessage } calls)
  messages : (run Reassembler.step { maxMessage } calls).messages =
    run (fun m c => (ByteMaps.step maxMessage m c).2) (fun _ => none)
      (Reassembler.judged { maxMessage } calls)
  untouched : ∀ before c after, calls = before ++ c :: after →
    (c.OutOfRange maxMessage ∨
      (run Reassembler.step { maxMessage } before).reply c = .error .resourceLimit) →
    run Reassembler.step { maxMessage } (before ++ [c]) = run Reassembler.step { maxMessage } before
  retained : (run Reassembler.step { maxMessage } calls).retained =
    (run Reassembler.step { maxMessage } calls).storedBytes
  bounded : (run Reassembler.step { maxMessage } calls).retained ≤ maxMessage

theorem Reassembler.Sound.replies_eq {r : Reassembler} (h : r.Sound) (calls : List ReassemblerCall) :
    r.replies calls = ByteMaps.replies r.maxMessage r.messages (r.judged calls) ∧
      (run Reassembler.step r calls).messages =
        run (fun m c => (ByteMaps.step r.maxMessage m c).2) r.messages (r.judged calls) := by
  induction calls generalizing r with
  | nil => exact ⟨rfl, rfl⟩
  | cons c calls ih =>
    have hstep := h.simulates c
    obtain ⟨hreplies, hmessages⟩ := ih hstep.sound
    have hreply := congrArg Prod.fst hstep.messages
    have hnext := congrArg Prod.snd hstep.messages
    dsimp only at hreply hnext
    rw [hstep.limit, hnext] at hreplies hmessages
    constructor
    · unfold Reassembler.replies Reassembler.judged ByteMaps.replies
      rw [hreply, hreplies]
    · exact hmessages

theorem fresh_sound (maxMessage : Nat) : Reassembler.Sound { maxMessage } :=
  ⟨fun _ _ h => (by cases h), rfl, Nat.zero_le _⟩

/-- The reassembler refines a byte map for every message under way. -/
theorem reassembler_refines (maxMessage : Nat) (calls : List ReassemblerCall) :
    Reassembler.Refines maxMessage calls := by
  have hfresh := fresh_sound maxMessage
  have hsound : ∀ calls, (run Reassembler.step { maxMessage } calls).Sound ∧
      (run Reassembler.step { maxMessage } calls).maxMessage = maxMessage := by
    intro calls
    refine @run_induction _ _ _ (fun r : Reassembler => r.Sound ∧ r.maxMessage = maxMessage) ?_ _ calls
      ⟨hfresh, rfl⟩
    rintro r c ⟨hr, hlimit⟩
    have hstep := hr.simulates c
    exact ⟨hstep.sound, hstep.limit.trans hlimit⟩
  obtain ⟨hreplies, hmessages⟩ := hfresh.replies_eq calls
  have hbounded := (hsound calls).1.bounded
  rw [(hsound calls).2] at hbounded
  refine ⟨hreplies, hmessages, ?_, (hsound calls).1.retained, hbounded⟩
  rintro before c after rfl hrefused
  obtain ⟨hbefore, hlimit⟩ := hsound before
  have huntouched := (hbefore.simulates c).untouched
  rw [hlimit] at huntouched
  rw [run_append]
  exact huntouched hrefused

end LatticeGateway
