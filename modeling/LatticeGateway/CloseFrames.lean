import LatticeGateway.ChannelLives
import LatticeGateway.EmissionTrace

namespace LatticeGateway

open Runs JoinReplicas ConnectionEngine

/-- What a frame tells its receiver of the channel at index `k`. -/
inductive Notice
  | opened (k : Nat)
  | closed (k : Nat) (life : Life)

def Notice.life (k : Nat) : Notice → Life
  | .opened j => if j = k then .closed (false, false) else ⊥
  | .closed j life => if j = k then life else ⊥

/-- The HALF_CLOSE frame for a direction as its sender names it. -/
def halfCloseFrame (frameSeq : UInt32) (k : Nat) (direction : Direction) : Frame :=
  { type := .halfClose, channel := firstId k, frameSeq
    payload := [match direction with | .localSend => 0 | .remoteSend => 1] }

def resetFrame (frameSeq : UInt32) (k : Nat) : Frame := { type := .reset, channel := firstId k, frameSeq }

/-- The chunk is a frame that brings its receiver this notice. -/
inductive Tells (caps : CapabilitySet) (mirrored : Bool) : Notice → Bytes → Prop
  | opened (k : Nat) (frameSeq : UInt32) {request : OpenRequest} :
      Serves caps.plugins request.familyId →
      Tells caps mirrored (.opened k) (plainBytes (openFrame frameSeq k request))
  | halfClosed (k : Nat) (frameSeq : UInt32) (direction : Direction) :
      Tells caps mirrored (.closed k (.closed (seen mirrored direction.opposite.closes)))
        (plainBytes (halfCloseFrame frameSeq k direction))
  | reset (k : Nat) (frameSeq : UInt32) :
      Tells caps mirrored (.closed k ⊤) (plainBytes (resetFrame frameSeq k))

/-- The notices open the channels of `announced` that are not yet in `known`, and close none of them before;
what else they close is below `next`. -/
def Orderly (announced : Set Nat) (next : Nat) : Set Nat → List Notice → Prop
  | known, [] => known = announced
  | known, .opened k :: rest => k ∉ known ∧ Orderly announced next (insert k known) rest
  | known, .closed k _ :: rest =>
    (k ∈ announced → k ∈ known) ∧ k < next ∧ Orderly announced next known rest

section

variable {announced known : Set Nat} {next : Nat} {notices : List Notice}

theorem Orderly.subset (h : Orderly announced next known notices) : known ⊆ announced := by
  induction notices generalizing known with
  | nil => exact subset_of_eq h
  | cons notice rest ih =>
    cases notice with
    | opened k => exact (Set.subset_insert k known).trans (ih h.2)
    | closed k life => exact ih h.2.2

theorem Orderly.concat_closed (h : Orderly announced next known notices) {k : Nat} (hk : k < next)
    (life : Life) : Orderly announced next known (notices ++ [.closed k life]) := by
  induction notices generalizing known with
  | nil =>
    obtain rfl : known = announced := h
    exact ⟨fun hmem => hmem, hk, rfl⟩
  | cons notice rest ih =>
    cases notice with
    | opened j => exact ⟨h.1, ih h.2⟩
    | closed j other => exact ⟨h.1, h.2.1, ih h.2.2⟩

theorem Orderly.mono (h : Orderly announced next known notices) : Orderly announced (next + 1) known notices := by
  induction notices generalizing known with
  | nil => exact h
  | cons notice rest ih =>
    cases notice with
    | opened j => exact ⟨h.1, ih h.2⟩
    | closed j life => exact ⟨h.1, Nat.lt_succ_of_lt h.2.1, ih h.2.2⟩

/-- One more channel is announced, to an end that does not know of it. -/
theorem Orderly.concat_opened (h : Orderly announced next known notices) (hnext : next ∉ announced) :
    Orderly (insert next announced) (next + 1) known (notices ++ [.opened next]) := by
  induction notices generalizing known with
  | nil =>
    obtain rfl : known = announced := h
    exact ⟨hnext, rfl⟩
  | cons notice rest ih =>
    cases notice with
    | opened j => exact ⟨h.1, ih h.2⟩
    | closed j life =>
      obtain ⟨hknown, hj, hrest⟩ := h
      exact ⟨fun hmem => hknown (hmem.resolve_left (Nat.ne_of_lt hj)), Nat.lt_succ_of_lt hj, ih hrest⟩

/-- An end that knows all that is announced gets to know its own new channel. -/
theorem Orderly.insert (h : Orderly announced next announced notices) :
    Orderly (insert next announced) (next + 1) (insert next announced) notices := by
  induction notices with
  | nil => exact rfl
  | cons notice rest ih =>
    cases notice with
    | opened j => exact absurd (h.2.subset (Set.mem_insert j announced)) h.1
    | closed j life => exact ⟨fun hmem => hmem, Nat.lt_succ_of_lt h.2.1, ih h.2.2⟩

end

/-- What has been learnt of a channel is what the notice says of it. -/
theorem ChannelTable.Learns.life {t t' : ChannelTable} {mirrored : Bool} {opened : Set Nat} {k : Nat}
    {news : Life} (h : t.Learns t' mirrored opened k news) {j : Nat} (hj : j = k → k ∈ opened) :
    t'.life mirrored j = t.life mirrored j ⊔ Notice.life j (.closed k news) := by
  unfold Notice.life
  dsimp only
  by_cases hsame : j = k
  · subst hsame
    rw [if_pos rfl]
    exact h.here (hj rfl)
  · rw [if_neg (Ne.symm hsame), sup_bot_eq]
    exact h.others j hsame

namespace ConnectionEngine

theorem halfCloseFrame_small (frameSeq : UInt32) {k : Nat} (hk : k + 1 < 2 ^ 16) (direction : Direction) :
    (halfCloseFrame frameSeq k direction).Small := by
  have hnumber := firstId_number hk
  refine ⟨rfl, UInt32.le_iff_toNat_le.mpr ?_, rfl, show 1 ≤ 8 by omega⟩
  change (firstId k).number.toNat ≤ 0x00FFFFFF
  omega

theorem resetFrame_small (frameSeq : UInt32) {k : Nat} (hk : k + 1 < 2 ^ 16) :
    (resetFrame frameSeq k).Small := by
  have hnumber := firstId_number hk
  refine ⟨rfl, UInt32.le_iff_toNat_le.mpr ?_, rfl, Nat.zero_le 8⟩
  change (firstId k).number.toNat ≤ 0x00FFFFFF
  omega

/-- A call changes the table, records it, and its frame goes out. -/
theorem Ready.announces {e : ConnectionEngine} {caps : CapabilitySet} (h : Ready e caps) (t : ChannelTable)
    (kind : EventKind) (id : ChannelId) {frame : Frame} (hsmall : frame.Small) (htype : frame.type ≠ .data)
    (hseq : frame.frameSeq = e.nextFrameSeq) (hnext : e.replay.contains e.nextFrameSeq = false) :
    ∃ e', (({ e with channels := some t, nextFrameSeq := e.nextFrameSeq + 1 }.record kind id).emit frame) =
      (.ok [plainBytes frame], e') ∧ Ready e' caps ∧ e'.channels = some t := by
  have hready : Ready ({ e with channels := some t, nextFrameSeq := e.nextFrameSeq + 1 }.record kind id)
      caps := h.of_same rfl rfl rfl rfl rfl rfl
  have haccepts : ReplayWindow.Accepts
      ({ e with channels := some t, nextFrameSeq := e.nextFrameSeq + 1 }.record kind id).replay
        frame.frameSeq := ⟨h.epoch, by rw [hseq]; exact hnext⟩
  have hsent := hready.toIdle.emit_control (hsmall.encode hready.maxFrame) haccepts
    (Nat.le_trans hsmall.length hready.window) htype
  exact ⟨_, hsent, hready.of_same rfl rfl rfl rfl rfl rfl, rfl⟩

/-- A call changes nothing, or closes something of an opened channel and tells the other end. -/
def Closes (e : ConnectionEngine) (caps : CapabilitySet) (mirrored : Bool) (slots : Nat)
    (opened : Set Nat) (result : Except Error (List Bytes) × ConnectionEngine) : Prop :=
  (∃ error, result = (.error error, e)) ∨
  ∃ k ∈ opened, ∃ life chunk e' t t', result = (.ok [chunk], e') ∧
    (∀ caps', Tells caps' (!mirrored) (.closed k life) chunk) ∧ Ready e' caps ∧
    e.channels = some t ∧ e'.channels = some t' ∧ t'.Shared slots opened ∧
    t.Learns t' mirrored opened k life

section

variable {e : ConnectionEngine} {caps : CapabilitySet} {t : ChannelTable} {slots : Nat} {opened : Set Nat}

theorem Ready.halfClose_closes (h : Ready e caps) (ht : e.channels = some t)
    (hshared : t.Shared slots opened) (mirrored : Bool) {id : ChannelId} {direction : Direction}
    (hnumber : ∀ p ∈ e.halfCloseEmissions id direction, e.replay.contains p.2.frameSeq = false) :
    e.Closes caps mirrored slots opened (e.halfClose id direction) := by
  unfold halfCloseEmissions at hnumber
  unfold ConnectionEngine.halfClose
  rw [ht] at hnumber ⊢
  dsimp only at hnumber ⊢
  rcases ChannelTable.halfClose_sound hshared.sound id direction with
    ⟨error, _, herror, _⟩ | ⟨slot, hfind, hok⟩
  · rw [herror]
    refine .inl ⟨error, ?_⟩
    dsimp only
    rw [← ht]
  · obtain ⟨k, hk, hlt, rfl, _, _⟩ := hshared.found hfind
    obtain ⟨result, t', hclosed, hshared', hlearns, _⟩ := hshared.halfClose hlt direction mirrored
    have hlength := hshared.length
    have hsmall := hshared.used.small
    rw [hclosed] at hok
    obtain ⟨rfl, _⟩ := Prod.mk.inj hok
    rw [hclosed] at hnumber ⊢
    dsimp only at hnumber ⊢
    obtain ⟨e', hsent, hready, hchannels⟩ := h.announces t' .halfClosed (firstId k)
      (@halfCloseFrame_small e.nextFrameSeq k (by omega) direction) (by rintro ⟨⟩) rfl
      (hnumber _ (List.mem_singleton.mpr rfl))
    refine .inr ⟨k, hk, _, _, e', t, t', hsent, fun caps' => ?_, hready, ht, hchannels, hshared', hlearns⟩
    have htells : Tells caps' (!mirrored) _ _ := .halfClosed k e.nextFrameSeq direction
    rwa [seen_opposite, Bool.not_not] at htells

theorem Ready.reset_closes (h : Ready e caps) (ht : e.channels = some t)
    (hshared : t.Shared slots opened) (mirrored : Bool) {id : ChannelId}
    (hnumber : ∀ p ∈ e.resetEmissions id, e.replay.contains p.2.frameSeq = false) :
    e.Closes caps mirrored slots opened (e.reset id) := by
  unfold resetEmissions at hnumber
  unfold ConnectionEngine.reset
  rw [ht] at hnumber ⊢
  dsimp only at hnumber ⊢
  rcases t.reset_cases id with ⟨error, herror, _⟩ | ⟨slot, hfind, hok⟩
  · rw [herror]
    refine .inl ⟨error, ?_⟩
    dsimp only
    rw [← ht]
  · obtain ⟨k, hk, hlt, rfl, _, _⟩ := hshared.found hfind
    obtain ⟨result, t', hreset, hshared', hlearns, _⟩ := hshared.reset hlt mirrored
    have hlength := hshared.length
    have hsmall := hshared.used.small
    rw [hreset] at hok
    obtain ⟨rfl, _⟩ := Prod.mk.inj hok
    rw [hreset] at hnumber ⊢
    dsimp only at hnumber ⊢
    obtain ⟨e', hsent, hready, hchannels⟩ := h.announces t' .channelReset (firstId k)
      (@resetFrame_small e.nextFrameSeq k (by omega)) (by rintro ⟨⟩) rfl
      (hnumber _ (List.mem_singleton.mpr rfl))
    exact .inr ⟨k, hk, ⊤, _, e', t, t', hsent, fun _ => .reset k e.nextFrameSeq, hready, ht, hchannels,
      hshared', hlearns⟩

/-- A frame that closes something is taken in, whatever the state of its channel, and answered by none. -/
theorem Ready.hears (h : Ready e caps) (ht : e.channels = some t) (hshared : t.Shared slots opened)
    {mirrored : Bool} {k : Nat} (hlt : k < slots) {life : Life} {chunk : Bytes}
    (htells : Tells caps mirrored (.closed k life) chunk) : ∃ result e' t',
      e.receive chunk false = (result, e') ∧ (∀ out, result = .ok out → out = []) ∧ Ready e' caps ∧
      e'.channels = some t' ∧ t'.Shared slots opened ∧ t.Learns t' mirrored opened k life := by
  have hlength := hshared.length
  have hsmall := hshared.used.small
  cases htells with
  | halfClosed _ frameSeq direction =>
    obtain ⟨result, t', hclosed, hshared', hlearns, herror⟩ :=
      hshared.halfClose hlt direction.opposite mirrored
    rw [h.receives (halfCloseFrame_small frameSeq (by omega) direction)]
    have hbyte : (if byteAt (halfCloseFrame frameSeq k direction).payload 0 = 0 then Direction.remoteSend
        else .localSend) = direction.opposite := by cases direction <;> rfl
    have hchannel : (halfCloseFrame frameSeq k direction).channel = firstId k := rfl
    have hlone : ¬ (halfCloseFrame frameSeq k direction).payload.length ≠ 1 := not_not.mpr rfl
    cases result with
    | error error =>
      obtain ⟨haction, rfl⟩ := herror error rfl
      have hhandled : e.handleFrame (halfCloseFrame frameSeq k direction) =
          (.error error, { e with channels := some t' }) := by
        change e.handleHalfClose _ = _
        unfold handleHalfClose
        rw [ht]
        dsimp only
        rw [if_neg hlone, hbyte, hchannel, hclosed]
      have hrefused := handleEvent_refused hhandled (by rw [haction]; rintro ⟨⟩)
      exact ⟨_, _, t', hrefused, by rintro _ ⟨⟩, h.of_same rfl rfl rfl rfl rfl rfl, rfl, hshared', hlearns⟩
    | ok _ =>
      have hhandled : e.handleFrame (halfCloseFrame frameSeq k direction) =
          (.ok [], { e with channels := some t' }.record .halfClosed (firstId k)) := by
        change e.handleHalfClose _ = _
        unfold handleHalfClose
        rw [ht]
        dsimp only
        rw [if_neg hlone, hbyte, hchannel, hclosed]
      exact ⟨_, _, t', handleEvent_ok hhandled, by rintro _ ⟨⟩; rfl, h.of_same rfl rfl rfl rfl rfl rfl,
        rfl, hshared', hlearns⟩
  | reset _ frameSeq =>
    obtain ⟨result, t', hreset, hshared', hlearns, _⟩ := hshared.reset hlt mirrored
    rw [h.receives (resetFrame_small frameSeq (by omega))]
    have hhandled : e.handleFrame (resetFrame frameSeq k) =
        (.ok [], { e with channels := some t' }.record .channelReset (firstId k)) := by
      change e.handleReset (resetFrame frameSeq k) = _
      unfold handleReset
      rw [ht]
      simp only [Option.map_some, show (resetFrame frameSeq k).channel = firstId k from rfl, hreset]
    exact ⟨_, _, t', handleEvent_ok hhandled, by rintro _ ⟨⟩; rfl, h.of_same rfl rfl rfl rfl rfl rfl,
      rfl, hshared', hlearns⟩

end

end ConnectionEngine

end LatticeGateway
