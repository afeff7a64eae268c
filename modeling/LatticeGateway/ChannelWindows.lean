import LatticeGateway.CreditBudget
import LatticeGateway.EmitErrors
import LatticeGateway.FragmentInverse
import LatticeGateway.FrameIsolation
import LatticeGateway.Negotiation

namespace LatticeGateway

open Runs

/-- The table that the end of the HELLO exchange makes. -/
def negotiatedTable (caps : CapabilitySet) : ChannelTable :=
  .make caps.maxChannels (caps.connectionWindow / caps.maxChannels.toNat) caps.maxMessage

def insufficientCredit : Error := makeError .channel .wouldBlock .none "insufficient credit"

/-- A reservation is refused for nothing but missing credit. -/
theorem FlowAccount.reserve_one {window : Nat} (h : 1 ≤ window) :
    ((FlowAccount.ofWindow window).reserve 1).1 = .ok () := by
  have hcredit : ¬ 1 > (FlowAccount.ofWindow window).available := by
    dsimp only [FlowAccount.ofWindow, FlowAccount.available]
    omega
  unfold FlowAccount.reserve
  rw [if_neg (by decide), if_neg hcredit]

namespace ConnectionEngine

/-- A channel that is opened, by this side or by the peer, in a step from `e` to `e'`. -/
inductive OpensChannel (e : ConnectionEngine) : ChannelId → ConnectionEngine → Prop
  | byUs (request : OpenRequest) {id : ChannelId} {out : List Bytes} {e' : ConnectionEngine} :
      e.openChannel request = (.ok (id, out), e') → OpensChannel e id e'
  | byPeer (frame : Frame) {out : List Bytes} {e' : ConnectionEngine} :
      e.handleOpen frame = (.ok out, e') → OpensChannel e frame.channel e'

/-- A freshly opened channel has its whole window to spend. -/
theorem OpensChannel.fresh {e e' : ConnectionEngine} {id : ChannelId} (h : OpensChannel e id e') {t : ChannelTable}
    (ht : e.channels = some t) (hnumbered : t.Numbered) :
    ∃ t' slot, e'.channels = some t' ∧ t'.find id = some slot ∧
      slot.flow = .ofWindow t.channelWindow := by
  cases h with
  | byUs request h =>
    by_cases hopens : ∃ caps t i slot, e.Openable request caps t i slot
    · obtain ⟨caps, t', i, slot, hopenable⟩ := hopens
      obtain rfl := Option.some.inj (hopenable.channels.symm.trans ht)
      have hemit := emitFrame_sent (e.taking t' i slot) .open
        ⟨slot.id.number, slot.id.generation + 1⟩
        (u32Bytes request.familyId ++ u32Bytes (UInt32.ofNat request.initialWindow)) []
      have hopened : (t'.setAt i (t'.opened ⟨slot.id.number, slot.id.generation + 1⟩ .open)).Numbered :=
        hnumbered.setAt (hnumbered i slot hopenable.next.found)
      have hslot := ChannelTable.setAt_slot hopenable.next.found
        (t'.opened ⟨slot.id.number, slot.id.generation + 1⟩ .open)
      rw [hopenable.open hnumbered] at h
      split at h
      next => cases h
      next hsent =>
        rw [hsent] at hemit
        cases h
        have hfound := hopened.slot? hslot
        exact ⟨_, _, hemit.channels, ChannelTable.find_eq_some.mpr ⟨hfound, rfl, rfl⟩, rfl⟩
    · obtain ⟨error, herror⟩ := open_refused fun caps t i slot hopenable =>
        hopens ⟨caps, t, i, slot, hopenable⟩
      rw [herror] at h
      cases h
  | byPeer frame h =>
    unfold handleOpen at h
    rw [ht] at h
    dsimp only at h
    split at h
    next t' caps ht' _ =>
      cases ht'
      split at h
      next => cases h
      next =>
        split at h
        next => cases h
        next =>
          split at h
          next => cases h
          next =>
            rcases t.acceptRemote_cases frame.channel with ⟨error, herror⟩ | ⟨slot, hslot, _, _, haccept⟩
            · rw [herror] at h
              cases h
            · rw [haccept] at h
              cases h
              exact ⟨_, _, rfl, ChannelTable.find_eq_some.mpr
                ⟨ChannelTable.slot?_setSlot hslot _, rfl, rfl⟩, rfl⟩
    next => cases h

theorem sendLoop_refusal {id : ChannelId} {sequence : UInt32} {total : Nat}
    {rounds : List (Nat × Bytes)} {e : ConnectionEngine} {out : List Bytes} {error : Error}
    (h : (sendLoop id sequence total rounds e out).1 = .error error) : EmitRefusal error := by
  induction rounds generalizing e out with
  | nil => cases h
  | cons round rounds ih =>
    unfold sendLoop at h
    split at h
    next herror =>
      cases h
      exact emit_refusal herror
    next => exact ih h

/-- Where the channel has credit for it, a `send` does not fail for lack of it. -/
theorem send_credited {e : ConnectionEngine} {t : ChannelTable} {id : ChannelId} {slot : ChannelSlot}
    {payload : Bytes} (ht : e.channels = some t) (hfind : t.find id = some slot)
    (hreserve : (slot.flow.reserve payload.length).1 = .ok ()) :
    (e.send id payload).1 ≠ .error insufficientCredit := by
  intro h
  unfold send at h
  rw [ht] at h
  cases hcaps : e.capabilities with
  | none =>
    rw [hcaps] at h
    cases h
  | some capabilities =>
    rw [hcaps] at h
    dsimp only at h
    rw [hfind] at h
    split at h
    next => cases h
    next =>
      dsimp only at h
      split at h
      next => cases h
      next =>
        split at h
        next => cases h
        next =>
          split at h
          next hrefused =>
            rw [hrefused] at hreserve
            cases hreserve
          next =>
            split at h
            next herror =>
              unfold ChannelTable.reserveSendSequence at herror
              repeat' split at herror
              all_goals
                cases herror
                try cases h
            next => exact absurd ((sendLoop_refusal h).2 rfl) (by decide)

/-- On a run from the negotiation on, the channels keep the window that they were made with. -/
theorem visited_window (e₀ : ConnectionEngine) (caps : CapabilitySet) (calls : List Call) :
    ∀ e ∈ e₀.negotiated caps :: (e₀.negotiated caps).visited calls,
      ∃ t, e.channels = some t ∧ t.Numbered ∧ t.channelWindow = (negotiatedTable caps).channelWindow := by
  have hmade : Tabled (e₀.negotiated caps) := by
    refine ⟨?_, fun t ht => ?_⟩
    · rintro (hstate | hstate) <;> cases hstate
    · cases ht
      exact .make _ _ _
  have hstep : ∀ e e' : ConnectionEngine,
      (Tabled e ∧ e.window = some (negotiatedTable caps).channelWindow) → Step e e' →
        (Tabled e' ∧ e'.window = some (negotiatedTable caps).channelWindow) := by
    rintro e e' ⟨hi, hwindow⟩ h
    refine ⟨hi.step h, ?_⟩
    rcases h.window hi.early with hnone | hsame
    · rw [hwindow] at hnone
      cases hnone
    · exact hsame.trans hwindow
  obtain ⟨hall, _⟩ := isChain_invariant hstep ⟨hmade, rfl⟩ (visited_steps (e₀.negotiated caps) calls).1
  intro e he
  obtain ⟨htabled, hwindow⟩ := hall e he
  obtain ⟨t, ht, hsame⟩ := Option.map_eq_some_iff.mp hwindow
  exact ⟨t, ht, (htabled.table t ht).numbered, hsame⟩

end ConnectionEngine

/-- What the agreed limits give the channels: the table that is made of them has a byte of window or more
for each and no more than the connection's window for all, and on every run from there on a channel that
is opened has the credit for one byte. -/
structure ChannelsUsable (caps : CapabilitySet) : Prop where
  window : ∀ slot ∈ (negotiatedTable caps).slots, 1 ≤ slot.flow.window
  total : ((negotiatedTable caps).slots.map (·.flow.window)).sum ≤ caps.connectionWindow
  send : ∀ (e₀ : ConnectionEngine) (calls : List Call),
    ∀ e ∈ e₀.negotiated caps :: (e₀.negotiated caps).visited calls,
      ∀ (id : ChannelId) (e' : ConnectionEngine) (byte : UInt8), e.OpensChannel id e' →
        (e'.send id [byte]).1 ≠ .error insufficientCredit

theorem negotiatedTable_windows (caps : CapabilitySet) : (negotiatedTable caps).slots.map (·.flow.window) =
    List.replicate caps.maxChannels.toNat (caps.connectionWindow / caps.maxChannels.toNat) := by
  unfold negotiatedTable ChannelTable.make
  rw [List.map_map]
  exact List.eq_replicate_iff.mpr ⟨by simp, by simp [FlowAccount.ofWindow]⟩

theorem negotiate_channels {ours peer : HelloMessage} {caps : CapabilitySet}
    (h : negotiate ours peer = .ok caps) : 0 < caps.maxChannels.toNat := by
  have hagreed := negotiate_ok h
  unfold negotiate at h
  split at h
  next => cases h
  next =>
    dsimp only at h
    split at h
    next => cases h
    next hlimits =>
      rw [hagreed.maxChannels]
      refine Nat.pos_of_ne_zero fun hzero => hlimits (.inr (.inr (.inr ?_)))
      exact UInt16.toNat_inj.mp hzero

/-- The agreed limits leave every channel usable exactly if there are no more channels than bytes in the
window that they share. -/
theorem channels_usable_iff (ours peer : HelloMessage) (caps : CapabilitySet)
    (h : negotiate ours peer = .ok caps) :
    ChannelsUsable caps ↔ (min ours.limits.maxChannels peer.limits.maxChannels).toNat ≤
      min ours.limits.connectionWindow peer.limits.connectionWindow := by
  have hagreed := negotiate_ok h
  have hwindows := negotiatedTable_windows caps
  have hsome := negotiate_channels h
  rw [← hagreed.maxChannels, ← hagreed.connectionWindow]
  constructor
  · intro husable
    by_contra hmany
    have hzero : caps.connectionWindow / caps.maxChannels.toNat = 0 := Nat.div_eq_of_lt (by omega)
    have hmem : 0 ∈ (negotiatedTable caps).slots.map (·.flow.window) := by
      rw [hwindows, hzero]
      exact List.mem_replicate.mpr ⟨by omega, rfl⟩
    obtain ⟨slot, hslot, hwindow⟩ := List.mem_map.mp hmem
    have hpos := husable.window slot hslot
    omega
  · intro hfew
    have hpos : ∀ n ∈ (negotiatedTable caps).slots.map (·.flow.window), 1 ≤ n := by
      rw [hwindows]
      intro n hn
      obtain ⟨_, rfl⟩ := List.mem_replicate.mp hn
      exact Nat.div_pos hfew hsome
    refine ⟨fun slot hslot => hpos _ (List.mem_map_of_mem hslot), ?_, ?_⟩
    · rw [hwindows, List.sum_replicate_nat]
      exact Nat.mul_div_le _ _
    · intro e₀ calls e he id e' byte hopens
      obtain ⟨t, ht, hnumbered, hsame⟩ := e₀.visited_window caps calls e he
      obtain ⟨t', slot, ht', hfind, hflow⟩ := hopens.fresh ht hnumbered
      refine ConnectionEngine.send_credited ht' hfind ?_
      rw [hflow, hsame]
      exact FlowAccount.reserve_one (Nat.div_pos hfew hsome)

theorem channels_usable_wide : ∃ caps,
    negotiate (limitedHello 512 400) (limitedHello 512 400) = .ok caps ∧ ChannelsUsable caps := by
  obtain ⟨caps, hagreed, _⟩ := @negotiate_limited 512 400 (by decide) (by decide)
  exact ⟨caps, hagreed, (channels_usable_iff _ _ caps hagreed).mpr (by decide)⟩

/-- With a window of 128 bytes for the default number of channels, no channel gets any of it. -/
theorem channels_unusable_narrow : ¬ ∀ (ours peer : HelloMessage) (caps : CapabilitySet),
    negotiate ours peer = .ok caps → ChannelsUsable caps := by
  intro h
  obtain ⟨caps, hcaps, _⟩ := @negotiate_limited 128 400 (by decide) (by decide)
  have hagreed := negotiate_ok hcaps
  have hwindows := negotiatedTable_windows caps
  rw [hagreed.maxChannels, hagreed.connectionWindow] at hwindows
  have hmem : 0 ∈ (negotiatedTable caps).slots.map (·.flow.window) := by
    rw [hwindows]
    decide
  obtain ⟨slot, hslot, hwindow⟩ := List.mem_map.mp hmem
  have hpos := (h _ _ caps hcaps).window slot hslot
  omega

end LatticeGateway
