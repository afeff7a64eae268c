import LatticeGateway.CreditBudget
import LatticeGateway.FrameIsolation
import LatticeGateway.FrameLimit

namespace LatticeGateway

open Runs

namespace ConnectionEngine

/-- The table, the replay window and the scheduler are as they were. -/
structure Traceless (e e' : ConnectionEngine) : Prop where
  channels : e'.channels = e.channels
  replay : e'.replay = e.replay
  scheduler : e'.scheduler = e.scheduler

theorem Traceless.refl (e : ConnectionEngine) : Traceless e e := ⟨rfl, rfl, rfl⟩

/-- If `send` fails, it has left no trace. -/
def SendTraceless (e : ConnectionEngine) (id : ChannelId) (payload : Bytes) : Prop :=
  ∀ error, (e.send id payload).1 = .error error → Traceless e (e.send id payload).2

/-- If `open_channel` fails, it has left no trace. -/
def OpenTraceless (e : ConnectionEngine) (request : OpenRequest) : Prop :=
  ∀ error, (e.openChannel request).1 = .error error → Traceless e (e.openChannel request).2

theorem sendEmissions_refused {e : ConnectionEngine} {id : ChannelId} {payload : Bytes}
    (h : ∀ capabilities t slot flow, ¬ e.Sendable id payload capabilities t slot flow) :
    e.sendEmissions id payload = [] := by
  unfold sendEmissions
  split
  next t capabilities ht hcapabilities =>
    split
    next => rfl
    next hactive =>
      split
      next => rfl
      next slot hfind =>
        split
        next => rfl
        next hlocal =>
          split
          next => rfl
          next hcap =>
            split
            next => rfl
            next flow hreserve =>
              exact absurd ⟨ht, hcapabilities, not_not.mp hactive, hfind, by simpa using hlocal,
                by omega, hreserve⟩ (h capabilities t slot flow)
  next => rfl

/-- The DATA frames of a sendable message, unless its channel has no sequence number left. -/
theorem Sendable.emissions {e : ConnectionEngine} {id : ChannelId} {payload : Bytes}
    {capabilities : CapabilitySet} {t : ChannelTable} {slot : ChannelSlot} {flow : FlowAccount}
    (h : e.Sendable id payload capabilities t slot flow) : e.sendEmissions id payload =
      if slot.nextSendSeq = 0xFFFFFFFF then []
      else loopEmissions id slot.nextSendSeq payload.length
        (fragments (max 1 (capabilities.maxFrame / 2)) payload payload.length 0)
        { e with channels := some (t.setSlot id.number (sending slot flow)) } := by
  unfold sendEmissions
  rw [h.channels, h.capabilities]
  dsimp only
  rw [if_neg (not_not.mpr h.active), h.found]
  dsimp only
  rw [if_neg (by simp [h.localOpen]), if_neg (Nat.not_lt.mpr h.cap), h.reserved]
  dsimp only
  rw [h.reserveSequence]
  by_cases hwrap : slot.nextSendSeq = 0xFFFFFFFF
  · rw [if_pos hwrap, if_pos hwrap]
  · rw [if_neg hwrap, if_neg hwrap]

/-- The loop of `send` succeeds when each of its frames goes out. -/
theorem sendLoop_ok_iff (id : ChannelId) (sequence : UInt32) (total : Nat) (rounds : List (Nat × Bytes))
    (e : ConnectionEngine) (out : List Bytes) :
    (∃ all, (sendLoop id sequence total rounds e out).1 = .ok all) ↔
      ∀ p ∈ loopEmissions id sequence total rounds e, p.Sent := by
  induction rounds generalizing e out with
  | nil => exact ⟨fun _ _ hp => absurd hp List.not_mem_nil, fun _ => ⟨out, rfl⟩⟩
  | cons round rounds ih =>
    obtain ⟨offset, fragment⟩ := round
    have hfirst : Emission.Sent (e.framed .data id fragment (fragmentExtensions sequence offset total)) ↔
        ∃ sent, (e.emitFrame .data id fragment (fragmentExtensions sequence offset total)).1 = .ok sent :=
      .rfl
    unfold sendLoop loopEmissions
    rw [List.forall_mem_cons, hfirst]
    rcases e.emitFrame .data id fragment (fragmentExtensions sequence offset total) with
      ⟨error | sent, e'⟩
    · constructor
      · rintro ⟨_, hall⟩
        cases hall
      · rintro ⟨⟨_, hsent⟩, _⟩
        cases hsent
    · exact (ih e' (out ++ sent)).trans ⟨fun hrest => ⟨⟨sent, rfl⟩, hrest⟩, fun hboth => hboth.2⟩

theorem send_traceless_iff {e : ConnectionEngine} (hfull : WindowsFull e) (id : ChannelId)
    (payload : Bytes) : SendTraceless e id payload ↔ ∀ p ∈ e.sendEmissions id payload, p.Admitted := by
  by_cases hsends : ∃ capabilities t slot flow, e.Sendable id payload capabilities t slot flow
  · obtain ⟨capabilities, t, slot, flow, h⟩ := hsends
    obtain ⟨hne, hget⟩ := ChannelTable.slot?_eq_some.mp (ChannelTable.find_eq_some.mp h.found).1
    have hslot := ChannelTable.slot?_eq_some.mpr ⟨hne, hget⟩
    -- what was reserved is released again, on every path
    have hrelease : (flow.release payload.length).2 = slot.flow := by
      have hreserved := h.reserved
      rw [(hfull t h.channels).full _ slot hget] at hreserved ⊢
      rw [FlowAccount.release_reserve (hfull t h.channels).window hreserved]
    have hemissions := h.emissions
    rcases h.send with ⟨hwrap, error, hsend⟩ | ⟨hwrap, hsend⟩
    · rw [if_pos hwrap] at hemissions
      rw [hemissions]
      refine iff_of_true (fun _ _ => ?_) (fun _ hp => absurd hp List.not_mem_nil)
      rw [hsend, hrelease]
      refine ⟨?_, rfl, rfl⟩
      rw [h.channels]
      exact congrArg some (ChannelTable.setSlot_self hslot)
    · rw [if_neg hwrap] at hemissions
      have hok := sendLoop_ok_iff id slot.nextSendSeq payload.length
        (fragments (max 1 (capabilities.maxFrame / 2)) payload payload.length 0)
        { e with channels := some (t.setSlot id.number (sending slot flow)) } []
      rw [← hemissions] at hok
      simp only [Emission.sent_iff] at hok
      rw [← hok]
      constructor
      · intro htraceless
        cases hresult : (e.sendFrames capabilities t id slot flow payload).1 with
        | ok all => exact ⟨all, hresult⟩
        | error error =>
          -- the sequence number that the channel has used up is not given back
          have htrace := (htraceless error (by rw [hsend]; exact hresult)).channels
          rw [hsend, h.channels, hrelease] at htrace
          have hsame := ChannelTable.slot?_setSlot hslot (sending slot slot.flow)
          rw [Option.some.inj htrace, hslot] at hsame
          have hnext : slot.nextSendSeq = slot.nextSendSeq + 1 :=
            congrArg ChannelSlot.nextSendSeq (Option.some.inj hsame)
          exact absurd hnext.symm (by simp)
      · rintro ⟨all, hall⟩ error herror
        rw [hsend] at herror
        exact absurd (hall.symm.trans herror) (by rintro ⟨⟩)
  · have hnone : ∀ capabilities t slot flow, ¬ e.Sendable id payload capabilities t slot flow :=
      fun capabilities t slot flow h => hsends ⟨capabilities, t, slot, flow, h⟩
    obtain ⟨_, hsend⟩ := send_refused hnone
    rw [sendEmissions_refused hnone]
    refine iff_of_true (fun _ _ => ?_) (fun _ hp => absurd hp List.not_mem_nil)
    rw [hsend]
    exact .refl e

theorem openEmissions_refused {e : ConnectionEngine} {request : OpenRequest}
    (h : ∀ caps t i slot, ¬ e.Openable request caps t i slot) : e.openEmissions request = [] := by
  unfold openEmissions
  split
  next t caps ht hcaps =>
    split
    next => rfl
    next hactive =>
      split
      next => rfl
      next hserved =>
        obtain ⟨error, herror⟩ := @allocate_refused t fun i slot hnext =>
          h caps t i slot ⟨ht, hcaps, not_not.mp hactive, hserved, hnext⟩
        rw [herror]
  next => rfl

theorem Openable.emissions {e : ConnectionEngine} {request : OpenRequest} {caps : CapabilitySet}
    {t : ChannelTable} {i : Nat} {slot : ChannelSlot} (h : e.Openable request caps t i slot)
    (hnumbered : t.Numbered) : e.openEmissions request =
      [(e.taking t i slot).framed .open ⟨slot.id.number, slot.id.generation + 1⟩
        (u32Bytes request.familyId ++ u32Bytes (UInt32.ofNat request.initialWindow))] := by
  obtain ⟨opening, hallocate, hactivate⟩ := h.next.allocate hnumbered
  unfold openEmissions
  rw [h.channels, h.capabilities]
  dsimp only
  rw [if_neg (not_not.mpr h.active), if_neg h.served, hallocate]
  dsimp only
  rw [hactivate]
  dsimp only
  rw [← h.capabilities]
  rfl

theorem open_traceless_iff {e : ConnectionEngine} (hnumbered : ∀ t, e.channels = some t → t.Numbered)
    (request : OpenRequest) : OpenTraceless e request ↔ ∀ p ∈ e.openEmissions request, p.Admitted := by
  by_cases hopens : ∃ caps t i slot, e.Openable request caps t i slot
  · obtain ⟨caps, t, i, slot, h⟩ := hopens
    have htable := hnumbered t h.channels
    have hopen := h.open htable
    have hsent := emitFrame_sent (e.taking t i slot) .open ⟨slot.id.number, slot.id.generation + 1⟩
      (u32Bytes request.familyId ++ u32Bytes (UInt32.ofNat request.initialWindow)) []
    rw [h.emissions htable, List.forall_mem_singleton, ← Emission.sent_iff]
    have hok : Emission.Sent ((e.taking t i slot).framed .open ⟨slot.id.number, slot.id.generation + 1⟩
        (u32Bytes request.familyId ++ u32Bytes (UInt32.ofNat request.initialWindow))) ↔
      ∃ sent, ((e.taking t i slot).emitFrame .open ⟨slot.id.number, slot.id.generation + 1⟩
        (u32Bytes request.familyId ++ u32Bytes (UInt32.ofNat request.initialWindow))).1 = .ok sent := .rfl
    rw [hok]
    unfold OpenTraceless
    rw [hopen]
    rcases hemit : (e.taking t i slot).emitFrame .open ⟨slot.id.number, slot.id.generation + 1⟩
      (u32Bytes request.familyId ++ u32Bytes (UInt32.ofNat request.initialWindow)) with ⟨error | sent, e'⟩
    · refine iff_of_false (fun htraceless => ?_) (by rintro ⟨_, hsent⟩; cases hsent)
      -- the slot that was free before is still taken
      have htrace := (htraceless error rfl).channels
      rw [hemit] at hsent
      rw [show e'.channels = (e.taking t i slot).channels from hsent.channels, h.channels] at htrace
      have htaken := ChannelTable.setAt_slot h.next.found
        (t.opened ⟨slot.id.number, slot.id.generation + 1⟩ .open)
      rw [Option.some.inj htrace, h.next.found] at htaken
      have hbusy : slot.state = .open := congrArg ChannelSlot.state (Option.some.inj htaken)
      rw [h.next.free] at hbusy
      cases hbusy
    · exact iff_of_true (by rintro error ⟨⟩) ⟨sent, rfl⟩
  · have hnone : ∀ caps t i slot, ¬ e.Openable request caps t i slot :=
      fun caps t i slot h => hopens ⟨caps, t, i, slot, h⟩
    obtain ⟨_, hopen⟩ := open_refused hnone
    rw [openEmissions_refused hnone]
    refine iff_of_true (fun _ _ => ?_) (fun _ hp => absurd hp List.not_mem_nil)
    rw [hopen]
    exact .refl e

theorem Tabled.call {e : ConnectionEngine} (h : Tabled e) (c : Call) : Tabled (e.call c) := by
  obtain ⟨hchain, hlast⟩ := callStates_steps e c
  have hstep : ∀ e e' : ConnectionEngine, Tabled e → Step e e' → Tabled e' := fun _ _ hi h => hi.step h
  obtain ⟨hall, _⟩ := isChain_invariant hstep h hchain
  exact hall _ (List.mem_of_getLast? hlast)

/-- Whatever an engine has been through, a send or an opening that fails leaves no trace if and only if
`emit` has no reason to refuse any of its frames. -/
theorem failed_calls_traceless_iff (policy : LocalPolicy) (registry : PluginRegistry)
    (executor : Option (DeterministicExecutor EngineTask)) (calls : List Call) :
    (∀ id payload, SendTraceless (run call (make policy registry executor) calls) id payload ↔
      ∀ p ∈ (run call (make policy registry executor) calls).sendEmissions id payload, p.Admitted) ∧
    ∀ request, OpenTraceless (run call (make policy registry executor) calls) request ↔
      ∀ p ∈ (run call (make policy registry executor) calls).openEmissions request, p.Admitted := by
  have hfull : WindowsFull (run call (make policy registry executor) calls) :=
    run_induction (fun _ c h => h.call c) calls fun _ h => (Option.some_ne_none _ h.symm).elim
  have htabled : Tabled (run call (make policy registry executor) calls) :=
    run_induction (fun _ c h => h.call c) calls
      ⟨fun _ => rfl, fun _ h => (Option.some_ne_none _ h.symm).elim⟩
  exact ⟨send_traceless_iff hfull, open_traceless_iff fun t ht => (htabled.table t ht).numbered⟩

/-- An engine with one channel, about to come round to a frame number that its snapshot holds. -/
def comingRound : ConnectionEngine :=
  run call (make {} echoRegistry none)
    (.loadReplaySnapshot wrappingSnapshot :: negotiation {} ++ [.openChannel {}])

theorem failed_calls_leave_traces :
    ¬ SendTraceless comingRound ⟨1, 1⟩ [7] ∧ ¬ OpenTraceless comingRound {} := by
  have hsend : (comingRound.send ⟨1, 1⟩ [7]).1.toOption.isNone = true ∧
      (comingRound.send ⟨1, 1⟩ [7]).2.channels ≠ comingRound.channels := by decide +kernel
  have hopen : (comingRound.openChannel {}).1.toOption.isNone = true ∧
      (comingRound.openChannel {}).2.channels.any (fun t => (t.find ⟨2, 1⟩).isSome) ≠
        comingRound.channels.any (fun t => (t.find ⟨2, 1⟩).isSome) := by decide +kernel
  constructor
  · intro h
    cases hresult : (comingRound.send ⟨1, 1⟩ [7]).1 with
    | error error => exact hsend.2 (h error hresult).channels
    | ok out => simp [hresult, Except.toOption] at hsend
  · intro h
    cases hresult : (comingRound.openChannel {}).1 with
    | error error => exact hopen.2 (congrArg _ (h error hresult).channels)
    | ok out => simp [hresult, Except.toOption] at hopen

end ConnectionEngine

end LatticeGateway
