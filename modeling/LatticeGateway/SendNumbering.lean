import LatticeGateway.DataReceiving
import LatticeGateway.FailedCalls
import LatticeGateway.PassingCalls

namespace LatticeGateway

open Runs

/-- The message after `k` others has number `k + 1`, on one frame at least. -/
def NoGaps (sent : List (List UInt32)) : Prop :=
  ∀ k numbers, sent[k]? = some numbers → numbers ≠ [] ∧ ∀ number ∈ numbers, number.toNat = k + 1

theorem NoGaps.concat {sent : List (List UInt32)} (h : NoGaps sent) {numbers : List UInt32}
    (hne : numbers ≠ []) (hnext : ∀ number ∈ numbers, number.toNat = sent.length + 1) :
    NoGaps (sent ++ [numbers]) := by
  intro k found hfound
  rcases Nat.lt_or_ge k sent.length with hlt | hge
  · rw [List.getElem?_append_left hlt] at hfound
    exact h k found hfound
  · rw [List.getElem?_append_right hge, List.getElem?_singleton] at hfound
    split at hfound
    next hlast =>
      cases hfound
      have hk : k = sent.length := by omega
      rw [hk]
      exact ⟨hne, hnext⟩
    next => cases hfound

/-- Every slot in use counts what was sent under its id, and nothing was sent under any other id. -/
structure SendCounts (sent : ChannelId → List (List UInt32)) (t : ChannelTable) : Prop where
  numbered : t.Numbered
  owned : ∀ id, sent id ≠ [] →
    ∃ slot, t.slots[id.number.toNat - 1]? = some slot ∧ slot.id = id ∧ slot.state ≠ .free
  next : ∀ (i : Nat) (slot : ChannelSlot), t.slots[i]? = some slot → slot.state ≠ .free →
    slot.nextSendSeq.toNat = (sent slot.id).length + 1

def Counted (sent : ChannelId → List (List UInt32)) : Option ChannelTable → Prop
  | none => ∀ id, sent id = []
  | some t => SendCounts sent t

section

variable {sent : ChannelId → List (List UInt32)} {t : ChannelTable} {i : Nat} {slot slot' : ChannelSlot}

/-- A slot changes and keeps its count. -/
theorem SendCounts.passed (h : SendCounts sent t) (found : t.slots[i]? = some slot)
    (passes : SlotPasses slot slot') : SendCounts sent (t.setAt i slot') := by
  refine ⟨h.numbered.setAt (by rw [passes.id]; exact h.numbered i slot found), ?_, ?_⟩
  · intro id hid
    obtain ⟨owner, howner, hownerId, hbusy⟩ := h.owned id hid
    by_cases hi : id.number.toNat - 1 = i
    · subst hi
      obtain rfl := Option.some.inj (found.symm.trans howner)
      exact ⟨slot', ChannelTable.setAt_slot found slot', passes.id.trans hownerId,
        fun hfree => hbusy (passes.free.mp hfree)⟩
    · exact ⟨owner, (ChannelTable.setAt_slot_ne t hi slot').trans howner, hownerId, hbusy⟩
  · intro j other hother hbusy
    rcases ChannelTable.setAt_cases hother with ⟨rfl, rfl⟩ | ⟨_, hold⟩
    · rw [passes.nextSendSeq, passes.id]
      exact h.next j slot found fun hfree => hbusy (passes.free.mpr hfree)
    · exact h.next j other hold hbusy

/-- Nothing was sent under the ids of a free slot, so it opens with its count at one. -/
theorem SendCounts.opened (h : SendCounts sent t) (found : t.slots[i]? = some slot)
    (free : slot.state = .free) {id : ChannelId} (state : ChannelState)
    (numbered : id.number.toNat = i + 1 ∨ id.number = slot.id.number) :
    SendCounts sent (t.setAt i (t.opened id state)) := by
  have hnumber : id.number.toNat = i + 1 := by
    rcases numbered with hnumber | hsame
    · exact hnumber
    · rw [hsame]
      exact h.numbered i slot found
  have hapart : ∀ other, sent other ≠ [] → other.number.toNat - 1 ≠ i := by
    rintro other hsent rfl
    obtain ⟨owner, howner, _, hbusy⟩ := h.owned other hsent
    obtain rfl := Option.some.inj (found.symm.trans howner)
    exact hbusy free
  refine ⟨h.numbered.setAt hnumber, ?_, ?_⟩
  · intro other hsent
    obtain ⟨owner, howner, hrest⟩ := h.owned other hsent
    exact ⟨owner, (ChannelTable.setAt_slot_ne t (hapart other hsent) _).trans howner, hrest⟩
  · intro j other hother hbusy
    rcases ChannelTable.setAt_cases hother with ⟨rfl, rfl⟩ | ⟨_, hold⟩
    · have hnone : sent id = [] := by
        by_contra hsent
        exact hapart id hsent (by omega)
      change (1 : UInt32).toNat = (sent id).length + 1
      rw [hnone]
      rfl
    · exact h.next j other hold hbusy

end

theorem Counted.step {sent : ChannelId → List (List UInt32)} {channels channels' : Option ChannelTable}
    (h : Counted sent channels) (step : TableStep channels channels') : Counted sent channels' := by
  cases step with
  | made =>
    refine ⟨fun i slot hslot => (ChannelTable.make_slots hslot).1, fun id hid => absurd (h id) hid, ?_⟩
    exact fun i slot hslot hbusy => absurd (ChannelTable.make_slots hslot).2.2 hbusy
  | passed found passes => exact SendCounts.passed h found passes
  | opened found free busy numbered => exact SendCounts.opened h found free _ numbered

theorem Counted.steps {sent : ChannelId → List (List UInt32)} {channels channels' : Option ChannelTable}
    (h : Counted sent channels) (steps : TableSteps channels channels') : Counted sent channels' := by
  induction steps with
  | refl => exact h
  | tail _ step ih => exact ih.step step

namespace ConnectionEngine

/-- The message numbers that the DATA frames of one `send` carry. -/
def sentNumbers (e : ConnectionEngine) (id : ChannelId) (payload : Bytes) : List UInt32 :=
  (e.sentFrames id payload).filterMap fun frame => (extensionU32 frame kExtMessageSeq).toOption

/-- A `send` that gets as far as a message number. -/
def TakesNumber (e : ConnectionEngine) (id : ChannelId) (payload : Bytes) : Prop :=
  ∃ caps t slot flow, e.Sendable id payload caps t slot flow ∧ slot.nextSendSeq ≠ 0xFFFFFFFF

/-- A `send` that takes a number has a frame to put it on, and `emit` has no reason to refuse one. -/
def SpendsNumber (e : ConnectionEngine) : Call → Prop
  | .send id payload => TakesNumber e id payload → payload ≠ [] ∧ ∀ p ∈ e.sendEmissions id payload, p.Admitted
  | _ => True

/-- When `emit` has no reason to refuse a frame, the loop of `send` succeeds. -/
theorem Sendable.send_ok {e : ConnectionEngine} {id : ChannelId} {payload : Bytes}
    {caps : CapabilitySet} {t : ChannelTable} {slot : ChannelSlot} {flow : FlowAccount}
    (h : e.Sendable id payload caps t slot flow) (hwrap : slot.nextSendSeq ≠ 0xFFFFFFFF)
    (hadmitted : ∀ p ∈ e.sendEmissions id payload, p.Admitted) :
    ∃ out, (e.send id payload).1 = .ok out := by
  obtain ⟨_, hsend⟩ := h.send.resolve_left fun hcounted => hwrap hcounted.1
  rw [hsend]
  refine (sendLoop_ok_iff _ _ _ _ _ _).mpr fun p hp => Emission.sent_iff.mpr ?_
  refine hadmitted p ?_
  rw [h.emissions, if_neg hwrap]
  exact hp

/-- A message goes out under the number that its slot counts. -/
theorem Sendable.sentNumbers {e : ConnectionEngine} {id : ChannelId} {payload : Bytes}
    {caps : CapabilitySet} {t : ChannelTable} {slot : ChannelSlot} {flow : FlowAccount}
    (h : e.Sendable id payload caps t slot flow) (hwrap : slot.nextSendSeq ≠ 0xFFFFFFFF)
    (hne : payload ≠ []) {out : List Bytes} (hok : (e.send id payload).1 = .ok out) :
    e.sentNumbers id payload ≠ [] ∧ ∀ number ∈ e.sentNumbers id payload, number = slot.nextSendSeq := by
  have hnumber : ∀ frame ∈ e.sentFrames id payload,
      (extensionU32 frame kExtMessageSeq).toOption = some slot.nextSendSeq := by
    intro frame hframe
    rw [h.sentFrames hwrap] at hframe
    obtain ⟨offset, hextensions⟩ := emittedFrames_extensions hframe
    rw [(extensionU32_fragment hextensions).1]
    rfl
  have hsome : e.sentFrames id payload ≠ [] := by
    intro hnil
    have hjoin := sentFrames_join hok
    rw [hnil] at hjoin
    exact hne hjoin.symm
  obtain ⟨first, hfirst⟩ := List.exists_mem_of_ne_nil _ hsome
  refine ⟨List.ne_nil_of_mem (List.mem_filterMap.mpr ⟨first, hfirst, hnumber first hfirst⟩), ?_⟩
  intro number hmem
  obtain ⟨frame, hframe, hsame⟩ := List.mem_filterMap.mp hmem
  exact Option.some.inj (hsame.symm.trans (hnumber frame hframe))

end ConnectionEngine

theorem SendCounts.found_id {sent : ChannelId → List (List UInt32)} {t : ChannelTable}
    (h : SendCounts sent t) {id : ChannelId} {slot : ChannelSlot} (hfind : t.find id = some slot) :
    slot.id = id := by
  obtain ⟨hslot, hgeneration, _⟩ := ChannelTable.find_eq_some.mp hfind
  have hnumber := h.numbered.number hslot
  obtain ⟨⟨number, generation⟩, _⟩ := slot
  cases id
  simp_all

theorem succ_toNat {n : UInt32} (h : n ≠ 0xFFFFFFFF) : (n + 1).toNat = n.toNat + 1 := by
  have hmax : n.toNat ≠ (0xFFFFFFFF : UInt32).toNat := fun hsame => h (UInt32.toNat_inj.mp hsame)
  have hlt := n.toNat_lt
  have hlast : (0xFFFFFFFF : UInt32).toNat = 2 ^ 32 - 1 := rfl
  rw [UInt32.toNat_add, UInt32.toNat_one, Nat.mod_eq_of_lt (by omega)]

/-- A `send` on a channel moves its count on. -/
theorem SendCounts.sent {sent : ChannelId → List (List UInt32)} {t : ChannelTable}
    (h : SendCounts sent t) {id : ChannelId} {slot : ChannelSlot} (hfind : t.find id = some slot)
    (hwrap : slot.nextSendSeq ≠ 0xFFFFFFFF) (flow : FlowAccount) (numbers : List UInt32) :
    SendCounts (fun other => if other = id then sent id ++ [numbers] else sent other)
      (t.setSlot id.number (ConnectionEngine.sending slot flow)) := by
  have hid := h.found_id hfind
  obtain ⟨hslot, _, hlive⟩ := ChannelTable.find_eq_some.mp hfind
  obtain ⟨hne, hget⟩ := ChannelTable.slot?_eq_some.mp hslot
  have hbusy := (ChannelSlot.live_iff.mp hlive).1
  refine ⟨h.numbered.setAt (h.numbered _ slot hget), ?_, ?_⟩
  · intro other hother
    by_cases hsame : other = id
    · subst hsame
      exact ⟨_, ChannelTable.setAt_slot hget _, hid, hbusy⟩
    · rw [if_neg hsame] at hother
      obtain ⟨owner, howner, hownerId, hownerBusy⟩ := h.owned other hother
      have hindex : other.number.toNat - 1 ≠ id.number.toNat - 1 := by
        intro hindex
        rw [hindex, hget] at howner
        cases howner
        exact hsame (hownerId.symm.trans hid)
      exact ⟨owner, (ChannelTable.setAt_slot_ne t hindex _).trans howner, hownerId, hownerBusy⟩
  · intro j other hother hotherBusy
    rcases ChannelTable.setAt_cases hother with ⟨rfl, rfl⟩ | ⟨hj, hold⟩
    · have hnext := h.next _ slot hget hbusy
      change (slot.nextSendSeq + 1).toNat = (if slot.id = id then sent id ++ [numbers] else _).length + 1
      rw [if_pos hid, succ_toNat hwrap, hnext, hid, List.length_append]
      rfl
    · have hnumber := h.numbered j other hold
      have hother : other.id ≠ id := by
        rintro rfl
        omega
      rw [if_neg hother]
      exact h.next j other hold hotherBusy

namespace ConnectionEngine

/-- An engine with the numbers that its sends have put on frames, for those that succeeded. -/
structure SendLog where
  engine : ConnectionEngine
  sent : List (ChannelId × List UInt32) := []

/-- The numbers of each message sent on the channel. -/
def SendLog.on (w : SendLog) (id : ChannelId) : List (List UInt32) :=
  (w.sent.filter (·.1 = id)).map (·.2)

def SendLog.call (w : SendLog) (c : Call) : SendLog :=
  { engine := w.engine.call c
    sent := match c with
      | .send id payload =>
        match (w.engine.send id payload).1 with
        | .error _ => w.sent
        | .ok _ => w.sent ++ [(id, w.engine.sentNumbers id payload)]
      | _ => w.sent }

structure SendLog.Sound (w : SendLog) : Prop where
  tabled : Tabled w.engine
  counted : Counted w.on w.engine.channels
  noGaps : ∀ id, NoGaps (w.on id)

theorem SendLog.on_concat (engine : ConnectionEngine) (sent : List (ChannelId × List UInt32))
    (id : ChannelId) (numbers : List UInt32) :
    SendLog.on { engine, sent := sent ++ [(id, numbers)] } = fun other =>
      if other = id then SendLog.on { engine, sent } id ++ [numbers] else SendLog.on { engine, sent } other := by
  funext other
  unfold SendLog.on
  rw [List.filter_append, List.map_append]
  split
  next h =>
    subst h
    simp
  next h => simp [Ne.symm h]

theorem SendLog.on_of_sent {w w' : SendLog} (h : w'.sent = w.sent) : w'.on = w.on := by
  unfold SendLog.on
  rw [h]

theorem SendLog.Sound.other {w : SendLog} (h : w.Sound) {c : Call}
    (hother : ∀ id payload, c ≠ .send id payload) : (w.call c).Sound := by
  have hsent : (w.call c).sent = w.sent := by
    cases c with
    | send id payload => exact absurd rfl (hother id payload)
    | _ => rfl
  have hon := SendLog.on_of_sent hsent
  refine ⟨h.tabled.call c, ?_, ?_⟩
  · rw [hon]
    exact h.counted.steps (call_passes h.tabled.early hother)
  · rw [hon]
    exact h.noGaps

/-- The slot counts one more than the messages sent on its channel. -/
theorem SendLog.Sound.next_number {w : SendLog} (h : w.Sound) {id : ChannelId} {payload : Bytes}
    {caps : CapabilitySet} {t : ChannelTable} {slot : ChannelSlot} {flow : FlowAccount}
    (hsendable : w.engine.Sendable id payload caps t slot flow) :
    slot.nextSendSeq.toNat = (w.on id).length + 1 := by
  have hcounted := h.counted
  rw [hsendable.channels] at hcounted
  obtain ⟨hslot, _, hlive⟩ := ChannelTable.find_eq_some.mp hsendable.found
  have hcount := hcounted.next _ slot (ChannelTable.slot?_eq_some.mp hslot).2
    (ChannelSlot.live_iff.mp hlive).1
  rwa [hcounted.found_id hsendable.found] at hcount

theorem SendLog.Sound.send {w : SendLog} (h : w.Sound) {id : ChannelId} {payload : Bytes}
    (hspends : SpendsNumber w.engine (.send id payload)) : (w.call (.send id payload)).Sound := by
  have htabled := h.tabled.call (.send id payload)
  have hcounted := h.counted
  rcases send_cases w.engine id payload with
    ⟨error, hsend⟩ | ⟨caps, t, slot, flow, hsendable, ⟨_, error, hsend⟩ | ⟨hwrap, hsend⟩⟩
  · have hcall : w.call (.send id payload) = w := by
      simp only [SendLog.call, ConnectionEngine.call, hsend]
    rw [hcall]
    exact h
  · have hsent : (w.call (.send id payload)).sent = w.sent := by simp only [SendLog.call, hsend]
    have hon := SendLog.on_of_sent hsent
    refine ⟨htabled, ?_, ?_⟩
    · rw [hon]
      change Counted w.on (w.engine.send id payload).2.channels
      rw [hsendable.channels] at hcounted
      rw [hsend]
      exact hcounted.steps (.of_find hsendable.found ⟨rfl, .rfl, rfl⟩)
    · rw [hon]
      exact h.noGaps
  · obtain ⟨hne, hadmitted⟩ := hspends ⟨caps, t, slot, flow, hsendable, hwrap⟩
    obtain ⟨out, hok⟩ := hsendable.send_ok hwrap hadmitted
    obtain ⟨hnumbers, hsame⟩ := hsendable.sentNumbers hwrap hne hok
    have hsent : (w.call (.send id payload)).sent = w.sent ++ [(id, w.engine.sentNumbers id payload)] := by
      simp only [SendLog.call, hok]
    have hon := SendLog.on_concat (w.call (.send id payload)).engine w.sent id
      (w.engine.sentNumbers id payload)
    rw [← hsent] at hon
    change (w.call (.send id payload)).on = fun other =>
      if other = id then w.on id ++ [w.engine.sentNumbers id payload] else w.on other at hon
    have hnext := h.next_number hsendable
    rw [hsendable.channels] at hcounted
    refine ⟨htabled, ?_, ?_⟩
    · rw [hon]
      change Counted _ (w.engine.send id payload).2.channels
      rw [hsend]
      exact hcounted.sent hsendable.found hwrap _ _
    · rw [hon]
      intro other
      dsimp only
      split
      next =>
        refine (h.noGaps id).concat hnumbers fun number hnumber => ?_
        rw [hsame number hnumber, hnext]
      next => exact h.noGaps other

theorem SendLog.Sound.call {w : SendLog} (h : w.Sound) {c : Call} (hspends : SpendsNumber w.engine c) :
    (w.call c).Sound := by
  by_cases hsend : ∃ id payload, c = .send id payload
  · obtain ⟨id, payload, rfl⟩ := hsend
    exact h.send hspends
  · exact h.other fun id payload hc => hsend ⟨id, payload, hc⟩

/-- As long as every number that a `send` takes goes out with its message, those of each channel are 1, 2,
3 and so on. -/
theorem sends_leave_no_gaps (policy : LocalPolicy) (registry : PluginRegistry)
    (executor : Option (DeterministicExecutor EngineTask)) (calls : List Call)
    (h : Along SendLog.call (fun w c => SpendsNumber w.engine c)
      { engine := make policy registry executor } calls) (id : ChannelId) :
    NoGaps ((run SendLog.call { engine := make policy registry executor } calls).on id) := by
  have hmake : SendLog.Sound { engine := make policy registry executor } := by
    refine ⟨⟨fun _ => rfl, fun _ h => (Option.some_ne_none _ h.symm).elim⟩, fun _ => rfl, ?_⟩
    intro id k numbers hnone
    cases hnone
  exact (run_invariant (fun _ _ hi hspends => hi.call hspends) hmake h).noGaps id

/-- A `send` that succeeds with some bytes has spent its number. -/
theorem spendsNumber_of_ok {e : ConnectionEngine} {id : ChannelId} {payload : Bytes} (hne : payload ≠ [])
    (hok : (e.send id payload).1.toOption.isSome = true) : SpendsNumber e (.send id payload) := by
  rintro ⟨caps, t, slot, flow, hsendable, hwrap⟩
  refine ⟨hne, fun p hp => Emission.sent_iff.mp ?_⟩
  rw [hsendable.emissions, if_neg hwrap] at hp
  refine (sendLoop_ok_iff _ _ _ _ _ []).mp ?_ p hp
  rcases hsendable.send with ⟨hlast, _⟩ | ⟨_, hsend⟩
  · exact absurd hlast hwrap
  · rw [hsend] at hok
    change ∃ out, (e.sendFrames caps t id slot flow payload).1 = .ok out
    change (e.sendFrames caps t id slot flow payload).1.toOption.isSome = true at hok
    cases hresult : (e.sendFrames caps t id slot flow payload).1 with
    | error error =>
      rw [hresult] at hok
      cases hok
    | ok out => exact ⟨out, rfl⟩

/-- The calls up to an open channel. -/
def openingCalls : List Call := negotiation { maxChannels := 1 } ++ [.openChannel {}]

def sendingRun (calls : List Call) : SendLog :=
  run SendLog.call { engine := make { maxChannels := 1 } echoRegistry none } (openingCalls ++ calls)

theorem sends_leave_no_gaps_two :
    NoGaps ((sendingRun [.send ⟨1, 1⟩ [65], .send ⟨1, 1⟩ [66, 67]]).on ⟨1, 1⟩) := by
  refine sends_leave_no_gaps { maxChannels := 1 } echoRegistry none _ ?_ ⟨1, 1⟩
  refine along_append.mpr ⟨⟨trivial, trivial, trivial, trivial⟩, ?_, ?_, trivial⟩
  · exact spendsNumber_of_ok (by decide) (by decide +kernel)
  · exact spendsNumber_of_ok (by decide) (by decide +kernel)

/-- An empty message takes number 1 and has no frame to put it on. -/
theorem empty_send_leaves_gap : ¬ ∀ (policy : LocalPolicy) (registry : PluginRegistry)
    (executor : Option (DeterministicExecutor EngineTask)) (calls : List Call) (id : ChannelId),
    NoGaps ((run SendLog.call { engine := make policy registry executor } calls).on id) := by
  intro h
  have hgap : (sendingRun [.send ⟨1, 1⟩ [], .send ⟨1, 1⟩ [65]]).on ⟨1, 1⟩ = [[], [2]] := by
    decide +kernel
  have hnone := h { maxChannels := 1 } echoRegistry none
    (openingCalls ++ [.send ⟨1, 1⟩ [], .send ⟨1, 1⟩ [65]]) ⟨1, 1⟩
  change NoGaps ((sendingRun _).on ⟨1, 1⟩) at hnone
  rw [hgap] at hnone
  exact (hnone 0 [] rfl).1 rfl

end ConnectionEngine

end LatticeGateway
