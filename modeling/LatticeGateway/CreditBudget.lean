import LatticeGateway.ReceiveSteps

namespace LatticeGateway

open Runs

/-- Every account of the table is full: nothing is reserved, and no credit is missing. -/
structure ChannelTable.Full (t : ChannelTable) : Prop where
  window : t.channelWindow < 2 ^ 64
  full : ∀ (i : Nat) (slot : ChannelSlot), t.slots[i]? = some slot → slot.flow = .ofWindow t.channelWindow

theorem ChannelTable.Full.setAt {t : ChannelTable} (h : t.Full) {i : Nat} {slot slot' : ChannelSlot}
    (found : t.slots[i]? = some slot) (hflow : slot'.flow = .ofWindow t.channelWindow) :
    (t.setAt i slot').Full := by
  refine ⟨h.window, ?_⟩
  intro j other hother
  rcases ChannelTable.setAt_cases hother with ⟨rfl, rfl⟩ | ⟨_, hold⟩
  · exact hflow
  · exact h.full j other hold

theorem ChannelTable.Full.op {t t' : ChannelTable} (h : t.Full) (op : TableOp t t') : t'.Full := by
  cases op with
  | update found busy keeps => exact h.setAt found (keeps.flow h.window (h.full _ _ found))
  | opened found free busy generation numbered => exact h.setAt found rfl

theorem ChannelTable.Full.ops {t t' : ChannelTable} (h : t.Full) (ops : TableOps t t') : t'.Full :=
  ops.invariant (fun _ _ h op => h.op op) h

theorem TableOps.channelWindow {t t' : ChannelTable} (ops : TableOps t t') :
    t'.channelWindow = t.channelWindow := by
  induction ops with
  | refl => rfl
  | tail _ op ih => cases op <;> exact ih

theorem decodeHelloPayload_window {payload : Bytes} {hello : HelloMessage}
    (h : decodeHelloPayload payload = .ok hello) : hello.limits.connectionWindow < 2 ^ 32 := by
  unfold decodeHelloPayload at h
  split at h
  next => cases h
  next =>
    split at h
    next => cases h
    next =>
      split at h
      next => cases h
      next =>
        cases h
        exact UInt32.toNat_lt _

theorem negotiate_window {ours peer : HelloMessage} {capabilities : CapabilitySet}
    (h : negotiate ours peer = .ok capabilities) :
    capabilities.connectionWindow ≤ peer.limits.connectionWindow := by
  unfold negotiate at h
  split at h
  next => cases h
  next =>
    dsimp only at h
    split at h
    next => cases h
    next =>
      split at h
      next => cases h
      next =>
        split at h
        next => cases h
        next => cases h
        next =>
          cases h
          exact Nat.min_le_right _ _

namespace ConnectionEngine

/-- No channel of the engine has spent or reserved any of its window. -/
def WindowsFull (e : ConnectionEngine) : Prop := ∀ t, e.channels = some t → t.Full

theorem WindowsFull.silent {e e' : ConnectionEngine} (hi : WindowsFull e) (h : Silent e e') :
    WindowsFull e' := by
  intro t' ht'
  have hchannels := h.channels
  rw [ht'] at hchannels
  cases ht : e.channels with
  | none => rw [ht] at hchannels; cases hchannels
  | some t =>
    rw [ht] at hchannels
    obtain ⟨ops⟩ := hchannels
    exact (hi t ht).ops ops

theorem negotiated_full {e : ConnectionEngine} {payload : Bytes} {peer : HelloMessage}
    {capabilities : CapabilitySet} (hpeer : decodeHelloPayload payload = .ok peer)
    (hnegotiate : negotiate e.localHello peer = .ok capabilities) :
    WindowsFull (e.negotiated capabilities) := by
  intro t ht
  cases ht
  have hpeerWindow := decodeHelloPayload_window hpeer
  have hwindow := negotiate_window hnegotiate
  have hdiv := Nat.div_le_self capabilities.connectionWindow capabilities.maxChannels.toNat
  refine ⟨?_, ?_⟩
  · show capabilities.connectionWindow / capabilities.maxChannels.toNat < 2 ^ 64
    omega
  · intro i slot hslot
    obtain ⟨j, hj, rfl⟩ := List.getElem?_eq_some_iff.mp hslot
    simp [ChannelTable.make]

theorem WindowsFull.step {e e' : ConnectionEngine} (hi : WindowsFull e) (h : Step e e') :
    WindowsFull e' := by
  cases h with
  | silent h => exact hi.silent h
  | hello _ hpeer hnegotiate h => exact (negotiated_full hpeer hnegotiate).silent h
  | delivers h =>
    obtain ⟨t, id, slot, slot', payload, ht, _, hfind, _, hslot, h⟩ := h
    have hdelivered : WindowsFull (e.delivered t id slot slot' payload) := by
      intro t' ht'
      cases ht'
      obtain ⟨_, hget⟩ := ChannelTable.slot?_eq_some.mp (ChannelTable.find_eq_some.mp hfind).1
      have hfull := hi t ht
      exact hfull.setAt hget (hslot.flow hfull.window (hfull.full _ slot hget))
    exact hdelivered.silent h

theorem WindowsFull.call {e : ConnectionEngine} (hi : WindowsFull e) (c : Call) :
    WindowsFull (e.call c) := by
  obtain ⟨hchain, hlast⟩ := callStates_steps e c
  have hstep : ∀ e e' : ConnectionEngine, WindowsFull e → Step e e' → WindowsFull e' :=
    fun _ _ hi h => hi.step h
  obtain ⟨hall, _⟩ := isChain_invariant hstep hi hchain
  exact hall _ (List.mem_of_getLast? hlast)

/-- A CREDIT frame for a live channel whose account is full is refused, whatever its amount. -/
theorem handleCredit_full {e : ConnectionEngine} (hi : WindowsFull e) {t : ChannelTable}
    {slot : ChannelSlot} {frame : Frame} (ht : e.channels = some t)
    (hfind : t.find frame.channel = some slot) : ∃ error, (e.handleCredit frame).1 = .error error := by
  obtain ⟨_, hget⟩ := ChannelTable.slot?_eq_some.mp (ChannelTable.find_eq_some.mp hfind).1
  unfold handleCredit
  rw [ht]
  dsimp only
  split
  next => exact ⟨_, rfl⟩
  next =>
    split
    next => exact ⟨_, rfl⟩
    next amount hamount =>
      obtain ⟨error, hgrant⟩ := FlowAccount.grant_full t.channelWindow (readU32Be_lt hamount)
      rw [hfind]
      dsimp only
      rw [(hi t ht).full _ slot hget, hgrant]
      exact ⟨error, rfl⟩

/-- The initial window of each of its channels, once the engine has any. -/
def window (e : ConnectionEngine) : Option Nat := e.channels.map (·.channelWindow)

theorem Silent.window {e e' : ConnectionEngine} (h : Silent e e') : e'.window = e.window := by
  unfold ConnectionEngine.window
  have hchannels := h.channels
  generalize e.channels = channels at hchannels ⊢
  generalize e'.channels = channels' at hchannels ⊢
  cases hchannels with
  | none => rfl
  | some ops => simp [TableOps.channelWindow ops]

/-- A window never changes once it is there. -/
theorem Step.window {e e' : ConnectionEngine} (hi : Unopened e) (h : Step e e') :
    e.window = none ∨ e'.window = e.window := by
  cases h with
  | silent h => exact .inr h.window
  | hello hnegotiating _ _ _ => exact .inl (by simp [ConnectionEngine.window, hi (.inr hnegotiating)])
  | delivers h =>
    obtain ⟨t, _, _, _, _, ht, _, _, _, _, h⟩ := h
    right
    rw [h.window]
    simp [ConnectionEngine.window, ht, delivered, record, setSlot, ChannelTable.setSlot]

theorem call_window {e : ConnectionEngine} (hi : Unopened e) (c : Call) :
    Unopened (e.call c) ∧ (e.window = none ∨ (e.call c).window = e.window) := by
  obtain ⟨hchain, hlast⟩ := callStates_steps e c
  have hstep : ∀ e₁ e₂ : ConnectionEngine,
      (Unopened e₁ ∧ (e.window = none ∨ e₁.window = e.window)) → Step e₁ e₂ →
      (Unopened e₂ ∧ (e.window = none ∨ e₂.window = e.window)) := by
    rintro e₁ e₂ ⟨hi₁, hwindow⟩ h
    refine ⟨hi₁.step h, ?_⟩
    rcases hwindow with hnone | hsame
    · exact .inl hnone
    · rw [← hsame]
      exact h.window hi₁
  obtain ⟨hall, _⟩ := isChain_invariant hstep ⟨hi, .inr rfl⟩ hchain
  exact hall _ (List.mem_of_getLast? hlast)

/-- The CREDIT amount that a frame brings to a live channel of the engine. -/
def creditAmount (e : ConnectionEngine) (frame : Frame) : Option Nat :=
  if frame.type = .credit ∧ frame.payload.length = 4 ∧
      (e.channels.bind (·.find frame.channel)).isSome then
    some (u32At frame.payload 0).toNat
  else none

end ConnectionEngine

open ConnectionEngine

/-- For each channel the payload bytes that `send` has accepted and the credit received. -/
structure Ledger where
  sent : ChannelId → Nat := fun _ => 0
  credit : ChannelId → Nat := fun _ => 0

def Ledger.addSent (l : Ledger) (id : ChannelId) (bytes : Nat) : Ledger :=
  { l with sent := fun other => if other = id then l.sent other + bytes else l.sent other }

/-- The ledger after a frame that `e` handles. -/
def Ledger.handle (l : Ledger) (p : ConnectionEngine × Frame) : Ledger :=
  { l with credit := fun other =>
      if other = p.2.channel then l.credit other + (p.1.creditAmount p.2).getD 0 else l.credit other }

structure Accounted where
  engine : ConnectionEngine
  ledger : Ledger := {}

def Accounted.call (s : Accounted) (c : Call) : Accounted :=
  { engine := s.engine.call c
    ledger := match c with
      | .send id payload =>
        match (s.engine.send id payload).1 with
        | .error _ => s.ledger
        | .ok _ => s.ledger.addSent id payload.length
      | .receive bytes eof =>
        (handled (s.engine.decoded bytes eof).1 (s.engine.decoded bytes eof).2).foldl Ledger.handle
          s.ledger
      | _ => s.ledger }

/-- The channel has accepted no more than its window and the credit it has received. -/
def Accounted.WithinWindow (s : Accounted) (id : ChannelId) : Prop :=
  ∀ window, s.engine.window = some window → s.ledger.sent id ≤ window + s.ledger.credit id

/-- The payload bytes that a call hands to `send` on a channel, unless they are more than its window. -/
def Call.offered (window : Nat) (id : ChannelId) : Call → Nat
  | .send id' payload => if id' = id ∧ payload.length ≤ window then payload.length else 0
  | _ => 0

def offered (window : Nat) (id : ChannelId) (calls : List Call) : Nat :=
  (calls.map (Call.offered window id)).sum

/-- A CREDIT frame for a live channel after which no more is granted than was sent. -/
def InBudget (l : Ledger) (p : ConnectionEngine × Frame) : Prop :=
  ∃ amount, p.1.creditAmount p.2 = some amount ∧
    l.credit p.2.channel + amount ≤ l.sent p.2.channel

/-- The frames that a call handles, and the ledger with which it meets them, all have `P`. -/
def Accounted.EveryFrame (P : Ledger → ConnectionEngine × Frame → Prop) (s : Accounted) : Call → Prop
  | .receive bytes eof => Along Ledger.handle P s.ledger
      (handled (s.engine.decoded bytes eof).1 (s.engine.decoded bytes eof).2)
  | _ => True

def CreditAccepted (l : Ledger) (p : ConnectionEngine × Frame) : Prop :=
  InBudget l p → ∃ out, (p.1.handleFrame p.2).1 = .ok out

def CreditRefused (l : Ledger) (p : ConnectionEngine × Frame) : Prop :=
  InBudget l p → ∃ error, (p.1.handleFrame p.2).1 = .error error

theorem FlowAccount.reserve_full {window amount : Nat} {flow : FlowAccount}
    (h : (FlowAccount.ofWindow window).reserve amount = (.ok (), flow)) : amount ≤ window := by
  unfold FlowAccount.reserve FlowAccount.ofWindow at h
  split at h
  next => omega
  next =>
    split at h
    next => cases h
    next hle => exact Nat.le_of_not_lt hle

theorem Ledger.handle_sent (frames : List (ConnectionEngine × Frame)) (l : Ledger) :
    (frames.foldl Ledger.handle l).sent = l.sent := by
  induction frames generalizing l with
  | nil => rfl
  | cons p frames ih => exact ih (l.handle p)

theorem offered_concat (window : Nat) (id : ChannelId) (calls : List Call) (c : Call) :
    offered window id (calls ++ [c]) = offered window id calls + c.offered window id := by
  simp [offered]

/-- The account of a run of these calls: nothing was sent before there were channels, and on none more than
was offered. -/
structure Accounted.Budgeted (calls : List Call) (s : Accounted) : Prop where
  unopened : s.engine.Unopened
  full : s.engine.WindowsFull
  unsent : s.engine.window = none → ∀ id, s.ledger.sent id = 0
  sent : ∀ window, s.engine.window = some window → ∀ id, s.ledger.sent id ≤ offered window id calls

theorem Accounted.Budgeted.start (policy : LocalPolicy) (registry : PluginRegistry)
    (executor : Option (DeterministicExecutor EngineTask)) :
    Budgeted [] { engine := make policy registry executor } :=
  ⟨fun _ => rfl, fun _ h => (Option.some_ne_none _ h.symm).elim, fun _ _ => rfl,
    fun _ h => (Option.some_ne_none _ h.symm).elim⟩

/-- What a call adds to the bytes sent was offered: a full account reserves no more than the window. -/
theorem Accounted.sent_call {s : Accounted} (hfull : s.engine.WindowsFull) {window : Nat}
    (hwindow : s.engine.window = some window) (c : Call) (id : ChannelId) :
    (s.call c).ledger.sent id ≤ s.ledger.sent id + c.offered window id := by
  cases c with
  | send id' payload =>
    unfold Accounted.call
    dsimp only
    split
    next => exact Nat.le_add_right _ _
    next out hok =>
      rcases send_cases s.engine id' payload with
        ⟨error, herror⟩ | ⟨capabilities, t, slot, flow, hsendable, _⟩
      · rw [herror] at hok
        cases hok
      · obtain ⟨_, hget⟩ :=
          ChannelTable.slot?_eq_some.mp (ChannelTable.find_eq_some.mp hsendable.found).1
        have ht : t.channelWindow = window := by
          simpa [ConnectionEngine.window, hsendable.channels] using hwindow
        have hreserved := hsendable.reserved
        rw [(hfull t hsendable.channels).full _ slot hget] at hreserved
        have hfits : payload.length ≤ window := ht ▸ FlowAccount.reserve_full hreserved
        unfold Ledger.addSent Call.offered
        dsimp only
        by_cases hsame : id = id'
        · rw [if_pos hsame, if_pos ⟨hsame.symm, hfits⟩]
        · rw [if_neg hsame]
          exact Nat.le_add_right _ _
  | receive bytes eof =>
    unfold Accounted.call
    dsimp only
    rw [Ledger.handle_sent]
    exact Nat.le_add_right _ _
  | _ => exact Nat.le_add_right _ _

/-- Without channels nothing is sent. -/
theorem Accounted.unsent_call {s : Accounted} (h : s.engine.window = none) (c : Call) (id : ChannelId) :
    (s.call c).ledger.sent id = s.ledger.sent id := by
  cases c with
  | send id' payload =>
    unfold Accounted.call
    dsimp only
    split
    next => rfl
    next out hok =>
      rcases send_cases s.engine id' payload with ⟨error, herror⟩ | ⟨_, t, _, _, hsendable, _⟩
      · rw [herror] at hok
        cases hok
      · simp [ConnectionEngine.window, hsendable.channels] at h
  | receive bytes eof =>
    unfold Accounted.call
    dsimp only
    rw [Ledger.handle_sent]
  | _ => rfl

theorem Accounted.Budgeted.call {calls : List Call} {s : Accounted} (hi : s.Budgeted calls) (c : Call) :
    (s.call c).Budgeted (calls ++ [c]) := by
  obtain ⟨hunopened, hwindow⟩ := call_window hi.unopened c
  have hnone : s.engine.window = none → ∀ id, (s.call c).ledger.sent id = 0 :=
    fun h id => (Accounted.unsent_call h c id).trans (hi.unsent h id)
  refine ⟨hunopened, hi.full.call c, fun hafter => ?_, fun window hafter id => ?_⟩
  · exact hwindow.elim hnone fun hsame => hnone (hsame.symm.trans hafter)
  · rcases hwindow with hbefore | hsame
    · rw [hnone hbefore id]
      exact Nat.zero_le _
    · have hbefore : s.engine.window = some window := hsame.symm.trans hafter
      rw [offered_concat]
      exact (Accounted.sent_call hi.full hbefore c id).trans
        (Nat.add_le_add_right (hi.sent window hbefore id) _)

theorem Accounted.Budgeted.run {before : List Call} {s : Accounted} (hi : s.Budgeted before)
    (calls : List Call) : (run Accounted.call s calls).Budgeted (before ++ calls) := by
  induction calls generalizing s before with
  | nil =>
    rw [List.append_nil]
    exact hi
  | cons c calls ih =>
    rw [List.append_cons]
    exact ih (hi.call c)

/-- A frame that brings credit to a live channel meets a full account. -/
theorem creditRefused {l : Ledger} {p : ConnectionEngine × Frame} (hi : p.1.WindowsFull) :
    CreditRefused l p := by
  rintro ⟨amount, hamount, _⟩
  unfold creditAmount at hamount
  split at hamount
  next hcredit =>
    obtain ⟨htype, _, hlive⟩ := hcredit
    obtain ⟨slot, hslot⟩ := Option.isSome_iff_exists.mp hlive
    obtain ⟨t, ht, hfind⟩ := Option.bind_eq_some_iff.mp hslot
    unfold handleFrame
    rw [htype]
    exact handleCredit_full hi ht hfind
  next => cases hamount

theorem along_refused {frames : List (ConnectionEngine × Frame)} (h : ∀ p ∈ frames, p.1.WindowsFull)
    (l : Ledger) : Along Ledger.handle CreditRefused l frames := by
  induction frames generalizing l with
  | nil => trivial
  | cons p frames ih =>
    obtain ⟨hp, hrest⟩ := List.forall_mem_cons.mp h
    exact ⟨creditRefused hp, ih hrest _⟩

theorem Accounted.everyCredit_refused {s : Accounted} (hi : s.engine.WindowsFull) (c : Call) :
    s.EveryFrame CreditRefused c := by
  cases c with
  | receive bytes eof =>
    have hstep : ∀ e e' : ConnectionEngine, WindowsFull e → Step e e' → WindowsFull e' :=
      fun _ _ hi h => hi.step h
    have hdecoded : (s.engine.decoded bytes eof).2.WindowsFull := hi
    exact along_refused (handled_invariant hstep _ hdecoded) s.ledger
  | _ => trivial

theorem Accounted.run_refused {s : Accounted} (hi : s.engine.WindowsFull) (calls : List Call) :
    Along Accounted.call (Accounted.EveryFrame CreditRefused) s calls := by
  induction calls generalizing s with
  | nil => trivial
  | cons c calls ih =>
    have hafter : (s.call c).engine.WindowsFull := hi.call c
    exact ⟨Accounted.everyCredit_refused hi c, ih hafter⟩

/-- The bytes that `send` accepts on a channel stay within window and credit if all that the calls offer
on it does; and CREDIT that the bytes sent have earned is refused, whenever it arrives. -/
theorem credit_budget (policy : LocalPolicy) (registry : PluginRegistry)
    (executor : Option (DeterministicExecutor EngineTask)) (calls : List Call) :
    let s : Accounted := { engine := make policy registry executor }
    (∀ id, (∀ window, (run Accounted.call s calls).engine.window = some window →
        offered window id calls ≤ window) → (run Accounted.call s calls).WithinWindow id) ∧
    Along Accounted.call (Accounted.EveryFrame CreditRefused) s calls := by
  intro s
  have hstart : s.Budgeted [] := Accounted.Budgeted.start policy registry executor
  refine ⟨fun id hoffered window hwindow => ?_, Accounted.run_refused hstart.full calls⟩
  have hsent := (hstart.run calls).sent window hwindow id
  exact (hsent.trans (hoffered window hwindow)).trans (Nat.le_add_right _ _)

def smallWindow : LocalPolicy := { maxFrame := 128, connectionWindow := 128, maxChannels := 1 }

/-- Two messages of 100 bytes on a channel whose window is 128. -/
def overspent : Accounted :=
  run Accounted.call { engine := make smallWindow echoRegistry none } (negotiation smallWindow ++
    [.openChannel {}, .send ⟨1, 1⟩ (List.replicate 100 0), .send ⟨1, 1⟩ (List.replicate 100 0)])

/-- The credit for the first of them. -/
def earned : Frame := { type := .credit, channel := ⟨1, 1⟩, payload := u32Bytes 100 }

theorem credit_budget_overspent :
    ¬ overspent.WithinWindow ⟨1, 1⟩ ∧
      ¬ overspent.EveryFrame CreditAccepted (.receive (frameBytes earned) false) := by
  obtain ⟨⟨hwindow, hspent, hledger⟩, hevents, hamount, hrefused⟩ :
      (overspent.engine.window = some 128 ∧
        128 + overspent.ledger.credit ⟨1, 1⟩ < overspent.ledger.sent ⟨1, 1⟩ ∧
        overspent.ledger.credit ⟨1, 1⟩ + 100 ≤ overspent.ledger.sent ⟨1, 1⟩) ∧
      (overspent.engine.decoded (frameBytes earned) false).1 = [.frame earned] ∧
      (overspent.engine.decoded (frameBytes earned) false).2.creditAmount earned = some 100 ∧
      ((overspent.engine.decoded (frameBytes earned) false).2.handleFrame earned).1.isOk = false := by
    decide +kernel
  refine ⟨fun h => Nat.not_le_of_lt hspent (h 128 hwindow), fun h => ?_⟩
  unfold Accounted.EveryFrame at h
  dsimp only at h
  rw [hevents] at h
  obtain ⟨out, hout⟩ := h.1 ⟨100, hamount, hledger⟩
  rw [hout] at hrefused
  cases hrefused

end LatticeGateway
