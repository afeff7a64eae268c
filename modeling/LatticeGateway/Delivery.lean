import LatticeGateway.ReceiveSteps

namespace LatticeGateway

open Runs ConnectionEngine

/-- The message sequence numbers delivered on channel `id` so far. -/
def deliveredSeqs (events : List ConnectionEvent) (id : ChannelId) : List UInt32 :=
  (events.filter fun event => event.kind = .messageDelivered ∧ event.channel = id).map (·.sequence)

/-- The numbers that a 32-bit counter takes from 1 on. -/
def countUp (n : Nat) : List UInt32 := (List.range n).map fun i => UInt32.ofNat (i + 1)

theorem countUp_succ (n : Nat) : countUp (n + 1) = countUp n ++ [UInt32.ofNat (n + 1)] := by
  simp [countUp, List.range_succ]

theorem countUp_toNat {n : Nat} (h : n < 2 ^ 32) :
    (countUp n).map UInt32.toNat = List.range' 1 n := by
  induction n with
  | zero => rfl
  | succ n ih =>
    have hlast : (UInt32.ofNat (n + 1)).toNat = 1 + n := by
      rw [UInt32.toNat_ofNat', Nat.mod_eq_of_lt h]
      omega
    rw [countUp_succ, List.map_append, ih (by omega), List.range'_concat, List.map_singleton, hlast,
      Nat.one_mul]

theorem deliveredSeqs_append (events more : List ConnectionEvent) (id : ChannelId) :
    deliveredSeqs (events ++ more) id = deliveredSeqs events id ++ deliveredSeqs more id := by
  simp [deliveredSeqs]

theorem deliveredSeqs_other {more : List ConnectionEvent}
    (h : ∀ event ∈ more, event.kind ≠ .messageDelivered) (id : ChannelId) :
    deliveredSeqs more id = [] := by
  unfold deliveredSeqs
  rw [List.map_eq_nil_iff, List.filter_eq_nil_iff]
  intro event hevent
  simp [h event hevent]

theorem deliveredSeqs_delivered (events : List ConnectionEvent) (id other : ChannelId)
    (sequence : UInt32) (payload : Bytes) :
    deliveredSeqs (events ++ [{ kind := .messageDelivered, channel := id, sequence, payload }]) other =
      if other = id then deliveredSeqs events other ++ [sequence] else deliveredSeqs events other := by
  rw [deliveredSeqs_append]
  split
  next h => simp [deliveredSeqs, h]
  next h => simp [deliveredSeqs, Ne.symm h]

/-- What the numbers delivered so far say about the slot at index `i`. -/
structure SlotCounts (seqs : ChannelId → List UInt32) (i : Nat) (slot : ChannelSlot) : Prop where
  numbered : slot.id.number.toNat = i + 1
  free : slot.state = .free → seqs slot.id = [] ∧ slot.remoteHalfClosed = false
  counted : ∃ n, seqs slot.id = countUp n ∧ slot.nextRecvSeq = UInt32.ofNat (n + 1)

/-- Every slot counts what was delivered for its id, and nothing was delivered for any other id. -/
structure TableCounts (seqs : ChannelId → List UInt32) (t : ChannelTable) : Prop where
  slots : ∀ i slot, t.slots[i]? = some slot → SlotCounts seqs i slot
  owned : ∀ id, seqs id ≠ [] → ∃ slot, t.slots[id.number.toNat - 1]? = some slot ∧ slot.id = id

theorem TableCounts.make (maxChannels : UInt16) (channelWindow maxMessage : Nat) :
    TableCounts (fun _ => []) (.make maxChannels channelWindow maxMessage) := by
  refine ⟨?_, fun id h => absurd rfl h⟩
  intro i slot hslot
  have hnumber := (ChannelTable.make_slots hslot).1
  obtain ⟨_, rfl⟩ := List.getElem?_eq_some_iff.mp hslot
  exact ⟨hnumber, by simp [ChannelTable.make], 0, rfl, by simp [ChannelTable.make]⟩

/-- The slot that an id with deliveries belongs to. -/
theorem TableCounts.owner {seqs : ChannelId → List UInt32} {t : ChannelTable} (h : TableCounts seqs t)
    {id : ChannelId} {i : Nat} {slot : ChannelSlot} (hid : seqs id ≠ []) (hnumber : id.number.toNat = i + 1)
    (hslot : t.slots[i]? = some slot) : slot.id = id := by
  obtain ⟨owner, howner, hid⟩ := h.owned id hid
  have hindex : id.number.toNat - 1 = i := by omega
  rw [hindex, hslot] at howner
  cases howner
  exact hid

/-- One slot changes, and with it the deliveries of ids with its number. -/
theorem TableCounts.setAt {seqs seqs' : ChannelId → List UInt32} {t : ChannelTable} {i : Nat}
    {slot slot' : ChannelSlot} (h : TableCounts seqs t) (found : t.slots[i]? = some slot)
    (hslot : SlotCounts seqs' i slot')
    (hsame : ∀ id : ChannelId, id.number.toNat ≠ i + 1 → seqs' id = seqs id)
    (howned : ∀ id : ChannelId, id.number.toNat = i + 1 → seqs' id ≠ [] → slot'.id = id) :
    TableCounts seqs' (t.setAt i slot') := by
  refine ⟨?_, ?_⟩
  · intro j other hother
    rcases ChannelTable.setAt_cases hother with ⟨rfl, rfl⟩ | ⟨hj, hold⟩
    · exact hslot
    · obtain ⟨hnumbered, hfree, hcounted⟩ := h.slots j other hold
      have hseqs := hsame other.id (by omega)
      exact ⟨hnumbered, by rw [hseqs]; exact hfree, by rw [hseqs]; exact hcounted⟩
  · intro id hid
    by_cases hnumber : id.number.toNat = i + 1
    · refine ⟨slot', ?_, howned id hnumber hid⟩
      rw [hnumber, Nat.add_sub_cancel]
      exact ChannelTable.setAt_slot found slot'
    · rw [hsame id hnumber] at hid
      obtain ⟨owner, howner, hownerId⟩ := h.owned id hid
      have hnumbered := (h.slots _ owner howner).numbered
      rw [hownerId] at hnumbered
      refine ⟨owner, ?_, hownerId⟩
      rw [ChannelTable.setAt_slot_ne t (by omega)]
      exact howner

theorem TableCounts.op {seqs : ChannelId → List UInt32} {t t' : ChannelTable} (h : TableCounts seqs t)
    (op : TableOp t t') : TableCounts seqs t' := by
  cases op with
  | @update i slot slot' found busy keeps =>
    obtain ⟨hnumbered, _, hcounted⟩ := h.slots i slot found
    refine h.setAt found ⟨?_, ?_, ?_⟩ (fun _ _ => rfl) ?_
    · rw [keeps.id]
      exact hnumbered
    · exact fun hfree => absurd (keeps.free.mp hfree) busy
    · rw [keeps.id, keeps.nextRecvSeq]
      exact hcounted
    · intro id hnumber hid
      exact keeps.id.trans (h.owner hid hnumber found)
  | @opened i slot id state found free busy generation numbered =>
    obtain ⟨hnumbered, hfree, _⟩ := h.slots i slot found
    have hnumber : id.number.toNat = i + 1 := by
      rcases numbered with hnumber | hnumber
      · exact hnumber
      · rw [hnumber]
        exact hnumbered
    -- nothing was delivered for the id of a free slot, and so for no id of its number
    have hnone : ∀ other : ChannelId, other.number.toNat = i + 1 → seqs other = [] := by
      intro other hother
      by_contra hsome
      have howner := h.owner hsome hother found
      rw [← howner] at hsome
      exact hsome (hfree free).1
    refine h.setAt found ⟨hnumber, fun hopen => absurd hopen busy, 0, hnone id hnumber, rfl⟩
      (fun _ _ => rfl) ?_
    exact fun other hother hsome => absurd (hnone other hother) hsome

theorem TableCounts.ops {seqs : ChannelId → List UInt32} {t t' : ChannelTable} (h : TableCounts seqs t)
    (ops : TableOps t t') : TableCounts seqs t' :=
  ops.invariant (fun _ _ h op => h.op op) h

/-- A live slot has the id that it was found by. -/
theorem TableCounts.found_id {seqs : ChannelId → List UInt32} {t : ChannelTable} (h : TableCounts seqs t)
    {id : ChannelId} {slot : ChannelSlot} (hfind : t.find id = some slot) : slot.id = id := by
  obtain ⟨hslot, hgeneration, _⟩ := ChannelTable.find_eq_some.mp hfind
  obtain ⟨hne, hget⟩ := ChannelTable.slot?_eq_some.mp hslot
  have hnumber : id.number.toNat ≠ 0 := fun h0 => hne (UInt32.toNat_inj.mp h0)
  have hnumbered := (h.slots _ slot hget).numbered
  have heq : slot.id.number = id.number := UInt32.toNat_inj.mp (by omega)
  calc slot.id = ⟨slot.id.number, slot.id.generation⟩ := rfl
    _ = ⟨id.number, id.generation⟩ := by rw [heq, hgeneration]

/-- The peer has half-closed the channel `id`. -/
def ChannelTable.RemoteClosed (t : ChannelTable) (id : ChannelId) : Prop :=
  ∃ slot, t.slot? id.number = some slot ∧ slot.id = id ∧ slot.remoteHalfClosed = true

theorem TableCounts.remoteClosed_op {seqs : ChannelId → List UInt32} {t t' : ChannelTable}
    (h : TableCounts seqs t) (op : TableOp t t') {id : ChannelId} (hclosed : t.RemoteClosed id) :
    t'.RemoteClosed id := by
  obtain ⟨slot, hslot, hid, hremote⟩ := hclosed
  obtain ⟨hne, hget⟩ := ChannelTable.slot?_eq_some.mp hslot
  cases op with
  | @update i found found' hfound busy keeps =>
    by_cases hi : id.number.toNat - 1 = i
    · rw [hi, hfound] at hget
      cases hget
      refine ⟨found', ChannelTable.slot?_eq_some.mpr ⟨hne, ?_⟩, keeps.id.trans hid,
        keeps.remoteHalfClosed hremote⟩
      rw [hi]
      exact ChannelTable.setAt_slot hfound found'
    · refine ⟨slot, ChannelTable.slot?_eq_some.mpr ⟨hne, ?_⟩, hid, hremote⟩
      rw [ChannelTable.setAt_slot_ne t hi]
      exact hget
  | @opened i found id' state hfound free busy generation numbered =>
    have hi : id.number.toNat - 1 ≠ i := by
      rintro rfl
      rw [hfound] at hget
      cases hget
      simp [((h.slots _ _ hfound).free free).2] at hremote
    refine ⟨slot, ChannelTable.slot?_eq_some.mpr ⟨hne, ?_⟩, hid, hremote⟩
    rw [ChannelTable.setAt_slot_ne t hi]
    exact hget

theorem TableCounts.remoteClosed_ops {seqs : ChannelId → List UInt32} {t t' : ChannelTable}
    (h : TableCounts seqs t) (ops : TableOps t t') {id : ChannelId} (hclosed : t.RemoteClosed id) :
    t'.RemoteClosed id := by
  induction ops with
  | refl => exact hclosed
  | tail before op ih => exact (h.ops before).remoteClosed_op op ih

/-- The deliveries with one more, number `sequence`, on channel `id`. -/
def withDelivery (seqs : ChannelId → List UInt32) (id : ChannelId) (sequence : UInt32) (other : ChannelId) :
    List UInt32 :=
  if other = id then seqs other ++ [sequence] else seqs other

theorem TableCounts.delivery {seqs : ChannelId → List UInt32} {t : ChannelTable} (h : TableCounts seqs t)
    {id : ChannelId} {slot slot' : ChannelSlot} (hfind : t.find id = some slot)
    (hslot : SlotDelivers t slot slot') :
    TableCounts (withDelivery seqs id slot.nextRecvSeq) (t.setSlot id.number slot') := by
  have hid := h.found_id hfind
  obtain ⟨hslot?, _, hlive⟩ := ChannelTable.find_eq_some.mp hfind
  obtain ⟨hne, hget⟩ := ChannelTable.slot?_eq_some.mp hslot?
  obtain ⟨hnumbered, _, n, hseqs, hnext⟩ := h.slots _ slot hget
  rw [hid] at hnumbered hseqs
  have hslotId : slot'.id = id := hslot.id.trans hid
  refine h.setAt hget ⟨by rw [hslotId]; exact hnumbered, ?_, n + 1, ?_, ?_⟩ ?_ ?_
  · intro hfree
    rw [hslot.state] at hfree
    exact absurd hfree (ChannelSlot.live_iff.mp hlive).1
  · rw [hslotId, withDelivery, if_pos rfl, hseqs, hnext, countUp_succ]
  · rw [hslot.nextRecvSeq, hnext]
    exact (UInt32.ofNat_add (n + 1) 1).symm
  · intro other hother
    have : other ≠ id := by
      rintro rfl
      exact hother hnumbered
    rw [withDelivery, if_neg this]
  · intro other hother hsome
    rw [hslotId]
    by_cases hsame : other = id
    · exact hsame.symm
    · rw [withDelivery, if_neg hsame] at hsome
      exact hid.symm.trans (h.owner hsome hother hget)

namespace ConnectionEngine

/-- The deliveries that the events of an engine record are those that its table counts. -/
structure Delivered (e : ConnectionEngine) : Prop where
  early : e.Unopened
  unopened : e.channels = none → ∀ id, deliveredSeqs e.events id = []
  counts : ∀ t, e.channels = some t → TableCounts (deliveredSeqs e.events) t

theorem Delivered.make (policy : LocalPolicy) (registry : PluginRegistry)
    (executor : Option (DeterministicExecutor EngineTask)) :
    Delivered (.make policy registry executor) :=
  ⟨fun _ => rfl, fun _ _ => rfl, fun _ h => nomatch h⟩

theorem Silent.seqs {e e' : ConnectionEngine} (h : Silent e e') :
    deliveredSeqs e'.events = deliveredSeqs e.events := by
  obtain ⟨more, hevents, hmore⟩ := h.events
  funext id
  rw [hevents, deliveredSeqs_append, deliveredSeqs_other hmore, List.append_nil]

theorem Delivered.silent {e e' : ConnectionEngine} (hi : Delivered e) (h : Silent e e') :
    Delivered e' := by
  have hchannels := h.channels
  refine ⟨hi.early.silent h, ?_, ?_⟩
  · intro hnone
    rw [h.seqs]
    rw [hnone] at hchannels
    apply hi.unopened
    generalize e.channels = channels at hchannels
    cases hchannels
    rfl
  · intro t' ht'
    rw [h.seqs]
    rw [ht'] at hchannels
    cases ht : e.channels with
    | none => rw [ht] at hchannels; cases hchannels
    | some t =>
      rw [ht] at hchannels
      obtain ⟨ops⟩ := hchannels
      exact (hi.counts t ht).ops ops

theorem negotiated_seqs (e : ConnectionEngine) (capabilities : CapabilitySet) :
    deliveredSeqs (e.negotiated capabilities).events = deliveredSeqs e.events := by
  funext id
  have hmore : ∀ event ∈ [({ kind := .negotiated } : ConnectionEvent)],
      event.kind ≠ .messageDelivered := by simp
  have happend := deliveredSeqs_append e.events [{ kind := .negotiated }] id
  rw [deliveredSeqs_other hmore, List.append_nil] at happend
  exact happend

theorem Delivered.negotiated {e : ConnectionEngine} (hi : Delivered e) (h : e.state = .negotiating)
    (capabilities : CapabilitySet) : Delivered (e.negotiated capabilities) := by
  refine ⟨?_, fun h => (Option.some_ne_none _ h).elim, ?_⟩
  · rintro (hstate | hstate) <;> cases hstate
  · intro t ht
    cases ht
    rw [negotiated_seqs, funext (hi.unopened (hi.early (.inr h)))]
    exact .make _ _ _

theorem delivered_seqs (e : ConnectionEngine) (t : ChannelTable) (id : ChannelId)
    (slot slot' : ChannelSlot) (payload : Bytes) :
    deliveredSeqs (e.delivered t id slot slot' payload).events =
      withDelivery (deliveredSeqs e.events) id slot.nextRecvSeq :=
  funext fun other => deliveredSeqs_delivered e.events id other slot.nextRecvSeq payload

theorem Delivered.step {e e' : ConnectionEngine} (hi : Delivered e) (h : Step e e') :
    Delivered e' := by
  cases h with
  | silent h => exact hi.silent h
  | @hello _ _ capabilities hnegotiating _ _ h =>
    exact (hi.negotiated hnegotiating capabilities).silent h
  | delivers h =>
    obtain ⟨t, id, slot, slot', payload, ht, hactive, hfind, hremote, hslot, h⟩ := h
    have hdelivered : Delivered (e.delivered t id slot slot' payload) := by
      have hstep : Step e (e.delivered t id slot slot' payload) :=
        .delivers ⟨t, id, slot, slot', payload, ht, hactive, hfind, hremote, hslot, .refl _⟩
      refine ⟨hi.early.step hstep, fun h => (Option.some_ne_none _ h).elim, ?_⟩
      · intro t' ht'
        cases ht'
        rw [delivered_seqs]
        exact (hi.counts t ht).delivery hfind hslot
    exact hdelivered.silent h

/-- The peer has half-closed the channel `id` of the engine. -/
def RemoteClosed (e : ConnectionEngine) (id : ChannelId) : Prop :=
  ∃ t, e.channels = some t ∧ t.RemoteClosed id

/-- The channel `id` is live, and its peer has not half-closed it. -/
def Receiving (e : ConnectionEngine) (id : ChannelId) : Prop :=
  ∃ t slot, e.channels = some t ∧ t.find id = some slot ∧ slot.remoteHalfClosed = false

/-- A step delivers at most one message, and only on a channel that can receive. -/
theorem Step.receiving {e e' : ConnectionEngine} (h : Step e e') (id : ChannelId) :
    deliveredSeqs e'.events id = deliveredSeqs e.events id ∨
      e.Receiving id ∧
        ∃ sequence, deliveredSeqs e'.events id = deliveredSeqs e.events id ++ [sequence] := by
  cases h with
  | silent h => exact .inl (by rw [h.seqs])
  | hello _ _ _ h => exact .inl (by rw [h.seqs, negotiated_seqs])
  | delivers h =>
    obtain ⟨t, found, slot, slot', payload, ht, _, hfind, hremote, _, h⟩ := h
    rw [h.seqs, delivered_seqs, withDelivery]
    split
    next heq =>
      subst heq
      exact .inr ⟨⟨t, slot, ht, hfind, hremote⟩, slot.nextRecvSeq, rfl⟩
    next => exact .inl rfl

theorem Silent.remoteClosed {e e' : ConnectionEngine} (hi : Delivered e) (h : Silent e e')
    {id : ChannelId} (hclosed : e.RemoteClosed id) : e'.RemoteClosed id := by
  obtain ⟨t, ht, hclosed⟩ := hclosed
  have hchannels := h.channels
  rw [ht] at hchannels
  cases ht' : e'.channels with
  | none => rw [ht'] at hchannels; cases hchannels
  | some t' =>
    rw [ht'] at hchannels
    obtain ⟨ops⟩ := hchannels
    exact ⟨t', ht', (hi.counts t ht).remoteClosed_ops ops hclosed⟩

/-- What a peer has half-closed stays so, and nothing more is delivered there. -/
theorem Step.remoteClosed {e e' : ConnectionEngine} (hi : Delivered e) (h : Step e e') {id : ChannelId}
    (hclosed : e.RemoteClosed id) :
    e'.RemoteClosed id ∧ deliveredSeqs e'.events id = deliveredSeqs e.events id := by
  cases h with
  | silent h => exact ⟨h.remoteClosed hi hclosed, by rw [h.seqs]⟩
  | hello hnegotiating _ _ _ =>
    obtain ⟨t, ht, _⟩ := hclosed
    rw [hi.early (.inr hnegotiating)] at ht
    cases ht
  | delivers h =>
    obtain ⟨t, id', slot, slot', payload, ht, hactive, hfind, hremote, hslot, h⟩ := h
    have hcounts := hi.counts t ht
    have hdelivered : Delivered (e.delivered t id' slot slot' payload) :=
      hi.step (.delivers ⟨t, id', slot, slot', payload, ht, hactive, hfind, hremote, hslot, .refl _⟩)
    obtain ⟨_, ht', closed, hclosed, hid, hset⟩ := hclosed
    rw [ht] at ht'
    cases ht'
    obtain ⟨hslot?, _, _⟩ := ChannelTable.find_eq_some.mp hfind
    have hne : id ≠ id' := by
      rintro rfl
      rw [hslot?] at hclosed
      cases hclosed
      rw [hremote] at hset
      cases hset
    have hnumber : id.number ≠ id'.number := by
      intro heq
      rw [heq, hslot?] at hclosed
      cases hclosed
      exact hne (hid.symm.trans (hcounts.found_id hfind))
    refine ⟨h.remoteClosed hdelivered ⟨_, rfl, closed, ?_, hid, hset⟩, ?_⟩
    · rw [ChannelTable.slot?_setSlot_ne t hnumber (ChannelTable.slot?_ne_zero hslot?)]
      exact hclosed
    · rw [h.seqs, delivered_seqs, withDelivery, if_neg hne]

/-- Whatever bytes arrive and whatever calls are made: on each channel the messages are delivered as
number 1, 2, 3 and so on, only while it is live and its peer has not half-closed it, and none later. -/
theorem deliveries_in_order (policy : LocalPolicy) (registry : PluginRegistry)
    (executor : Option (DeterministicExecutor EngineTask)) (calls : List Call) :
    let path := make policy registry executor :: (make policy registry executor).visited calls
    (∀ e ∈ path, ∀ id, (deliveredSeqs e.events id).length < 2 ^ 32 - 1 →
      (deliveredSeqs e.events id).map UInt32.toNat =
        List.range' 1 (deliveredSeqs e.events id).length) ∧
    path.IsChain (fun e e' => ∀ id, deliveredSeqs e'.events id = deliveredSeqs e.events id ∨
      e.Receiving id ∧ ∃ sequence,
        deliveredSeqs e'.events id = deliveredSeqs e.events id ++ [sequence]) ∧
    ∀ id, path.Pairwise (fun e e' => e.RemoteClosed id →
      deliveredSeqs e'.events id = deliveredSeqs e.events id) := by
  intro path
  have hmake : Delivered (.make policy registry executor) := .make policy registry executor
  have hstep : ∀ e e' : ConnectionEngine, Delivered e → Step e e' → Delivered e' :=
    fun _ _ hi h => hi.step h
  obtain ⟨hall, hchain⟩ := isChain_invariant hstep hmake
    (visited_steps (make policy registry executor) calls).1
  refine ⟨?_, ?_, ?_⟩
  · intro e he id hlength
    have hi := hall e he
    by_cases hnil : deliveredSeqs e.events id = []
    · rw [hnil]
      rfl
    · cases ht : e.channels with
      | none => exact absurd (hi.unopened ht id) hnil
      | some t =>
        obtain ⟨slot, hslot, rfl⟩ := (hi.counts t ht).owned id hnil
        obtain ⟨_, _, n, hseqs, _⟩ := (hi.counts t ht).slots _ slot hslot
        have hn : (countUp n).length = n := by simp [countUp]
        rw [hseqs, hn] at hlength ⊢
        exact countUp_toNat (by omega)
  · exact hchain.imp fun e e' h id => h.2.receiving id
  · intro id
    exact isChain_frozen (hchain.imp fun e e' h => h.2.remoteClosed h.1)

end ConnectionEngine

end LatticeGateway
