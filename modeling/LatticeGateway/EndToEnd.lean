import LatticeGateway.DataReceiving

namespace LatticeGateway

open Runs

/-- A slot of the sender's table and the receiver's for the same channel, between two messages. -/
structure SlotsMatch (t' : ChannelTable) (slot slot' : ChannelSlot) : Prop where
  remoteOpen : slot'.remoteHalfClosed = false
  flow : slot'.flow = .ofWindow t'.channelWindow
  next : slot'.nextRecvSeq = slot.nextSendSeq
  maxMessage : slot'.reassembler.maxMessage = t'.maxMessage
  empty : ∃ sequence total, slot'.reassembler.Holds sequence total []

/-- The tables of the two ends, with the same `n` channels open. -/
structure TablesMatch (t t' : ChannelTable) (n : Nat) : Prop where
  left : t.Filled n
  right : t'.Filled n
  length : t'.slots.length = t.slots.length
  slots : ∀ (i : Nat) (slot slot' : ChannelSlot), i < n → t.slots[i]? = some slot →
    t'.slots[i]? = some slot' → SlotsMatch t' slot slot'

theorem ChannelTable.Filled.setAt {t : ChannelTable} {n i : Nat} (h : t.Filled n) {slot slot' : ChannelSlot}
    (hslot : t.slots[i]? = some slot) (hid : slot'.id = slot.id) (hstate : slot'.state = slot.state) :
    (t.setAt i slot').Filled n := by
  have hlength : (t.setAt i slot').slots.length = t.slots.length := List.length_set
  have hnumber : slot'.id.number.toNat = i + 1 := by
    rw [hid]
    exact h.numbered i slot hslot
  refine ⟨h.numbered.setAt hnumber, ?_, ?_, by rw [hlength]; exact h.small⟩
  · intro j other hj hlt
    rcases ChannelTable.setAt_cases hj with ⟨rfl, rfl⟩ | ⟨_, hold⟩
    · rw [hid, hstate]
      exact h.taken j slot hslot hlt
    · exact h.taken j other hold hlt
  · intro j other hj hle
    rcases ChannelTable.setAt_cases hj with ⟨rfl, rfl⟩ | ⟨_, hold⟩
    · rw [hid, hstate]
      exact h.free j slot hslot hle
    · exact h.free j other hold hle

theorem TablesMatch.setAt {t t' : ChannelTable} {n i : Nat} (h : TablesMatch t t' n)
    {slot slot' next next' : ChannelSlot} (hslot : t.slots[i]? = some slot)
    (hslot' : t'.slots[i]? = some slot') (hid : next.id = slot.id) (hstate : next.state = slot.state)
    (hid' : next'.id = slot'.id) (hstate' : next'.state = slot'.state) (hmatch : SlotsMatch t' next next') :
    TablesMatch (t.setAt i next) (t'.setAt i next') n := by
  have hlength : (t.setAt i next).slots.length = t.slots.length := List.length_set
  have hlength' : (t'.setAt i next').slots.length = t'.slots.length := List.length_set
  refine ⟨h.left.setAt hslot hid hstate, h.right.setAt hslot' hid' hstate',
    by rw [hlength, hlength', h.length], ?_⟩
  intro j one other hj hone hother
  rcases ChannelTable.setAt_cases hone with ⟨rfl, rfl⟩ | ⟨hji, hone⟩
  · obtain rfl := Option.some.inj ((ChannelTable.setAt_slot hslot' next').symm.trans hother)
    exact ⟨hmatch.remoteOpen, hmatch.flow, hmatch.next, hmatch.maxMessage, hmatch.empty⟩
  · rw [ChannelTable.setAt_slot_ne t' hji] at hother
    have hold := h.slots j one other hj hone hother
    exact ⟨hold.remoteOpen, hold.flow, hold.next, hold.maxMessage, hold.empty⟩

theorem TablesMatch.taken {t t' : ChannelTable} {n : Nat} (h : TablesMatch t t' n)
    (hn : n < t.slots.length) : TablesMatch (t.taken n) (t'.taken n) (n + 1) := by
  have hlength : (t.taken n).slots.length = t.slots.length := List.length_set
  have hlength' : (t'.taken n).slots.length = t'.slots.length := List.length_set
  have hn' : n < t'.slots.length := by rw [h.length]; exact hn
  refine ⟨h.left.fill hn, h.right.fill hn', by rw [hlength, hlength', h.length], ?_⟩
  intro j one other hj hone hother
  rcases ChannelTable.setAt_cases hone with ⟨rfl, rfl⟩ | ⟨hjn, hone⟩
  · obtain rfl := Option.some.inj
      ((ChannelTable.setAt_slot (List.getElem?_eq_getElem hn') _).symm.trans hother)
    refine ⟨rfl, rfl, rfl, rfl, 0, 0, ?_, fun _ _ => rfl, rfl⟩
    rw [if_pos rfl]
    rfl
  · have hold' : t'.slots[j]? = some other := (ChannelTable.setAt_slot_ne t' hjn _).symm.trans hother
    have hold := h.slots j one other (by omega) hone hold'
    exact ⟨hold.remoteOpen, hold.flow, hold.next, hold.maxMessage, hold.empty⟩

/-- A channel that is live on one side is so on the other. -/
theorem TablesMatch.find {t t' : ChannelTable} {n : Nat} (h : TablesMatch t t' n) {id : ChannelId}
    {slot : ChannelSlot} (hfind : t.find id = some slot) : ∃ slot', t'.find id = some slot' ∧
      SlotsMatch t' slot slot' ∧ t.slots[id.number.toNat - 1]? = some slot ∧
      t'.slots[id.number.toNat - 1]? = some slot' ∧ id.number ≤ kMaxChannelNo := by
  obtain ⟨hslot, hgeneration, hlive⟩ := ChannelTable.find_eq_some.mp hfind
  obtain ⟨hne, hget⟩ := ChannelTable.slot?_eq_some.mp hslot
  have hlt := (List.getElem?_eq_some_iff.mp hget).1
  have hsmall := h.left.small
  have hopen : id.number.toNat - 1 < n := by
    by_contra hge
    exact (ChannelSlot.live_iff.mp hlive).1 (h.left.free _ slot hget (by omega)).1
  obtain ⟨slot', hget'⟩ : ∃ slot', t'.slots[id.number.toNat - 1]? = some slot' :=
    ⟨_, List.getElem?_eq_getElem (by rw [h.length]; exact hlt)⟩
  obtain ⟨hstate', hgeneration'⟩ := h.right.taken _ _ hget' hopen
  have hsame := (h.left.taken _ slot hget hopen).2
  refine ⟨_, ChannelTable.find_eq_some.mpr ⟨ChannelTable.slot?_eq_some.mpr ⟨hne, hget'⟩, ?_, ?_⟩,
    h.slots _ slot _ hopen hget hget', hget, hget', ?_⟩
  · rw [hgeneration', ← hgeneration, hsame]
  · exact ChannelSlot.live_iff.mpr (by simp [hstate'])
  · refine UInt32.le_iff_toNat_le.mpr ?_
    change id.number.toNat ≤ 0x00FFFFFF
    omega

namespace ConnectionEngine

/-- What the sender calls. -/
inductive SenderCall
  | openChannel (request : OpenRequest)
  | ping (token : UInt64)
  | send (id : ChannelId) (payload : Bytes) (nonempty : payload ≠ [])

/-- Two engines, one of which receives what the other sends, and the payloads that the sender's `send`
has taken, with their channels. -/
structure Conversation where
  a : ConnectionEngine
  b : ConnectionEngine
  sent : List (ChannelId × Bytes) := []

def Conversation.step (c : Conversation) : SenderCall → Conversation
  | .openChannel request =>
    match c.a.openChannel request with
    | (.error _, a) => { c with a }
    | (.ok (_, chunks), a) => { c with a, b := c.b.receiveAll chunks }
  | .ping token =>
    match c.a.ping token with
    | (.error _, a) => { c with a }
    | (.ok chunks, a) => { c with a, b := c.b.receiveAll chunks }
  | .send id payload _ =>
    match c.a.send id payload with
    | (.error _, a) => { c with a }
    | (.ok chunks, a) => { a, b := c.b.receiveAll chunks, sent := c.sent ++ [(id, payload)] }

/-- On every channel the receiver has delivered what the sender's `send` has taken, in order, once. -/
def Conversation.Exact (c : Conversation) : Prop :=
  ∀ id, (messages c.b.events).filter (·.1 = id) = c.sent.filter (·.1 = id)

/-- The capabilities and the slot with which `send` goes on to take a sequence number. -/
def checked (e : ConnectionEngine) (id : ChannelId) (payload : Bytes) :
    Option (CapabilitySet × ChannelSlot) :=
  match e.channels, e.capabilities with
  | some channels, some capabilities =>
    match channels.find id with
    | none => none
    | some slot =>
      if e.state = .active ∧ slot.localHalfClosed = false ∧ payload.length ≤ capabilities.maxMessage ∧
          (slot.flow.reserve payload.length).1 = .ok () then some (capabilities, slot)
      else none
  | _, _ => none

theorem Sendable.checked {e : ConnectionEngine} {id : ChannelId} {payload : Bytes}
    {caps : CapabilitySet} {t : ChannelTable} {slot : ChannelSlot} {flow : FlowAccount}
    (h : e.Sendable id payload caps t slot flow) : e.checked id payload = some (caps, slot) := by
  unfold ConnectionEngine.checked
  rw [h.channels, h.capabilities]
  dsimp only
  rw [h.found]
  dsimp only
  rw [if_pos ⟨h.active, h.localOpen, h.cap, congrArg Prod.fst h.reserved⟩]

/-- The longest fragment of a `send` under the capabilities. -/
def maxFragment (caps : CapabilitySet) : Nat := max 1 (caps.maxFrame / 2)

/-- The receiver's own limits let the message through. -/
def takes (e : ConnectionEngine) (size fragment : Nat) : Bool :=
  match e.capabilities with
  | none => false
  | some caps => size ≤ caps.maxMessage && fragment ≤ caps.connectionWindow / caps.maxChannels.toNat

/-- Each call finds what its frames need: frame numbers that the replay window of their sender does not
hold; for the DATA frames of a `send`, a scheduler that expects the first of them on its channel or none
yet; a receiver whose limits let the message through, and whose plugin does not answer it by closing. -/
def Conversation.Unhindered (c : Conversation) : SenderCall → Prop
  | .openChannel _ => c.a.replay.contains c.a.nextFrameSeq = false
  | .ping _ => c.a.replay.contains c.a.nextFrameSeq = true ∨ c.b.replay.contains c.b.nextFrameSeq = false
  | .send id payload _ => ∀ p ∈ c.a.checked id payload,
    Passable c.a id (fragments (maxFragment p.1) payload payload.length 0).length ∧
    c.b.takes payload.length (min payload.length (maxFragment p.1)) = true ∧
    c.b.answersClose { channel := id, sequence := p.2.nextSendSeq, payload } = false

instance (e : ConnectionEngine) (id : ChannelId) (count : Nat) : Decidable (Passable e id count) :=
  decidable_of_iff ((e.scheduler.expected id.number = 0 ∨ e.scheduler.expected id.number = e.nextFrameSeq) ∧
      ∀ i < count, e.replay.contains (e.nextFrameSeq + UInt32.ofNat i) = false)
    ⟨fun h => ⟨h.1, h.2⟩, fun h => ⟨h.expected, h.numbers⟩⟩

instance (c : Conversation) (call : SenderCall) : Decidable (c.Unhindered call) := by
  unfold Conversation.Unhindered
  cases call with
  | openChannel => exact inferInstance
  | ping => exact inferInstance
  | send => exact Option.decidableForallMem _

/-- Both ends are ready, agree on their tables, and all that was sent is delivered. -/
structure Conversation.Synced (c : Conversation) (capsA capsB : CapabilitySet) : Prop where
  paired : Paired c.a c.b capsA capsB
  tables : ∃ t t' n, c.a.channels = some t ∧ c.b.channels = some t' ∧ TablesMatch t t' n ∧
    t'.channelWindow = capsB.connectionWindow / capsB.maxChannels.toNat ∧
    t'.maxMessage = capsB.maxMessage
  delivered : messages c.b.events = c.sent

theorem Paired.moved {a b a' b' : ConnectionEngine} {capsA capsB : CapabilitySet}
    (h : Paired a b capsA capsB) (ha : Ready a' capsA) (hb : Ready b' capsB)
    (helloA : a'.localHello = a.localHello) (helloB : b'.localHello = b.localHello) :
    Paired a' b' capsA capsB := by
  refine ⟨ha, hb, ?_, ?_⟩
  · rw [helloA, helloB]
    exact h.agreedA
  · rw [helloA, helloB]
    exact h.agreedB

theorem Conversation.Synced.openChannel {c : Conversation} {capsA capsB : CapabilitySet}
    (h : c.Synced capsA capsB) {request : OpenRequest} (hnext : c.Unhindered (.openChannel request)) :
    (c.step (.openChannel request)).Synced capsA capsB := by
  obtain ⟨t, t', n, ht, ht', hmatch, hwindow, hmax⟩ := h.tables
  unfold Conversation.step
  rcases h.paired.readyA.openChannel_cases ht hmatch.left hnext request with
    ⟨error, herror⟩ | ⟨hserves, hn, a, hopensA, _, hok⟩
  · dsimp only
    rw [herror]
    exact h
  · have hn' : n < t'.slots.length := by rw [hmatch.length]; exact hn
    obtain ⟨b, hopensB, _, hreceive⟩ := h.paired.readyB.handleOpen_ok ht' hmatch.right.used
      (Nat.lt_irrefl n) hn'
      ((h.paired.serves _).mp hserves) c.a.nextFrameSeq
    obtain ⟨hreadyA, hchannelsA, hhelloA⟩ := h.paired.readyA.opens hopensA
    obtain ⟨hreadyB, hchannelsB, hhelloB⟩ := h.paired.readyB.opens hopensB
    dsimp only
    rw [hok]
    unfold receiveAll
    dsimp only
    rw [List.foldl_cons, List.foldl_nil, hreceive]
    refine ⟨h.paired.moved hreadyA hreadyB hhelloA hhelloB, ⟨_, _, n + 1, hchannelsA, hchannelsB,
      hmatch.taken hn, hwindow, hmax⟩, ?_⟩
    obtain ⟨_, _, _, rfl⟩ := hopensB
    change messages (c.b.events ++ _) = _
    rw [messages_append, h.delivered]
    exact List.append_nil _

/-- A PING that goes out is answered, and no more. -/
theorem Conversation.Synced.ping {c : Conversation} {capsA capsB : CapabilitySet}
    (h : c.Synced capsA capsB) {token : UInt64} (hnext : c.Unhindered (.ping token)) :
    (c.step (.ping token)).Synced capsA capsB := by
  have hreadyA := h.paired.readyA
  have hreadyB := h.paired.readyB
  have hsmall : ∀ type frameSeq, Frame.Small { type, frameSeq, payload := u64Bytes token } :=
    fun type frameSeq => ⟨rfl, show (0 : UInt32) ≤ kMaxChannelNo by decide, rfl,
      Nat.le_of_eq (length_u64Bytes token)⟩
  unfold Conversation.step ConnectionEngine.ping
  by_cases hheld : c.a.replay.contains c.a.nextFrameSeq = true
  · obtain ⟨error, hrefused⟩ := hreadyA.refuses (hsmall .ping _) hheld
    dsimp only
    rw [hrefused]
    have hready : Ready { c.a with nextFrameSeq := c.a.nextFrameSeq + 1 } capsA :=
      hreadyA.of_same rfl rfl rfl rfl rfl rfl
    exact ⟨h.paired.moved hready hreadyB rfl rfl, h.tables, h.delivered⟩
  · have hfree := hnext.resolve_left hheld
    have hsent := hreadyA.sends (by decide) (hsmall .ping _) (by simpa using hheld)
    have hpong := hreadyB.sends (by decide) (hsmall .pong _) hfree
    have hhandled : c.b.handleFrame { type := .ping, frameSeq := c.a.nextFrameSeq
                                      payload := u64Bytes token } =
        c.b.emitFrame .pong {} (u64Bytes token) := by
      change c.b.handlePing _ = _
      unfold handlePing decodeU64Be
      rw [if_neg (show ¬ ({} : ChannelId).isControl = false by decide),
        if_neg (not_not.mpr (length_u64Bytes token)), u64Of_u64Bytes]
    have hreceive : (c.b.receive (plainBytes { type := .ping, frameSeq := c.a.nextFrameSeq
                                               payload := u64Bytes token }) false).2 =
        (c.b.emitFrame .pong {} (u64Bytes token)).2 := by
      rw [hreadyB.receives (hsmall .ping _), handleEvent_ok (hhandled.trans hpong), hpong]
    dsimp only
    rw [hsent]
    unfold receiveAll
    dsimp only
    rw [List.foldl_cons, List.foldl_nil, hreceive, hpong]
    refine ⟨h.paired.moved ?_ ?_ rfl rfl, h.tables, h.delivered⟩
    · exact hreadyA.of_same rfl rfl rfl rfl rfl rfl
    · exact hreadyB.of_same rfl rfl rfl rfl rfl rfl

theorem Paired.sends {a b : ConnectionEngine} {capsA capsB : CapabilitySet}
    (h : Paired a b capsA capsB) : Sends a capsA.maxFrame ∧ capsA.maxFrame ≤ b.codec.limits.maxFrame ∧
      capsA.maxMessage < 2 ^ 32 := by
  have hframe : capsA.maxFrame = min a.policy.maxFrame (b.policy.maxFrame % 2 ^ 32) := h.agreedA.maxFrame
  have hmessage : capsA.maxMessage = min a.policy.maxMessage (b.policy.maxMessage % 2 ^ 32) :=
    h.agreedA.maxMessage
  have hconnection : capsA.connectionWindow =
      min a.policy.connectionWindow (b.policy.connectionWindow % 2 ^ 32) := h.agreedA.connectionWindow
  have hge := h.agreedA.frame_ge
  have hwindow := h.agreedA.window_ge
  have hcodecA := h.readyA.frames
  have hcodecB := h.readyB.frames
  have hcut : b.policy.maxFrame % 2 ^ 32 ≤ b.policy.maxFrame := Nat.mod_le _ _
  have hsmallFrame : b.policy.maxFrame % 2 ^ 32 < 2 ^ 32 := Nat.mod_lt _ (by decide)
  have hsmallMessage : b.policy.maxMessage % 2 ^ 32 < 2 ^ 32 := Nat.mod_lt _ (by decide)
  exact ⟨⟨hge, by omega, by omega, by omega⟩, by omega, by omega⟩

theorem Paired.half_fragment {a b : ConnectionEngine} {capsA capsB : CapabilitySet}
    (h : Paired a b capsA capsB) :
    maxFragment capsA = capsA.maxFrame / 2 ∧ 0 < maxFragment capsA := by
  have hge := h.sends.1.ge
  unfold maxFragment
  omega

/-- The sender's side of a `send`: each round goes out in its own chunk. -/
theorem Paired.sendFrames_passes {a b : ConnectionEngine} {capsA capsB : CapabilitySet}
    (h : Paired a b capsA capsB) {id : ChannelId} {payload : Bytes} {t : ChannelTable} {slot : ChannelSlot}
    {flow : FlowAccount} (hsendable : a.Sendable id payload capsA t slot flow)
    (hnumber : id.number ≤ kMaxChannelNo)
    (hpass : Passable a id (fragments (maxFragment capsA) payload payload.length 0).length) :
    ∃ chunks after, a.sendFrames capsA t id slot flow payload = (.ok chunks, after) ∧
      Ready after capsA ∧
      SentFrom { a with channels := some (t.setSlot id.number (sending slot flow)) } after ∧
      List.Forall₂ (fun frame chunk => a.codec.encode frame = .ok chunk ∧ chunk.length ≤ capsA.maxFrame)
        (dataFrames id slot.nextSendSeq payload.length a.nextFrameSeq
          (fragments (maxFragment capsA) payload payload.length 0)) chunks := by
  obtain ⟨hsends, _, hsmall⟩ := h.sends
  obtain ⟨hhalf, hpos⟩ := h.half_fragment
  have hcap := hsendable.cap
  have hcount := fragments_length (maxFragment capsA) payload payload.length 0
  have hrounds : ∀ round ∈ fragments (maxFragment capsA) payload payload.length 0,
      round.2.length ≤ capsA.maxFrame / 2 := by
    intro round hround
    have hlength := (fragments_round hpos payload hround).2
    omega
  have hready : Ready { a with channels := some (t.setSlot id.number (sending slot flow)) } capsA :=
    h.readyA.of_same rfl rfl rfl rfl rfl rfl
  obtain ⟨chunks, after, hloop, hafter, hchunks⟩ := sendLoop_passes hnumber slot.nextSendSeq
    payload.length (fragments (maxFragment capsA) payload payload.length 0) hready
    ⟨hsends.ge, hsends.lt, hsends.codec, hsends.window⟩ ⟨hpass.expected, hpass.numbers⟩ (by omega)
    hrounds []
  have hsent := sendLoop_sent id slot.nextSendSeq payload.length
    (fragments (maxFragment capsA) payload payload.length 0)
    { a with channels := some (t.setSlot id.number (sending slot flow)) } []
  rw [hloop] at hsent
  rw [List.nil_append] at hloop
  exact ⟨chunks, after, hloop, hafter, hsent, hchunks⟩

/-- The receiver's side: the chunks are put together again. -/
theorem Paired.receives_message {a b : ConnectionEngine} {capsA capsB : CapabilitySet}
    (h : Paired a b capsA capsB) {t' : ChannelTable} {id : ChannelId} {slot slot' : ChannelSlot}
    (hslots : SlotsMatch t' slot slot') (ht' : b.channels = some t') (hfind' : t'.find id = some slot')
    (hwindow : t'.channelWindow = capsB.connectionWindow / capsB.maxChannels.toNat)
    (hmax : t'.maxMessage = capsB.maxMessage) {payload : Bytes} (hne : payload ≠ [])
    (hcap : payload.length ≤ capsA.maxMessage)
    (htakes : b.takes payload.length (min payload.length (maxFragment capsA)) = true)
    (hclose : b.answersClose { channel := id, sequence := slot.nextSendSeq, payload } = false)
    {frameSeq : UInt32} {chunks : List Bytes}
    (hchunks : List.Forall₂ (fun frame chunk => a.codec.encode frame = .ok chunk ∧
        chunk.length ≤ capsA.maxFrame)
      (dataFrames id slot.nextSendSeq payload.length frameSeq
        (fragments (maxFragment capsA) payload payload.length 0)) chunks) :
    Received b (b.receiveAll chunks) capsB t' id slot' payload := by
  obtain ⟨_, hlimit, hsmall⟩ := h.sends
  obtain ⟨_, hpos⟩ := h.half_fragment
  unfold takes at htakes
  rw [h.readyB.capabilities] at htakes
  obtain ⟨hmessage, hfragment⟩ : payload.length ≤ capsB.maxMessage ∧ min payload.length
      (maxFragment capsA) ≤ capsB.connectionWindow / capsB.maxChannels.toNat := by simpa using htakes
  have hjoin := @fragments_join (maxFragment capsA) hpos payload payload.length 0 (by omega)
  rw [List.drop_zero] at hjoin
  have hnonempty : fragments (maxFragment capsA) payload payload.length 0 ≠ [] := by
    intro hnil
    rw [hnil] at hjoin
    exact hne hjoin.symm
  have hrounds : ∀ round ∈ fragments (maxFragment capsA) payload payload.length 0,
      round.2 ≠ [] ∧ round.2.length ≤ t'.channelWindow := by
    intro round hround
    obtain ⟨hround, hlength⟩ := fragments_round hpos payload hround
    exact ⟨hround, by omega⟩
  have hassembling : Assembling b capsB t' id slot' payload.length [] := by
    obtain ⟨_, _, hholds⟩ := hslots.empty
    have hconnection : capsB.connectionWindow = min b.policy.connectionWindow
      (a.policy.connectionWindow % 2 ^ 32) := h.agreedB.connectionWindow
    have hcut : a.policy.connectionWindow % 2 ^ 32 < 2 ^ 32 := Nat.mod_lt _ (by decide)
    refine ⟨h.readyB, ht', hfind', hslots.remoteOpen, ?_, hslots.flow, hholds.next _ _, ?_, by omega⟩
    · rw [hwindow]
      exact Nat.lt_of_le_of_lt (Nat.div_le_self _ _) (by omega)
    · rw [hslots.maxMessage, hmax]
      exact hmessage
  rw [← hslots.next] at hchunks hclose
  have hall := Assembling.receives h.readyA.codec hnonempty hassembling hlimit
    (fragments_chained payload payload.length 0) hrounds (by rw [hjoin]; exact Nat.zero_add _)
    (by rw [hjoin]; exact hclose) hchunks
  rwa [hjoin] at hall

/-- A `send` that is taken is delivered whole. -/
theorem Conversation.Synced.send {c : Conversation} {capsA capsB : CapabilitySet}
    (h : c.Synced capsA capsB) {id : ChannelId} {payload : Bytes} (hne : payload ≠ [])
    (hfree : c.Unhindered (.send id payload hne)) : (c.step (.send id payload hne)).Synced capsA capsB := by
  obtain ⟨t, t', n, ht, ht', hmatch, hwindow, hmax⟩ := h.tables
  unfold Conversation.step
  rcases send_cases c.a id payload with
    ⟨error, herror⟩ | ⟨caps, table, slot, flow, hsendable, ⟨_, error, herror⟩ | ⟨_, hsend⟩⟩
  · dsimp only
    rw [herror]
    exact h
  · obtain rfl := Option.some.inj (ht.symm.trans hsendable.channels)
    obtain ⟨slot', _, hslots, hslot, hslot', _⟩ := hmatch.find hsendable.found
    dsimp only
    rw [herror]
    refine ⟨h.paired.moved (h.paired.readyA.of_same rfl rfl rfl rfl rfl rfl) h.paired.readyB rfl rfl,
      ⟨_, t', n, rfl, ht', ?_, hwindow, hmax⟩, h.delivered⟩
    have hsame : t'.setAt (id.number.toNat - 1) slot' = t' := by
      unfold ChannelTable.setAt
      rw [← (List.getElem?_eq_some_iff.mp hslot').2, List.set_getElem_self]
    have hset := @TablesMatch.setAt _ _ _ _ hmatch _ _
      { slot with flow := (flow.release payload.length).2 } slot' hslot hslot' rfl rfl rfl rfl
      ⟨hslots.remoteOpen, hslots.flow, hslots.next, hslots.maxMessage, hslots.empty⟩
    rw [hsame] at hset
    exact hset
  · obtain rfl := Option.some.inj (ht.symm.trans hsendable.channels)
    obtain rfl := Option.some.inj (h.paired.readyA.capabilities.symm.trans hsendable.capabilities)
    obtain ⟨slot', hfind', hslots, hslot, hslot', hnumber⟩ := hmatch.find hsendable.found
    obtain ⟨hpass, htakes, hclose⟩ := hfree _ hsendable.checked
    obtain ⟨chunks, after, hframes, hafter, hsent, hchunks⟩ :=
      h.paired.sendFrames_passes hsendable hnumber hpass
    have hreceived := h.paired.receives_message hslots ht' hfind' hwindow hmax hne hsendable.cap htakes
      hclose hchunks
    rw [hframes] at hsend
    dsimp only
    rw [hsend]
    dsimp only
    obtain ⟨_, _, _, rfl⟩ := hsent
    obtain ⟨reassembler, sequence, total, hsame, hholds, hchannels⟩ := hreceived.channels
    refine ⟨h.paired.moved (hafter.of_same rfl rfl rfl rfl rfl rfl) hreceived.ready rfl hreceived.hello,
      ⟨_, _, n, rfl, hchannels, ?_, hwindow, hmax⟩, hreceived.messages.trans (by rw [h.delivered])⟩
    refine hmatch.setAt hslot hslot' rfl rfl rfl rfl ⟨hslots.remoteOpen, hslots.flow, ?_,
      hsame.trans hslots.maxMessage, sequence, total, hholds⟩
    exact congrArg (· + 1) hslots.next

theorem Conversation.Synced.step {c : Conversation} {capsA capsB : CapabilitySet} {call : SenderCall}
    (h : c.Synced capsA capsB) (hfree : c.Unhindered call) : (c.step call).Synced capsA capsB := by
  cases call with
  | openChannel request => exact h.openChannel hfree
  | ping token => exact h.ping hfree
  | send id payload hne => exact h.send hne hfree

theorem synced_start {a b a' b' : ConnectionEngine} (ha : Fresh a) (hb : Fresh b)
    (h : helloExchange a b = some (a', b')) :
    ∃ capsA capsB, Conversation.Synced { a := a', b := b' } capsA capsB := by
  obtain ⟨_, _, startedA, startedB, capsA, capsB, _, _, _, hunusedB, rfl, rfl, hpaired⟩ :=
    helloExchange_ok ha hb h
  refine ⟨capsA, capsB, hpaired, ⟨_, _, 0, rfl, rfl, ?_, rfl, rfl⟩, ?_⟩
  · refine ⟨.make _ _ _, .make _ _ _, ?_, fun i _ _ hi => (by omega)⟩
    simp [ChannelTable.make, hpaired.maxChannels]
  · change messages (startedB.events ++ _) = []
    rw [hunusedB.events]
    rfl

/-- Whatever the sender opens, pings and sends, its receiver delivers the same in the same order, as long as
no call is hindered. -/
theorem delivered_exactly {a b a' b' : ConnectionEngine} (ha : Fresh a) (hb : Fresh b)
    (hhello : helloExchange a b = some (a', b')) (calls : List SenderCall)
    (h : Along Conversation.step Conversation.Unhindered { a := a', b := b' } calls) :
    (run Conversation.step { a := a', b := b' } calls).Exact := by
  obtain ⟨capsA, capsB, hsynced⟩ := synced_start ha hb hhello
  have hstep : ∀ (c : Conversation) call, c.Synced capsA capsB → c.Unhindered call →
      (c.step call).Synced capsA capsB := fun _ _ hc hfree => hc.step hfree
  have hend := run_invariant hstep hsynced h
  intro id
  rw [hend.delivered]

/-- Messages on two channels, with a PING where a channel has nothing more to send. -/
def heardCalls : List SenderCall :=
  [.openChannel {}, .send ⟨1, 1⟩ [104, 105] (by decide), .send ⟨1, 1⟩ [33] (by decide), .ping 5,
    .openChannel {}, .send ⟨2, 1⟩ [120] (by decide)]

theorem delivered_exactly_heard : ∃ a' b', helloExchange echoEngine echoEngine = some (a', b') ∧
    (run Conversation.step { a := a', b := b' } heardCalls).sent =
      [(⟨1, 1⟩, [104, 105]), (⟨1, 1⟩, [33]), (⟨2, 1⟩, [120])] ∧
    (run Conversation.step { a := a', b := b' } heardCalls).Exact := by
  obtain ⟨a', b', hhello, hsent, hfree⟩ := @exchanged_of_any echoEngine echoEngine
    (fun a b => (run Conversation.step { a := a, b := b } heardCalls).sent =
        [(⟨1, 1⟩, [104, 105]), (⟨1, 1⟩, [33]), (⟨2, 1⟩, [120])] ∧
      Along Conversation.step Conversation.Unhindered { a := a, b := b } heardCalls) _ (by decide +kernel)
  exact ⟨a', b', hhello, hsent, delivered_exactly echoEngine_fresh echoEngine_fresh hhello _ hfree⟩

/-- A PING between two messages of a channel: the second is taken, and never leaves the scheduler. -/
def lostCalls : List SenderCall :=
  [.openChannel {}, .send ⟨1, 1⟩ [104] (by decide), .ping 5, .send ⟨1, 1⟩ [105] (by decide)]

theorem delivery_lost : ¬ ∀ (a b a' b' : ConnectionEngine), Fresh a → Fresh b →
    helloExchange a b = some (a', b') → ∀ calls : List SenderCall,
      (run Conversation.step { a := a', b := b' } calls).Exact := by
  intro h
  obtain ⟨a', b', hhello, hlost⟩ := @exchanged_of_any echoEngine echoEngine
    (fun a b => (messages (run Conversation.step { a := a, b := b } lostCalls).b.events).filter
        (·.1 = ⟨1, 1⟩) ≠
      (run Conversation.step { a := a, b := b } lostCalls).sent.filter (·.1 = ⟨1, 1⟩)) _ (by decide +kernel)
  exact hlost (h _ _ _ _ echoEngine_fresh echoEngine_fresh hhello _ ⟨1, 1⟩)

end ConnectionEngine

end LatticeGateway
