import LatticeGateway.HelloExchange
import Mathlib.Data.Set.Insert

namespace LatticeGateway

open Runs

/-- The bytes of a frame without extensions. -/
def plainBytes (frame : Frame) : Bytes :=
  checkedBytes frame [] ++ u32Bytes (crc32c (checkedBytes frame []))

/-- A frame that every negotiated limit lets through. -/
structure Frame.Small (frame : Frame) : Prop where
  flags : frame.flags = 0
  number : frame.channel.number ≤ kMaxChannelNo
  extensions : frame.extensions = []
  payload : frame.payload.length ≤ 8

theorem Frame.Small.length {frame : Frame} (h : frame.Small) : (plainBytes frame).length ≤ 128 := by
  have hsize := length_sizeBytes_le frame
  have hpayload := h.payload
  have hlength := length_checkedBytes frame []
  unfold plainBytes
  rw [List.length_append, length_u32Bytes, hlength, List.length_nil]
  omega

theorem Frame.Small.encode {frame : Frame} (h : frame.Small) {codec : FrameCodec}
    (hlimit : 128 ≤ codec.limits.maxFrame) : codec.encode frame = .ok (plainBytes frame) := by
  have hlength := h.length
  have hpayload := h.payload
  unfold plainBytes at hlength
  rw [List.length_append, length_u32Bytes] at hlength
  refine FrameCodec.encode_of_fits h.flags h.number ?_ (Nat.zero_le _) (by omega) (by omega) (by omega)
  rw [h.extensions]
  rfl

theorem Frame.Small.known {frame : Frame} (h : frame.Small) : frame.KnownRequired := by
  unfold Frame.KnownRequired
  simp [h.extensions]

theorem Frame.Small.canonical {frame : Frame} (h : frame.Small) : frame.canonical = frame := by
  unfold Frame.canonical
  rw [h.extensions, show sortExtensions [] = frame.extensions by rw [h.extensions]; rfl]

/-- The id that the slot at index `n` gets at its first opening. -/
def firstId (n : Nat) : ChannelId := ⟨UInt32.ofNat (n + 1), 1⟩

/-- The table after the slot at index `n` has opened for the first time. -/
def ChannelTable.taken (t : ChannelTable) (n : Nat) : ChannelTable :=
  t.setAt n (t.opened (firstId n) .open)

/-- The slots of `used` have been opened once, and the others never. -/
structure ChannelTable.Used (t : ChannelTable) (used : Set Nat) : Prop where
  numbered : t.Numbered
  taken : ∀ i slot, t.slots[i]? = some slot → i ∈ used → slot.state ≠ .free ∧ slot.id.generation = 1
  free : ∀ i slot, t.slots[i]? = some slot → i ∉ used → slot.state = .free ∧ slot.id.generation = 0
  small : t.slots.length < 2 ^ 16

/-- The first `n` slots are open, each for the first time, and the others have never been used. -/
structure ChannelTable.Filled (t : ChannelTable) (n : Nat) : Prop where
  numbered : t.Numbered
  taken : ∀ i slot, t.slots[i]? = some slot → i < n → slot.state = .open ∧ slot.id.generation = 1
  free : ∀ i slot, t.slots[i]? = some slot → n ≤ i → slot.state = .free ∧ slot.id.generation = 0
  small : t.slots.length < 2 ^ 16

theorem ChannelTable.Filled.make (maxChannels : UInt16) (channelWindow maxMessage : Nat) :
    (ChannelTable.make maxChannels channelWindow maxMessage).Filled 0 := by
  refine ⟨fun i slot hslot => (ChannelTable.make_slots hslot).1, fun i slot _ hi => (by omega),
    fun i slot hslot _ => ?_, ?_⟩
  · obtain ⟨_, hgeneration, hfree⟩ := ChannelTable.make_slots hslot
    exact ⟨hfree, hgeneration⟩
  · have := maxChannels.toNat_lt
    simpa [ChannelTable.make] using this

theorem firstId_number {n : Nat} (h : n + 1 < 2 ^ 16) : (firstId n).number.toNat = n + 1 := by
  unfold firstId
  rw [UInt32.toNat_ofNat']
  omega

theorem ChannelTable.Filled.used {t : ChannelTable} {n : Nat} (h : t.Filled n) : t.Used {i | i < n} where
  numbered := h.numbered
  taken i slot hslot hi := by
    obtain ⟨hopen, hgeneration⟩ := h.taken i slot hslot hi
    exact ⟨by rw [hopen]; rintro ⟨⟩, hgeneration⟩
  free i slot hslot hi := h.free i slot hslot (Nat.not_lt.mp hi)
  small := h.small

/-- A free slot gets its first id when it opens. -/
theorem ChannelTable.Used.first {t : ChannelTable} {used : Set Nat} (h : t.Used used) {n : Nat}
    (hn : n ∉ used) {slot : ChannelSlot} (hslot : t.slots[n]? = some slot) :
    (⟨slot.id.number, slot.id.generation + 1⟩ : ChannelId) = firstId n ∧
      (firstId n).number.toNat = n + 1 := by
  have hsmall := h.small
  have hlt := (List.getElem?_eq_some_iff.mp hslot).1
  have hfirst := @firstId_number n (by omega)
  have hnumber : slot.id.number = (firstId n).number :=
    UInt32.toNat_inj.mp ((h.numbered n slot hslot).trans hfirst.symm)
  refine ⟨?_, hfirst⟩
  rw [hnumber, (h.free n slot hslot hn).2]
  rfl

/-- With the first `n` slots in use, the next one free is the slot at index `n`. -/
theorem ChannelTable.Used.nextFree {t : ChannelTable} {n i : Nat} (h : t.Used {i | i < n})
    {slot : ChannelSlot} (hnext : t.NextFree i slot) : i = n := by
  have hlt := (List.getElem?_eq_some_iff.mp hnext.found).1
  have hge : n ≤ i := by
    by_contra hbelow
    exact (h.taken i slot hnext.found (Nat.lt_of_not_le hbelow)).1 hnext.free
  have hle : i ≤ n := by
    by_contra hgt
    have hn : t.slots[n]? = some t.slots[n] := List.getElem?_eq_getElem (by omega)
    exact hnext.first n (by omega) _ hn (h.free n _ hn (Nat.lt_irrefl n)).1
  omega

theorem ChannelTable.Filled.fill {t : ChannelTable} {n : Nat} (h : t.Filled n)
    (hn : n < t.slots.length) : (t.taken n).Filled (n + 1) := by
  have hslot : t.slots[n]? = some t.slots[n] := List.getElem?_eq_getElem hn
  have hfirst := (h.used.first (Nat.lt_irrefl n) hslot).2
  refine ⟨h.numbered.setAt hfirst, ?_, ?_, ?_⟩
  · intro i slot hi hlt
    rcases ChannelTable.setAt_cases hi with ⟨rfl, rfl⟩ | ⟨_, hold⟩
    · exact ⟨rfl, rfl⟩
    · exact h.taken i slot hold (by omega)
  · intro i slot hi hle
    rcases ChannelTable.setAt_cases hi with ⟨rfl, rfl⟩ | ⟨_, hold⟩
    · omega
    · exact h.free i slot hold (by omega)
  · have hlength : (t.taken n).slots.length = t.slots.length := List.length_set
    rw [hlength]
    exact h.small

theorem ChannelTable.setSlot_firstId {t : ChannelTable} {n : Nat}
    (hfirst : (firstId n).number.toNat = n + 1) (slot : ChannelSlot) :
    t.setSlot (firstId n).number slot = t.setAt n slot := by
  unfold ChannelTable.setSlot ChannelTable.setAt
  rw [hfirst, Nat.add_sub_cancel]

theorem ChannelTable.slot?_firstId {t : ChannelTable} {n : Nat}
    (hfirst : (firstId n).number.toNat = n + 1) : t.slot? (firstId n).number = t.slots[n]? := by
  unfold ChannelTable.slot?
  have hne : (firstId n).number ≠ 0 := by
    intro hzero
    rw [hzero] at hfirst
    cases hfirst
  rw [if_neg hne, hfirst, Nat.add_sub_cancel]

theorem ChannelTable.Used.acceptRemote {t : ChannelTable} {used : Set Nat} (h : t.Used used) {n : Nat}
    (hunused : n ∉ used) (hn : n < t.slots.length) :
    t.acceptRemote (firstId n) = (.ok (), t.taken n) := by
  have hslot : t.slots[n]? = some t.slots[n] := List.getElem?_eq_getElem hn
  obtain ⟨hid, hfirst⟩ := h.first hunused hslot
  obtain ⟨hfree, hgeneration⟩ := h.free n _ hslot hunused
  unfold ChannelTable.acceptRemote
  rw [ChannelTable.slot?_firstId hfirst, hslot]
  dsimp only
  rw [if_neg (by simp [hfree]), if_neg (by rw [hgeneration]; exact not_not.mpr rfl),
    ChannelTable.setSlot_firstId hfirst]
  rfl

namespace ConnectionEngine

theorem Ready.sends {e : ConnectionEngine} {caps : CapabilitySet} (h : Ready e caps) {type : FrameType}
    {channel : ChannelId} {payload : Bytes} (htype : type ≠ .data)
    (hsmall : Frame.Small { type, channel, frameSeq := e.nextFrameSeq, payload })
    (hnext : e.replay.contains e.nextFrameSeq = false) :
    e.emitFrame type channel payload =
      (.ok [plainBytes { type, channel, frameSeq := e.nextFrameSeq, payload }],
        { e with nextFrameSeq := e.nextFrameSeq + 1
                 replay := e.replay.recorded e.nextFrameSeq
                   (plainBytes { type, channel, frameSeq := e.nextFrameSeq, payload }) }) := by
  have hnumbered : Idle { e with nextFrameSeq := e.nextFrameSeq + 1 } := ⟨h.scheduler, h.limit⟩
  exact hnumbered.emit_control (hsmall.encode h.maxFrame) ⟨h.epoch, hnext⟩
    (Nat.le_trans hsmall.length h.window) htype

/-- A frame number that the replay window holds fails the frame, and nothing else changes. -/
theorem Ready.refuses {e : ConnectionEngine} {caps : CapabilitySet} (h : Ready e caps) {type : FrameType}
    {channel : ChannelId} {payload : Bytes}
    (hsmall : Frame.Small { type, channel, frameSeq := e.nextFrameSeq, payload })
    (hnext : e.replay.contains e.nextFrameSeq = true) : ∃ error,
      e.emitFrame type channel payload = (.error error, { e with nextFrameSeq := e.nextFrameSeq + 1 }) := by
  have hrecord : e.replay.record 1 e.nextFrameSeq
      (plainBytes { type, channel, frameSeq := e.nextFrameSeq, payload }) =
        (.error (sequenceError "duplicate replay frame sequence"), e.replay) := by
    unfold ReplayWindow.record
    rw [if_neg (not_not.mpr h.epoch.symm), if_pos hnext]
  refine ⟨sequenceError "duplicate replay frame sequence", ?_⟩
  unfold emitFrame makeFrame
  dsimp only
  unfold emit
  rw [show FrameCodec.encode _ _ = _ from hsmall.encode h.maxFrame]
  dsimp only
  rw [hrecord]

theorem Ready.receives {e : ConnectionEngine} {caps : CapabilitySet} (h : Ready e caps) {frame : Frame}
    (hsmall : frame.Small) : e.receive (plainBytes frame) false = e.handleEvent (.frame frame) := by
  rw [receive_one h.codec (hsmall.encode h.maxFrame) hsmall.known, hsmall.canonical]

/-- The OPEN frame of a channel that opens for the first time. -/
def openFrame (frameSeq : UInt32) (n : Nat) (request : OpenRequest) : Frame :=
  { type := .open, channel := firstId n, frameSeq
    payload := u32Bytes request.familyId ++ u32Bytes (UInt32.ofNat request.initialWindow) }

theorem openFrame_small (frameSeq : UInt32) {n : Nat} (h : n + 1 < 2 ^ 16) (request : OpenRequest) :
    (openFrame frameSeq n request).Small := by
  refine ⟨rfl, ?_, rfl, Nat.le_refl 8⟩
  have hnumber := firstId_number h
  refine UInt32.le_iff_toNat_le.mpr ?_
  change (firstId n).number.toNat ≤ 0x00FFFFFF
  omega

theorem all_ne_of_serves {plugins : List PluginDescriptor} {family : UInt32} (h : Serves plugins family) :
    ¬ plugins.all (·.familyId ≠ family) = true := by
  rw [all_ne_eq_false.mpr h]
  exact Bool.false_ne_true

/-- The engine after its side of an opening. -/
def Opens (e e' : ConnectionEngine) (t : ChannelTable) (n : Nat) : Prop :=
  ∃ nextFrameSeq replay, replay.epoch = e.replay.epoch ∧
    e' = { e with channels := some (t.taken n), nextFrameSeq, replay }.record .channelOpened (firstId n)

theorem Ready.opens {e e' : ConnectionEngine} {caps : CapabilitySet} (h : Ready e caps) {t : ChannelTable}
    {n : Nat} (hopens : Opens e e' t n) : Ready e' caps ∧ e'.channels = some (t.taken n) ∧
      e'.localHello = e.localHello := by
  obtain ⟨nextFrameSeq, replay, hepoch, rfl⟩ := hopens
  exact ⟨h.of_same rfl rfl rfl rfl rfl hepoch, rfl, rfl⟩

/-- The engine has numbered its frames from 1 on, at most one for each of `n` openings and its HELLO. -/
structure Young (e : ConnectionEngine) (n : Nat) : Prop where
  retained : e.replay.Below e.nextFrameSeq
  numbered : e.nextFrameSeq.toNat ≤ n + 2

/-- `open_channel` changes nothing, or takes the next slot; its OPEN frame goes out unless the frame's
number is still held. -/
theorem Ready.openChannel_outcome {e : ConnectionEngine} {caps : CapabilitySet} (h : Ready e caps)
    {t : ChannelTable} {n : Nat} (ht : e.channels = some t) (hused : t.Used {i | i < n})
    (request : OpenRequest) :
    (∃ error, e.openChannel request = (.error error, e)) ∨
      n < t.slots.length ∧
        ((e.replay.contains e.nextFrameSeq = true ∧ ∃ error, e.openChannel request = (.error error,
            { e with channels := some (t.taken n), nextFrameSeq := e.nextFrameSeq + 1 })) ∨
          (e.replay.contains e.nextFrameSeq = false ∧ Serves caps.plugins request.familyId ∧
            ∃ e', Opens e e' t n ∧ (e.Young n → e'.Young (n + 1)) ∧ e.openChannel request =
              (.ok (firstId n, [plainBytes (openFrame e.nextFrameSeq n request)]), e'))) := by
  by_cases hopens : ∃ caps t i slot, e.Openable request caps t i slot
  · obtain ⟨caps', t', i, slot, hopen⟩ := hopens
    obtain rfl := Option.some.inj (hopen.channels.symm.trans ht)
    obtain rfl := Option.some.inj (hopen.capabilities.symm.trans h.capabilities)
    obtain rfl := hused.nextFree hopen.next
    have hlt := (List.getElem?_eq_some_iff.mp hopen.next.found).1
    have hsmall := hused.small
    have htaking : e.taking t' i slot = { e with channels := some (t'.taken i) } := by
      unfold taking
      rw [(hused.first (Nat.lt_irrefl i) hopen.next.found).1]
      rfl
    have hresult := hopen.open hused.numbered
    rw [(hused.first (Nat.lt_irrefl i) hopen.next.found).1, htaking] at hresult
    have hready : Ready { e with channels := some (t'.taken i) } caps' :=
      h.of_same rfl rfl rfl rfl rfl rfl
    have hframe := @openFrame_small e.nextFrameSeq i (by omega) request
    refine .inr ⟨hlt, ?_⟩
    cases hnext : e.replay.contains e.nextFrameSeq with
    | true =>
      obtain ⟨error, herror⟩ := hready.refuses hframe hnext
      rw [herror] at hresult
      exact .inl ⟨rfl, error, hresult⟩
    | false =>
      rw [hready.sends (by decide) hframe hnext] at hresult
      refine .inr ⟨rfl, all_ne_eq_false.mp (by simpa using hopen.served), _, ⟨e.nextFrameSeq + 1,
        e.replay.recorded e.nextFrameSeq (plainBytes (openFrame e.nextFrameSeq i request)), rfl, rfl⟩,
        fun hyoung => ⟨?_, ?_⟩, hresult⟩
      · have hnumbered := hyoung.numbered
        exact hyoung.retained.recorded (by omega) _
      · have hnumbered := hyoung.numbered
        change (e.nextFrameSeq + 1).toNat ≤ i + 1 + 2
        rw [UInt32.toNat_add, UInt32.toNat_one]
        omega
  · exact .inl (open_refused fun caps t i slot hopen => hopens ⟨caps, t, i, slot, hopen⟩)

/-- `open_channel` changes nothing, or takes the first free slot and sends its OPEN frame. -/
theorem Ready.openChannel_cases {e : ConnectionEngine} {caps : CapabilitySet} (h : Ready e caps)
    {t : ChannelTable} {n : Nat} (ht : e.channels = some t) (hfilled : t.Filled n)
    (hnext : e.replay.contains e.nextFrameSeq = false) (request : OpenRequest) :
    (∃ error, e.openChannel request = (.error error, e)) ∨
      Serves caps.plugins request.familyId ∧ n < t.slots.length ∧ ∃ e', Opens e e' t n ∧
        (e.Young n → e'.Young (n + 1)) ∧ e.openChannel request =
          (.ok (firstId n, [plainBytes (openFrame e.nextFrameSeq n request)]), e') := by
  rcases h.openChannel_outcome ht hfilled.used request with
    hrefused | ⟨hn, ⟨hheld, _⟩ | ⟨_, hserves, hsent⟩⟩
  · exact .inl hrefused
  · rw [hnext] at hheld
    cases hheld
  · exact .inr ⟨hserves, hn, hsent⟩

/-- The OPEN frame for a slot that was never used is accepted. -/
theorem Ready.handleOpen_ok {e : ConnectionEngine} {caps : CapabilitySet} (h : Ready e caps)
    {t : ChannelTable} {used : Set Nat} (ht : e.channels = some t) (hused : t.Used used) {n : Nat}
    (hunused : n ∉ used) (hn : n < t.slots.length)
    {request : OpenRequest} (hserves : Serves caps.plugins request.familyId)
    (frameSeq : UInt32) : ∃ e', Opens e e' t n ∧ (e.Young n → e'.Young (n + 1)) ∧
      e.receive (plainBytes (openFrame frameSeq n request)) false = (.ok [], e') := by
  have hsmall := hused.small
  have hpayload : readU32Be (openFrame frameSeq n request).payload 0 = .ok request.familyId := by
    unfold readU32Be openFrame
    rw [if_neg (by simp)]
    exact congrArg Except.ok (u32At_u32Bytes _ _)
  refine ⟨{ e with channels := some (t.taken n) }.record .channelOpened (firstId n), ⟨_, _, rfl, rfl⟩,
    fun hyoung => ⟨hyoung.retained, Nat.le_succ_of_le hyoung.numbered⟩, ?_⟩
  rw [h.receives (openFrame_small frameSeq (by omega) request)]
  have hhandled : e.handleOpen (openFrame frameSeq n request) =
      (.ok [], { e with channels := some (t.taken n) }.record .channelOpened (firstId n)) := by
    unfold handleOpen
    rw [ht, h.capabilities]
    dsimp only
    rw [if_neg (by simp [h.active, openFrame]), hpayload]
    dsimp only
    rw [if_neg (all_ne_of_serves hserves)]
    have hchannel : (openFrame frameSeq n request).channel = firstId n := rfl
    rw [hchannel, hused.acceptRemote hunused hn]
  exact handleEvent_ok hhandled

end ConnectionEngine

open ConnectionEngine

/-- One end of a link: its engine, the chunks on their way to it, the ids that its `open_channel` has
returned, and the errors of its `receive`. -/
structure Endpoint where
  engine : ConnectionEngine
  inbox : List Bytes := []
  opened : List ChannelId := []
  refused : List Error := []

/-- `open_channel` on `x`; what it sends is on its way to `y`. -/
def Endpoint.openChannel (x y : Endpoint) (request : OpenRequest) : Endpoint × Endpoint :=
  match x.engine.openChannel request with
  | (.error _, engine) => ({ x with engine }, y)
  | (.ok (id, chunks), engine) =>
    ({ x with engine, opened := x.opened ++ [id] }, { y with inbox := y.inbox ++ chunks })

/-- `x` receives the next chunk that is on its way to it. -/
def Endpoint.deliver (x y : Endpoint) : Endpoint × Endpoint :=
  match x.inbox with
  | [] => (x, y)
  | chunk :: inbox =>
    match x.engine.receive chunk false with
    | (.error error, engine) => ({ x with engine, inbox, refused := x.refused ++ [error] }, y)
    | (.ok chunks, engine) => ({ x with engine, inbox }, { y with inbox := y.inbox ++ chunks })

structure Link where
  a : Endpoint
  b : Endpoint

inductive Side
  | a | b
  deriving DecidableEq

inductive Move
  | openChannel (side : Side) (request : OpenRequest)
  | deliver (side : Side)

def Link.step (l : Link) : Move → Link
  | .openChannel .a request => let (a, b) := l.a.openChannel l.b request; { a, b }
  | .openChannel .b request => let (b, a) := l.b.openChannel l.a request; { a, b }
  | .deliver .a => let (a, b) := l.a.deliver l.b; { a, b }
  | .deliver .b => let (b, a) := l.b.deliver l.a; { a, b }

def Link.at (l : Link) : Side → Endpoint
  | .a => l.a
  | .b => l.b

/-- A side opens a channel only while nothing is on its way to it. -/
def Link.Waits (l : Link) : Move → Prop
  | .openChannel side _ => (l.at side).inbox = []
  | .deliver _ => True

/-- It also opens it under a frame number that its replay window does not hold. -/
def Link.Serial (l : Link) : Move → Prop
  | .openChannel side request => l.Waits (.openChannel side request) ∧
    (l.at side).engine.replay.contains (l.at side).engine.nextFrameSeq = false
  | .deliver _ => True

instance (l : Link) (move : Move) : Decidable (l.Waits move) := by
  unfold Link.Waits
  cases move with
  | openChannel => exact inferInstance
  | deliver => exact isTrue trivial

instance (l : Link) (move : Move) : Decidable (l.Serial move) := by
  unfold Link.Serial
  cases move with
  | openChannel => exact inferInstance
  | deliver => exact isTrue trivial

/-- No OPEN frame has met a busy slot, and no id has been returned on both sides. -/
structure Link.NoCollision (l : Link) : Prop where
  accepted : ∀ error ∈ l.a.refused ++ l.b.refused, error.detail ≠ "remote OPEN targets busy slot"
  apart : ∀ id ∈ l.a.opened, id ∉ l.b.opened

/-- The chunks are the OPEN frames of the slots from `n` on, up to `m`. -/
def Opening (caps : CapabilitySet) (n m : Nat) (chunks : List Bytes) : Prop :=
  List.Forall₂ (fun k chunk => ∃ frameSeq request, Serves caps.plugins request.familyId ∧
    chunk = plainBytes (openFrame frameSeq k request)) (List.range' n (m - n)) chunks

/-- An end that has `n` of its slots open. -/
structure Endpoint.Holds (x : Endpoint) (caps : CapabilitySet) (slots n : Nat) : Prop where
  ready : Ready x.engine caps
  table : ∃ t, x.engine.channels = some t ∧ t.Filled n ∧ t.slots.length = slots
  bound : n ≤ slots
  opened : ∀ id ∈ x.opened, id.number.toNat ≤ n
  refused : x.refused = []

/-- Both ends fill their tables in one order, and what one is ahead of the other is on its way. -/
structure Matched (x y : Endpoint) (caps caps' : CapabilitySet) (slots n m : Nat) : Prop where
  left : x.Holds caps slots n
  right : y.Holds caps' slots m
  serves : ∀ family, Serves caps.plugins family ↔ Serves caps'.plugins family
  toLeft : Opening caps n m x.inbox
  toRight : Opening caps' m n y.inbox
  apart : ∀ id ∈ x.opened, id ∉ y.opened

theorem Matched.symm {x y : Endpoint} {caps caps' : CapabilitySet} {slots n m : Nat}
    (h : Matched x y caps caps' slots n m) : Matched y x caps' caps slots m n :=
  ⟨h.right, h.left, fun family => (h.serves family).symm, h.toRight, h.toLeft,
    fun id hright hleft => h.apart id hleft hright⟩

theorem Endpoint.Holds.opens {x : Endpoint} {caps : CapabilitySet} {slots n : Nat}
    (h : x.Holds caps slots n) {t : ChannelTable} (ht : x.engine.channels = some t) (hn : n < slots)
    {e : ConnectionEngine} (hopens : Opens x.engine e t n) {inbox : List Bytes} {opened : List ChannelId}
    (hopened : ∀ id ∈ opened, id ∈ x.opened ∨ id = firstId n) :
    Endpoint.Holds { engine := e, inbox, opened, refused := x.refused } caps slots (n + 1) := by
  obtain ⟨t', ht', hfilled, hslots⟩ := h.table
  obtain rfl := Option.some.inj (ht.symm.trans ht')
  obtain ⟨hready, hchannels, _⟩ := h.ready.opens hopens
  have hsmall := hfilled.small
  refine ⟨hready, ⟨_, hchannels, hfilled.fill (by omega), ?_⟩, hn, ?_, h.refused⟩
  · exact List.length_set.trans hslots
  · intro id hid
    rcases hopened id hid with hold | rfl
    · exact Nat.le_succ_of_le (h.opened id hold)
    · exact Nat.le_of_eq (firstId_number (by omega))

/-- Neither end has sent more than its HELLO and the openings. -/
def BothYoung (x y : Endpoint) (n m : Nat) : Prop := x.engine.Young n ∧ y.engine.Young m

theorem BothYoung.symm {x y : Endpoint} {n m : Nat} (h : BothYoung x y n m) : BothYoung y x m n :=
  ⟨h.2, h.1⟩

theorem Matched.openChannel {x y : Endpoint} {caps caps' : CapabilitySet} {slots n m : Nat}
    (h : Matched x y caps caps' slots n m) (hinbox : x.inbox = [])
    (hnext : x.engine.replay.contains x.engine.nextFrameSeq = false) (request : OpenRequest) :
    ∃ n', Matched (x.openChannel y request).1 (x.openChannel y request).2 caps caps' slots n' m ∧
      (BothYoung x y n m → BothYoung (x.openChannel y request).1 (x.openChannel y request).2 n' m) := by
  obtain ⟨t, ht, hfilled, hslots⟩ := h.left.table
  unfold Endpoint.openChannel
  rcases h.left.ready.openChannel_cases ht hfilled hnext request with
    ⟨error, herror⟩ | ⟨hserves, hn, e, hopens, hyoung, hok⟩
  · rw [herror]
    exact ⟨n, h, fun hboth => hboth⟩
  · have hahead : m ≤ n := by
      have hlength := h.toLeft.length_eq
      rw [hinbox, List.length_range', List.length_nil] at hlength
      omega
    have hsmall := hfilled.small
    have hfirst := @firstId_number n (by omega)
    rw [hok]
    refine ⟨n + 1, ⟨h.left.opens ht (by omega) hopens (by simp), ?_, h.serves, ?_, ?_, ?_⟩,
      fun hboth => ⟨hyoung hboth.1, hboth.2⟩⟩
    · exact ⟨h.right.ready, h.right.table, h.right.bound, h.right.opened, h.right.refused⟩
    · have hnone : m - (n + 1) = 0 := by omega
      unfold Opening
      rw [hnone]
      dsimp only
      rw [hinbox]
      exact .nil
    · have hmore : n + 1 - m = n - m + 1 := by omega
      unfold Opening
      rw [hmore, List.range'_1_concat, Nat.add_sub_cancel' hahead]
      exact List.rel_append h.toRight
        (.cons ⟨_, request, (h.serves _).mp hserves, rfl⟩ .nil)
    · intro id hid hright
      rcases List.mem_append.mp hid with hold | hnew
      · exact h.apart id hold hright
      · have hle := h.right.opened id hright
        rw [List.mem_singleton.mp hnew, hfirst] at hle
        omega

theorem Matched.deliver {x y : Endpoint} {caps caps' : CapabilitySet} {slots n m : Nat}
    (h : Matched x y caps caps' slots n m) :
    ∃ n', Matched (x.deliver y).1 (x.deliver y).2 caps caps' slots n' m ∧
      (BothYoung x y n m → BothYoung (x.deliver y).1 (x.deliver y).2 n' m) := by
  unfold Endpoint.deliver
  have hflight := h.toLeft
  cases hinbox : x.inbox with
  | nil => exact ⟨n, h, fun hboth => hboth⟩
  | cons chunk inbox =>
    obtain ⟨t, ht, hfilled, hslots⟩ := h.left.table
    rw [hinbox] at hflight
    unfold Opening at hflight
    obtain ⟨ahead, hahead⟩ : ∃ ahead, m - n = ahead + 1 := by
      have hlength := hflight.length_eq
      rw [List.length_range', List.length_cons] at hlength
      exact ⟨_, hlength⟩
    rw [hahead, List.range'_succ] at hflight
    obtain ⟨⟨frameSeq, request, hserves, rfl⟩, hrest⟩ := List.forall₂_cons.mp hflight
    have hbound := h.right.bound
    obtain ⟨e, hopens, hyoung, hok⟩ :=
      h.left.ready.handleOpen_ok ht hfilled.used (Nat.lt_irrefl n) (by omega) hserves frameSeq
    dsimp only
    rw [hok]
    refine ⟨n + 1, ⟨h.left.opens ht (by omega) hopens fun id hid => .inl hid, ?_, h.serves, ?_, ?_,
      h.apart⟩, fun hboth => ⟨hyoung hboth.1, hboth.2⟩⟩
    · exact ⟨h.right.ready, h.right.table, h.right.bound, h.right.opened, h.right.refused⟩
    · unfold Opening
      rw [show m - (n + 1) = ahead by omega]
      exact hrest
    · have hright := h.toRight
      unfold Opening at hright ⊢
      rw [show n - m = 0 by omega] at hright
      rw [show n + 1 - m = 0 by omega]
      dsimp only
      rw [List.append_nil]
      exact hright

theorem Matched.step {l : Link} {caps caps' : CapabilitySet} {slots n m : Nat} {move : Move}
    (h : Matched l.a l.b caps caps' slots n m) (hserial : l.Serial move) :
    ∃ n' m', Matched (l.step move).a (l.step move).b caps caps' slots n' m' ∧
      (BothYoung l.a l.b n m → BothYoung (l.step move).a (l.step move).b n' m') := by
  cases move with
  | openChannel side request =>
    obtain ⟨hinbox, hnext⟩ := hserial
    cases side with
    | a =>
      obtain ⟨n', hmatched, hyoung⟩ := h.openChannel hinbox hnext request
      exact ⟨n', m, hmatched, hyoung⟩
    | b =>
      obtain ⟨m', hmatched, hyoung⟩ := h.symm.openChannel hinbox hnext request
      exact ⟨n, m', hmatched.symm, fun hboth => (hyoung hboth.symm).symm⟩
  | deliver side =>
    cases side with
    | a =>
      obtain ⟨n', hmatched, hyoung⟩ := h.deliver
      exact ⟨n', m, hmatched, hyoung⟩
    | b =>
      obtain ⟨m', hmatched, hyoung⟩ := h.symm.deliver
      exact ⟨n, m', hmatched.symm, fun hboth => (hyoung hboth.symm).symm⟩

theorem Matched.noCollision {l : Link} {caps caps' : CapabilitySet} {slots n m : Nat}
    (h : Matched l.a l.b caps caps' slots n m) : l.NoCollision := by
  refine ⟨?_, h.apart⟩
  rw [h.left.refused, h.right.refused]
  simp

/-- After the HELLO exchange both ends are at the start of the same order. -/
theorem matched_start {a b a' b' : ConnectionEngine} (ha : Fresh a) (hb : Fresh b)
    (h : helloExchange a b = some (a', b')) :
    ∃ caps caps' slots, Matched { engine := a' } { engine := b' } caps caps' slots 0 0 := by
  obtain ⟨_, _, startedA, startedB, capsA, capsB, _, _, _, _, rfl, rfl, hpaired⟩ :=
    helloExchange_ok ha hb h
  have hslots : ∀ caps : CapabilitySet, (ChannelTable.make caps.maxChannels
      (caps.connectionWindow / caps.maxChannels.toNat) caps.maxMessage).slots.length =
        caps.maxChannels.toNat := by
    intro caps
    simp [ChannelTable.make]
  refine ⟨capsA, capsB, capsA.maxChannels.toNat, ?_, ?_, hpaired.serves, .nil, .nil, by simp⟩
  · exact ⟨hpaired.readyA, ⟨_, rfl, .make _ _ _, hslots capsA⟩, Nat.zero_le _, by simp, rfl⟩
  · refine ⟨hpaired.readyB, ⟨_, rfl, .make _ _ _, ?_⟩, Nat.zero_le _, by simp, rfl⟩
    rw [hslots, hpaired.maxChannels]

/-- Openings that wait for the peer's never collide. -/
theorem opens_apart {a b a' b' : ConnectionEngine} (ha : Fresh a) (hb : Fresh b)
    (hhello : helloExchange a b = some (a', b')) (moves : List Move)
    (h : Along Link.step Link.Serial { a := { engine := a' }, b := { engine := b' } } moves) :
    (run Link.step { a := { engine := a' }, b := { engine := b' } } moves).NoCollision := by
  obtain ⟨caps, caps', slots, hmatched⟩ := matched_start ha hb hhello
  have hstep : ∀ (l : Link) move, (∃ n m, Matched l.a l.b caps caps' slots n m) → l.Serial move →
      ∃ n m, Matched (l.step move).a (l.step move).b caps caps' slots n m := by
    rintro l move ⟨n, m, hl⟩ hserial
    obtain ⟨n', m', hnext, _⟩ := hl.step hserial
    exact ⟨n', m', hnext⟩
  obtain ⟨n, m, hend⟩ := run_invariant hstep ⟨0, 0, hmatched⟩ h
  exact hend.noCollision

/-- What a new engine has sent when it has started is its HELLO. -/
theorem young_start {policy : LocalPolicy} {registry : PluginRegistry}
    {executor : Option (DeterministicExecutor EngineTask)} {out : List Bytes} {e : ConnectionEngine}
    (h : (make policy registry executor).start = (.ok out, e)) : e.Young 0 := by
  have hunused : Unused (make policy registry executor) := Fresh.unused ⟨_, _, _, [], rfl⟩
  obtain ⟨_, encoded, _, _, _, _, _, _, _, hreplay, hnext⟩ := hunused.started h
  have hbelow : (make policy registry executor).replay.Below (make policy registry executor).nextFrameSeq :=
    fun _ hentry => absurd hentry List.not_mem_nil
  refine ⟨?_, ?_⟩
  · have hroom : (1 : UInt32).toNat + 1 < 2 ^ 32 := by decide
    rw [hreplay, hnext]
    exact hbelow.recorded hroom encoded
  · rw [hnext]
    exact Nat.le_refl 2

/-- Without a snapshot nothing is held that the openings could come round to: waiting is enough. -/
theorem opens_apart_unloaded {policyA policyB : LocalPolicy} {registryA registryB : PluginRegistry}
    {executorA executorB : Option (DeterministicExecutor EngineTask)} {a' b' : ConnectionEngine}
    (hhello : helloExchange (make policyA registryA executorA) (make policyB registryB executorB) =
      some (a', b')) (moves : List Move)
    (h : Along Link.step Link.Waits { a := { engine := a' }, b := { engine := b' } } moves) :
    (run Link.step { a := { engine := a' }, b := { engine := b' } } moves).NoCollision := by
  have ha : Fresh (make policyA registryA executorA) := ⟨_, _, _, [], rfl⟩
  have hb : Fresh (make policyB registryB executorB) := ⟨_, _, _, [], rfl⟩
  obtain ⟨caps, caps', slots, hmatched⟩ := matched_start ha hb hhello
  obtain ⟨_, _, startedA, startedB, capsA, capsB, hstartA, hstartB, _, _, rfl, rfl, _⟩ :=
    helloExchange_ok ha hb hhello
  have hyoungA := young_start hstartA
  have hyoungB := young_start hstartB
  have hstep : ∀ (l : Link) move,
      (∃ n m, Matched l.a l.b caps caps' slots n m ∧ BothYoung l.a l.b n m) → l.Waits move →
      ∃ n m, Matched (l.step move).a (l.step move).b caps caps' slots n m ∧
        BothYoung (l.step move).a (l.step move).b n m := by
    rintro l move ⟨n, m, hl, hboth⟩ hwaits
    have hserial : l.Serial move := by
      cases move with
      | openChannel side request =>
        refine ⟨hwaits, ?_⟩
        cases side with
        | a => exact hboth.1.retained.not_contains
        | b => exact hboth.2.retained.not_contains
      | deliver side => exact trivial
    obtain ⟨n', m', hnext, hyoung⟩ := hl.step hserial
    exact ⟨n', m', hnext, hyoung hboth⟩
  have hstart : BothYoung { engine := startedA.negotiated capsA } { engine := startedB.negotiated capsB }
      0 0 := ⟨⟨hyoungA.retained, hyoungA.numbered⟩, hyoungB.retained, hyoungB.numbered⟩
  obtain ⟨n, m, hend, _⟩ := run_invariant hstep ⟨0, 0, hmatched, hstart⟩ h
  exact hend.noCollision

/-- An engine with the echo plugin, as it is made. -/
def echoEngine : ConnectionEngine := make { maxChannels := 4 } echoRegistry none

theorem echoEngine_fresh : Fresh echoEngine := ⟨_, _, _, [], rfl⟩

/-- What holds of the ends of one exchange, for a property that can be computed. -/
theorem exchanged_of_any {a b : ConnectionEngine} {P : ConnectionEngine → ConnectionEngine → Prop}
    [∀ a b, Decidable (P a b)] (h : (helloExchange a b).any (fun p => decide (P p.1 p.2)) = true) :
    ∃ a' b', helloExchange a b = some (a', b') ∧ P a' b' := by
  obtain ⟨p, hp, hholds⟩ := (Option.any_eq_true _ _).mp h
  exact ⟨p.1, p.2, hp, of_decide_eq_true hholds⟩

theorem opens_apart_turns : ∃ a' b', helloExchange echoEngine echoEngine = some (a', b') ∧
    (run Link.step { a := { engine := a' }, b := { engine := b' } }
      [.openChannel .a {}, .deliver .b, .openChannel .b {}, .deliver .a]).NoCollision := by
  obtain ⟨a', b', hhello, hserial⟩ := @exchanged_of_any echoEngine echoEngine
    (fun a b => Along Link.step Link.Serial { a := { engine := a }, b := { engine := b } }
      [.openChannel .a {}, .deliver .b, .openChannel .b {}, .deliver .a]) _ (by decide +kernel)
  exact ⟨a', b', hhello, opens_apart echoEngine_fresh echoEngine_fresh hhello _ hserial⟩

/-- Both ends open before either has heard of the other's opening, and take one id. -/
theorem opens_collide : ¬ ∀ (a b a' b' : ConnectionEngine), Fresh a → Fresh b →
    helloExchange a b = some (a', b') → ∀ moves : List Move,
      (run Link.step { a := { engine := a' }, b := { engine := b' } } moves).NoCollision := by
  intro h
  obtain ⟨a', b', hhello, hboth⟩ := @exchanged_of_any echoEngine echoEngine
    (fun a b => firstId 0 ∈ (run Link.step { a := { engine := a }, b := { engine := b } }
        [.openChannel .a {}, .openChannel .b {}]).a.opened ∧
      firstId 0 ∈ (run Link.step { a := { engine := a }, b := { engine := b } }
        [.openChannel .a {}, .openChannel .b {}]).b.opened) _ (by decide +kernel)
  exact (h _ _ _ _ echoEngine_fresh echoEngine_fresh hhello _).apart _ hboth.1 hboth.2

/-- A snapshot whose engine comes back to a frame number that it still holds. -/
def wrappingSnapshot : Bytes :=
  ReplayWindow.serializeRetained { capacity := 8, entries :=
    [{ frameSeq := 1, encoded := [1] }, { frameSeq := 0xFFFFFFFE, encoded := [1] }] }

/-- An OPEN frame that is not sent leaves its slot taken, though every opening waits for the peer's. -/
theorem opens_unsent : ¬ ∀ (a b a' b' : ConnectionEngine), Fresh a → Fresh b →
    helloExchange a b = some (a', b') → ∀ moves : List Move,
      Along Link.step Link.Waits { a := { engine := a' }, b := { engine := b' } } moves →
      (run Link.step { a := { engine := a' }, b := { engine := b' } } moves).NoCollision := by
  intro h
  obtain ⟨a', b', hhello, hwaits, error, herror, hbusy⟩ :=
    @exchanged_of_any (echoEngine.loadReplaySnapshot wrappingSnapshot).2 echoEngine
    (fun a b => Along Link.step Link.Waits { a := { engine := a }, b := { engine := b } }
        [.openChannel .a {}, .openChannel .a {}, .deliver .b, .openChannel .b {}, .deliver .a] ∧
      ∃ error ∈ (run Link.step { a := { engine := a }, b := { engine := b } }
        [.openChannel .a {}, .openChannel .a {}, .deliver .b, .openChannel .b {}, .deliver .a]).a.refused,
          error.detail = "remote OPEN targets busy slot") _ (by decide +kernel)
  exact (h _ _ _ _ ⟨_, _, _, [wrappingSnapshot], rfl⟩ echoEngine_fresh hhello _ hwaits).accepted error
    (List.mem_append_left _ herror) hbusy

end LatticeGateway
