import LatticeGateway.Wire
import Mathlib.Data.List.AList
import Mathlib.Data.List.Sort

namespace LatticeGateway

def channelError (code : ErrorCode) (id : ChannelId) (detail : String) : Error :=
  { makeError .channel code .resetChannel detail with channelNo := id.number, generation := id.generation }

structure FlowAccount where
  window : Nat := 0
  available : Nat := 0
  reserved : Nat := 0
  deriving DecidableEq, Repr

def FlowAccount.ofWindow (window : Nat) : FlowAccount := { window, available := window }

def FlowAccount.reserve (flow : FlowAccount) (amount : Nat) : Except Error Unit × FlowAccount :=
  if amount = 0 then (.ok (), flow)
  else if amount > flow.available then
    (.error (makeError .channel .wouldBlock .none "insufficient credit"), flow)
  else
    (.ok (), { flow with available := flow.available - amount
                         reserved := (flow.reserved + amount) % 2 ^ 64 })

def FlowAccount.release (flow : FlowAccount) (amount : Nat) : Except Error Unit × FlowAccount :=
  if amount > flow.reserved then
    (.error (makeError .channel .flowUnderflow .resetChannel "release exceeds reserved credit"), flow)
  else
    let flow := { flow with reserved := flow.reserved - amount }
    let overflow := makeError .channel .flowOverflow .closeConnection "credit release exceeds window"
    match checkedAdd flow.available amount with
    | none => (.error overflow, flow)
    | some next =>
      if next > flow.window then (.error overflow, flow)
      else (.ok (), { flow with available := next })

def FlowAccount.grant (flow : FlowAccount) (amount : Nat) : Except Error Unit × FlowAccount :=
  if amount = 0 then
    (.error (makeError .channel .flowUnderflow .resetChannel "zero CREDIT is illegal"), flow)
  else
    let overflow :=
      makeError .channel .flowOverflow .closeConnection "CREDIT exceeds negotiated window"
    match checkedAdd flow.available amount with
    | none => (.error overflow, flow)
    | some next =>
      if (next + flow.reserved) % 2 ^ 64 > flow.window then (.error overflow, flow)
      else (.ok (), { flow with available := next })

structure LogicalMessage where
  channel : ChannelId := {}
  sequence : UInt32 := 0
  payload : Bytes := []
  deriving DecidableEq, Repr

structure Range where
  offset : UInt32 := 0
  bytes : Bytes := []
  deriving DecidableEq, Repr

structure Pending where
  total : UInt32 := 0
  ranges : List Range := []
  deriving DecidableEq, Repr

structure Reassembler where
  maxMessage : Nat
  pending : AList (fun _ : UInt32 => Pending) := ∅
  retained : Nat := 0
  deriving DecidableEq

def rangeBytes (ranges : List Range) : Nat := (ranges.map fun range => range.bytes.length).sum

def Reassembler.resetMessage (r : Reassembler) (sequence : UInt32) : Reassembler :=
  match r.pending.lookup sequence with
  | none => r
  | some found =>
    { r with pending := r.pending.erase sequence, retained := r.retained - rangeBytes found.ranges }

/-- What the loop over the stored ranges finds for a fragment. -/
inductive Overlap
  | conflict | contained | fresh
  deriving DecidableEq, Repr

def Range.end (range : Range) : UInt32 := UInt32.ofNat (range.offset.toNat + range.bytes.length)

/-- The bytes of two overlapping ranges agree on the positions they share. -/
def overlapAgrees (range : Range) (offset fragmentEnd : UInt32) (bytes : Bytes) : Bool :=
  let first := max offset.toNat range.offset.toNat
  let last := min fragmentEnd.toNat range.end.toNat
  (List.range (last - first)).all fun i =>
    byteAt range.bytes (first + i - range.offset.toNat) == byteAt bytes (first + i - offset.toNat)

def scanRanges (offset fragmentEnd : UInt32) (bytes : Bytes) : List Range → Overlap
  | [] => .fresh
  | range :: ranges =>
    if fragmentEnd ≤ range.offset ∨ offset ≥ range.end then
      scanRanges offset fragmentEnd bytes ranges
    else if overlapAgrees range offset fragmentEnd bytes = false then .conflict
    else if offset ≥ range.offset ∧ fragmentEnd ≤ range.end then .contained
    else scanRanges offset fragmentEnd bytes ranges

/-- `none` when a gap is found, else the end of the covered prefix. -/
def coveredBy : List Range → UInt32 → Option UInt32
  | [], covered => some covered
  | range :: ranges, covered =>
    if range.offset > covered then none else coveredBy ranges (max covered range.end)

/-- `std::copy` of the bytes of a range into the payload. -/
def overwrite (payload : Bytes) (range : Range) : Bytes :=
  payload.take range.offset.toNat ++ range.bytes ++
    payload.drop (range.offset.toNat + range.bytes.length)

def Reassembler.insert (r : Reassembler) (channel : ChannelId) (sequence offset total : UInt32)
    (bytes : Bytes) : Except Error (Option LogicalMessage) × Reassembler :=
  if total = 0 ∨ total.toNat > r.maxMessage then
    (.error (channelError .resourceLimit channel "message total exceeds limit"), r)
  else
    let pastEnd := channelError .fragmentRange channel "fragment extends past total length"
    match checkedAdd offset.toNat bytes.length with
    | none => (.error pastEnd, r)
    | some fragmentEnd =>
      if fragmentEnd > total.toNat then (.error pastEnd, r)
      else
        let found : Pending := (r.pending.lookup sequence).getD {}
        if found.total ≠ 0 ∧ found.total ≠ total then
          (.error (channelError .fragmentRange channel "message total changed"),
            r.resetMessage sequence)
        else
          match scanRanges offset (UInt32.ofNat fragmentEnd) bytes found.ranges with
          | .conflict =>
            (.error (channelError .fragmentOverlap channel "conflicting overlapping fragment bytes"),
              r.resetMessage sequence)
          | .contained => (.ok none, r)
          | .fresh =>
            -- an entry made for this fragment alone is erased again; an older one stays as it is
            let full := channelError .resourceLimit channel
              "retained incomplete fragments exceed receive budget"
            match checkedAdd r.retained bytes.length with
            | none => (.error full, r)
            | some nextRetained =>
              if nextRetained > r.maxMessage then (.error full, r)
              else
                let added : Range := { offset, bytes }
                let ranges := (found.ranges ++ [added]).insertionSort
                  (fun a b => a.offset ≤ b.offset)
                let stored := { r with retained := nextRetained
                                       pending := r.pending.insert sequence { total, ranges } }
                match coveredBy ranges 0 with
                | none => (.ok none, stored)
                | some covered =>
                  if covered < total then (.ok none, stored)
                  else
                    let payload := ranges.foldl overwrite (List.replicate total.toNat 0)
                    (.ok (some { channel, sequence, payload }),
                      { r with retained := nextRetained - rangeBytes ranges
                               pending := r.pending.erase sequence })

structure ChannelSlot where
  id : ChannelId := {}
  state : ChannelState := .free
  nextSendSeq : UInt32 := 1
  nextRecvSeq : UInt32 := 1
  localHalfClosed : Bool := false
  remoteHalfClosed : Bool := false
  flow : FlowAccount := {}
  reassembler : Reassembler
  deriving DecidableEq

def ChannelSlot.live (slot : ChannelSlot) : Bool :=
  !(slot.state == .free || slot.state == .tombstone)

structure ChannelTable where
  slots : List ChannelSlot := []
  channelWindow : Nat
  maxMessage : Nat
  deriving DecidableEq

def ChannelTable.make (maxChannels : UInt16) (channelWindow maxMessage : Nat) : ChannelTable :=
  { slots := (List.range maxChannels.toNat).map fun i =>
      { id := ⟨UInt32.ofNat (i + 1), 0⟩, flow := .ofWindow channelWindow
        reassembler := { maxMessage } }
    channelWindow, maxMessage }

/-- The slot as an opening leaves it, under its new id. -/
def ChannelTable.opened (t : ChannelTable) (id : ChannelId) (state : ChannelState) : ChannelSlot :=
  { id, state, flow := .ofWindow t.channelWindow, reassembler := { maxMessage := t.maxMessage } }

/-- The loop over the slots: the first free one is taken, whatever its generation. -/
def ChannelTable.allocateLoop (t : ChannelTable) :
    List ChannelSlot → Except Error ChannelId × List ChannelSlot
  | [] => (.error (makeError .connection .resourceLimit .none "no free channel slots"), [])
  | slot :: slots =>
    if slot.state = .free then
      if slot.id.generation = 255 then
        (.error (channelError .resourceLimit slot.id "channel generation wrapped"), slot :: slots)
      else
        let id := { slot.id with generation := slot.id.generation + 1 }
        (.ok id, t.opened id .opening :: slots)
    else
      let (result, slots) := t.allocateLoop slots
      (result, slot :: slots)

def ChannelTable.allocate (t : ChannelTable) : Except Error ChannelId × ChannelTable :=
  let (result, slots) := t.allocateLoop t.slots
  (result, { t with slots })

def ChannelTable.slot? (t : ChannelTable) (number : UInt32) : Option ChannelSlot :=
  if number = 0 then none else t.slots[number.toNat - 1]?

def ChannelTable.setSlot (t : ChannelTable) (number : UInt32) (slot : ChannelSlot) : ChannelTable :=
  { t with slots := t.slots.set (number.toNat - 1) slot }

def ChannelTable.find (t : ChannelTable) (id : ChannelId) : Option ChannelSlot :=
  match t.slot? id.number with
  | none => none
  | some slot => if slot.id.generation ≠ id.generation ∨ slot.live = false then none else some slot

def ChannelTable.acceptRemote (t : ChannelTable) (id : ChannelId) : Except Error Unit × ChannelTable :=
  match t.slot? id.number with
  | none => (.error (channelError .resourceLimit id "remote channel number is out of range"), t)
  | some slot =>
    if slot.state ≠ .free then
      (.error (channelError .illegalState id "remote OPEN targets busy slot"), t)
    else if id.generation ≠ slot.id.generation + 1 then
      (.error (channelError .staleGeneration id "remote OPEN generation is not next"), t)
    else (.ok (), t.setSlot id.number (t.opened id .open))

def ChannelTable.activate (t : ChannelTable) (id : ChannelId) : Except Error Unit × ChannelTable :=
  let illegal := channelError .illegalState id "channel cannot activate"
  match t.find id with
  | none => (.error illegal, t)
  | some slot =>
    if slot.state ≠ .opening then (.error illegal, t)
    else (.ok (), t.setSlot id.number { slot with state := .open })

def ChannelTable.reserveSendSequence (t : ChannelTable) (id : ChannelId) :
    Except Error UInt32 × ChannelTable :=
  match t.find id with
  | none => (.error (channelError .staleGeneration id "send sequence targets stale channel"), t)
  | some slot =>
    if slot.nextSendSeq = 0xFFFFFFFF then
      (.error (channelError .resourceLimit id "send sequence would wrap"), t)
    else
      (.ok slot.nextSendSeq, t.setSlot id.number { slot with nextSendSeq := slot.nextSendSeq + 1 })

def ChannelTable.halfClose (t : ChannelTable) (id : ChannelId) (direction : Direction) :
    Except Error Unit × ChannelTable :=
  match t.find id with
  | none => (.error (channelError .staleGeneration id "channel not live"), t)
  | some slot =>
    if slot.state ≠ .open ∧ slot.state ≠ .localClosed ∧ slot.state ≠ .remoteClosed then
      (.error (channelError .illegalState id "channel half-close is illegal now"), t)
    else
      match direction with
      | .localSend =>
        (.ok (), t.setSlot id.number { slot with
          localHalfClosed := true
          state := if slot.remoteHalfClosed then .closing else .localClosed })
      | .remoteSend =>
        (.ok (), t.setSlot id.number { slot with
          remoteHalfClosed := true
          state := if slot.localHalfClosed then .closing else .remoteClosed })

def ChannelTable.reset (t : ChannelTable) (id : ChannelId) : Except Error Unit × ChannelTable :=
  match t.find id with
  | none => (.error (channelError .staleGeneration id "reset targets stale channel"), t)
  | some slot =>
    (.ok (), t.setSlot id.number { slot with
      state := .tombstone, flow := .ofWindow t.channelWindow
      reassembler := { maxMessage := t.maxMessage } })

def ChannelTable.retireTombstone (t : ChannelTable) (id : ChannelId) :
    Except Error Unit × ChannelTable :=
  let illegal := channelError .illegalState id "only tombstone can retire"
  match t.slot? id.number with
  | none => (.error illegal, t)
  | some slot =>
    if slot.id.generation ≠ id.generation ∨ slot.state ≠ .tombstone then (.error illegal, t)
    else (.ok (), t.setSlot id.number { slot with state := .free })

def ChannelTable.liveCount (t : ChannelTable) : Nat := t.slots.countP (·.live)

end LatticeGateway
