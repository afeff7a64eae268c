import LatticeGateway.Wire
import Mathlib.Data.List.Sort

namespace LatticeGateway

structure ReplayEntry where
  epoch : UInt16 := 1
  frameSeq : UInt32 := 0
  encoded : Bytes := []
  retries : UInt8 := 0
  deriving DecidableEq, Repr

structure AckRange where
  first : UInt32 := 0
  last : UInt32 := 0
  deriving DecidableEq, Repr

structure ResumeProof where
  epoch : UInt16 := 1
  firstRequiredSeq : UInt32 := 0
  deriving DecidableEq, Repr

structure ReplayWindow where
  capacity : Nat := 4096
  epoch : UInt16 := 1
  entries : List ReplayEntry := []
  deriving DecidableEq, Repr

def resumeRejected (detail : String) : Error :=
  makeError .connection .resumeRejected .closeConnection detail

def sequenceError (detail : String) : Error :=
  makeError .connection .sequenceError .closeConnection detail

def ReplayWindow.contains (w : ReplayWindow) (frameSeq : UInt32) : Bool :=
  w.entries.any (·.frameSeq == frameSeq)

def ReplayWindow.earliestSequence (w : ReplayWindow) : Option UInt32 := w.entries.head?.map (·.frameSeq)

def ReplayWindow.latestSequence (w : ReplayWindow) : Option UInt32 := w.entries.getLast?.map (·.frameSeq)

/-- With capacity 0 the source pops from an empty deque, which is undefined. Here that pop leaves it empty:
what a window without capacity holds after that is not what the source holds. -/
def ReplayWindow.record (w : ReplayWindow) (epoch : UInt16) (frameSeq : UInt32) (encoded : Bytes) :
    Except Error Unit × ReplayWindow :=
  if epoch ≠ w.epoch then (.error (resumeRejected "replay epoch mismatch"), w)
  else if w.contains frameSeq then
    (.error (sequenceError "duplicate replay frame sequence"), w)
  else
    let kept := if w.entries.length ≥ w.capacity then w.entries.tail else w.entries
    (.ok (), { w with entries := kept ++ [{ epoch, frameSeq, encoded, retries := 0 }] })

def sortRanges (ranges : List AckRange) : List AckRange :=
  ranges.insertionSort fun a b => a.first ≤ b.first

/-- The checks that `acknowledge` and `encode_ack_payload` make on the sorted ranges; only the former
bounds them by the latest sequence. -/
def checkRanges (latest : Option UInt32) : Option AckRange → List AckRange → Except Error Unit
  | _, [] => .ok ()
  | previous, range :: ranges =>
    if range.first > range.last then .error (sequenceError "invalid ACK range")
    else if previous.any (·.last ≥ range.first) then
      .error (sequenceError "overlapping ACK ranges")
    else if latest.any (range.last > ·) then
      .error (sequenceError "ACK range refers to unsent future frame")
    else checkRanges latest (some range) ranges

def AckRange.covers (range : AckRange) (frameSeq : UInt32) : Bool :=
  range.first ≤ frameSeq && frameSeq ≤ range.last

def ReplayWindow.acknowledge (w : ReplayWindow) (epoch : UInt16) (ranges : List AckRange) :
    Except Error (List ReplayEntry) × ReplayWindow :=
  if epoch ≠ w.epoch then (.error (resumeRejected "ACK epoch mismatch"), w)
  else
    match checkRanges w.latestSequence none (sortRanges ranges) with
    | .error error => (.error error, w)
    | .ok _ =>
      let acked := fun (entry : ReplayEntry) => (sortRanges ranges).any (·.covers entry.frameSeq)
      (.ok (w.entries.filter acked), { w with entries := w.entries.filter (! acked ·) })

/-- The entries before the first one at its limit have been counted already when the loop fails. -/
def retryLoop (retryLimit : UInt8) :
    List ReplayEntry → Except Error (List ReplayEntry) × List ReplayEntry
  | [] => (.ok [], [])
  | entry :: entries =>
    if entry.retries ≥ retryLimit then
      (.error (makeError .channel .sequenceError .resetChannel "replay retry limit exhausted"),
        entry :: entries)
    else
      let entry := { entry with retries := entry.retries + 1 }
      match retryLoop retryLimit entries with
      | (.error error, entries) => (.error error, entry :: entries)
      | (.ok due, entries) => (.ok (entry :: due), entry :: entries)

def ReplayWindow.dueForRetry (w : ReplayWindow) (retryLimit : UInt8) :
    Except Error (List ReplayEntry) × ReplayWindow :=
  let (due, entries) := retryLoop retryLimit w.entries
  (due, { w with entries })

def ReplayWindow.canResume (w : ReplayWindow) (proof : ResumeProof) : Except Error Unit :=
  if proof.epoch ≠ w.epoch then .error (resumeRejected "resume epoch mismatch")
  else
    match w.earliestSequence, w.latestSequence with
    | some earliest, some latest =>
      let latestPlusOne := if latest = 0xFFFFFFFF then latest else latest + 1
      if proof.firstRequiredSeq < earliest ∨ proof.firstRequiredSeq > latestPlusOne then
        .error (resumeRejected "resume range is outside retained replay window")
      else .ok ()
    | _, _ => .error (resumeRejected "resume requested with empty replay window")

def ReplayWindow.retainedFrom (w : ReplayWindow) (epoch : UInt16) (firstRequiredSeq : UInt32) :
    Except Error (List ReplayEntry) :=
  match w.canResume { epoch, firstRequiredSeq } with
  | .error error => .error error
  | .ok _ => .ok (w.entries.filter (·.frameSeq ≥ firstRequiredSeq))

def ackRangeBytes (range : AckRange) : Bytes := u32Bytes range.first ++ u32Bytes range.last

def encodeAckPayload (epoch : UInt16) (ranges : List AckRange) : Except Error Bytes :=
  let ranges := sortRanges ranges
  match checkRanges none none ranges with
  | .error error => .error error
  | .ok _ =>
    if ranges.length > 0xFFFF then
      .error (makeError .connection .resourceLimit .closeConnection "too many ACK ranges")
    else
      .ok (u16Bytes epoch ++ u16Bytes (UInt16.ofNat ranges.length) ++ ranges.flatMap ackRangeBytes)

def readAckRanges (payload : Bytes) : Nat → Nat → Except Error (List AckRange)
  | 0, _ => .ok []
  | count + 1, offset =>
    match readU32Be payload offset, readU32Be payload (offset + 4) with
    | .ok first, .ok last =>
      match readAckRanges payload count (offset + 8) with
      | .error error => .error error
      | .ok ranges => .ok ({ first, last } :: ranges)
    | _, _ => .error (sequenceError "ACK range is truncated")

def decodeAckPayload (payload : Bytes) : Except Error (UInt16 × List AckRange) :=
  if payload.length < 4 then .error (sequenceError "ACK payload too short")
  else
    let epoch := u16At payload 0
    let count := u16At payload 2
    if payload.length ≠ 4 + count.toNat * 8 then
      .error (sequenceError "ACK payload length mismatch")
    else
      match readAckRanges payload count.toNat 4 with
      | .error error => .error error
      | .ok ranges =>
        match encodeAckPayload epoch ranges with
        | .error error => .error error
        | .ok _ => .ok (epoch, ranges)

end LatticeGateway
