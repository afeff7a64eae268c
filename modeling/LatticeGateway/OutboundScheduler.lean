import LatticeGateway.Types
import Mathlib.Data.List.AList
import Mathlib.Data.List.Sort

namespace LatticeGateway

inductive OutboundPriority
  | control | data
  deriving DecidableEq, Repr

structure OutboundItem where
  priority : OutboundPriority := .data
  channel : ChannelId := {}
  sequence : UInt32 := 0
  encoded : Bytes := []
  deriving DecidableEq, Repr

/-- `control_`, `data_` and `expected_sequence_`; a channel that has no entry is expected at 0. -/
structure OutboundScheduler where
  byteLimit : Nat
  queuedBytes : Nat := 0
  control : List OutboundItem := []
  data : AList (fun _ : UInt32 => List OutboundItem) := ∅
  expectedSequence : AList (fun _ : UInt32 => UInt32) := ∅
  rrCursor : UInt32 := 0

def OutboundScheduler.enqueue (s : OutboundScheduler) (item : OutboundItem) :
    Except Error Unit × OutboundScheduler :=
  if item.encoded = [] then
    (.error (makeError .connection .resourceLimit .none "scheduler item cannot be empty"), s)
  else
    let full := makeError .connection .wouldBlock .none "outbound scheduler byte limit reached"
    match checkedAdd s.queuedBytes item.encoded.length with
    | none => (.error full, s)
    | some next =>
      if next > s.byteLimit then (.error full, s)
      else
        match item.priority with
        | .control => (.ok (), { s with queuedBytes := next, control := s.control ++ [item] })
        | .data =>
          let queue := (s.data.lookup item.channel.number).getD []
          match queue.getLast? with
          | some back =>
            if item.sequence ≤ back.sequence then
              (.error (makeError .channel .sequenceError .resetChannel
                "data scheduler sequence regressed"), s)
            else
              (.ok (), { s with queuedBytes := next
                                data := s.data.insert item.channel.number (queue ++ [item]) })
          | none =>
            (.ok (), { s with queuedBytes := next
                              data := s.data.insert item.channel.number (queue ++ [item]) })

/-- The loop over the control queue, which holds at most `fuel` items. A short write stops it with
the budget used up, so that nothing follows in the same `drain`. -/
def OutboundScheduler.drainControl (writableBytes : Nat) :
    Nat → OutboundScheduler → Nat → List OutboundItem → List OutboundItem × Nat × OutboundScheduler
  | 0, s, used, out => (out, used, s)
  | fuel + 1, s, used, out =>
    match s.control with
    | [] => (out, used, s)
    | item :: rest =>
      if used < writableBytes then
        let take := min (writableBytes - used) item.encoded.length
        let chunk := { item with encoded := item.encoded.take take }
        let s := { s with queuedBytes := s.queuedBytes - take }
        if take = item.encoded.length then
          OutboundScheduler.drainControl writableBytes fuel { s with control := rest } (used + take)
            (out ++ [chunk])
        else
          (out ++ [chunk], used + take,
            { s with control := { item with encoded := item.encoded.drop take } :: rest })
      else (out, used, s)

/-- The loop over the channels in rotation. -/
def OutboundScheduler.drainData (writableBytes : Nat) :
    List UInt32 → OutboundScheduler → Nat → List OutboundItem → List OutboundItem × OutboundScheduler
  | [], s, _, out => (out, s)
  | channelNo :: channels, s, used, out =>
    match (s.data.lookup channelNo).getD [] with
    | [] => OutboundScheduler.drainData writableBytes channels s used out
    | item :: rest =>
      let expected := (s.expectedSequence.lookup channelNo).getD 0
      if expected ≠ 0 ∧ item.sequence ≠ expected then
        OutboundScheduler.drainData writableBytes channels s used out
      else
        let take := min (writableBytes - used) item.encoded.length
        if take = 0 then OutboundScheduler.drainData writableBytes channels s used out
        else
          let chunk := { item with encoded := item.encoded.take take }
          let s := { s with queuedBytes := s.queuedBytes - take, rrCursor := channelNo + 1 }
          if take = item.encoded.length then
            OutboundScheduler.drainData writableBytes channels
              { s with expectedSequence := s.expectedSequence.insert channelNo (item.sequence + 1)
                       data := s.data.insert channelNo rest }
              (used + take) (out ++ [chunk])
          else
            (out ++ [chunk],
              { s with data := s.data.insert channelNo
                         ({ item with encoded := item.encoded.drop take } :: rest) })

/-- The channels with queued data, in the order in which `drain` visits them. -/
def OutboundScheduler.rotation (s : OutboundScheduler) : List UInt32 :=
  let channels := (s.data.keys.filter fun c => (s.data.lookup c).getD [] ≠ []).insertionSort (· ≤ ·)
  let start := channels.findIdx (s.rrCursor ≤ ·)
  channels.drop start ++ channels.take start

def OutboundScheduler.eraseEmpty (s : OutboundScheduler) : OutboundScheduler :=
  { s with data := s.data.keys.foldl (fun data channelNo =>
      if (data.lookup channelNo).getD [] = [] then data.erase channelNo else data) s.data }

def OutboundScheduler.drain (s : OutboundScheduler) (writableBytes : Nat) :
    List OutboundItem × OutboundScheduler :=
  let (out, used, s) := OutboundScheduler.drainControl writableBytes s.control.length s 0 []
  if used ≥ writableBytes ∨ s.data.keys = [] then (out, s)
  else if s.rotation = [] then (out, s)
  else
    let (out, s) := OutboundScheduler.drainData writableBytes s.rotation s used out
    (out, s.eraseEmpty)

def OutboundScheduler.empty (s : OutboundScheduler) : Bool :=
  s.control.isEmpty && s.data.entries.all fun entry => entry.2.isEmpty

end LatticeGateway
