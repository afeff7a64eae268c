import LatticeGateway.Types
import Mathlib.Data.List.Sort

namespace LatticeGateway

inductive TimerKind
  | handshake | fragmentGap | retry | idle | pongDeadline | drain
  deriving DecidableEq, Repr

structure TimerEvent where
  id : UInt64 := 0
  kind : TimerKind := .idle
  channel : ChannelId := {}
  dueMs : UInt64 := 0
  deriving DecidableEq, Repr

structure TimerWheel where
  nextId : UInt64 := 1
  timers : List TimerEvent := []
  deriving DecidableEq, Repr

/-- The comparison of `schedule`, read as "not after". -/
def TimerEvent.notAfter (a b : TimerEvent) : Bool :=
  a.dueMs < b.dueMs || (a.dueMs == b.dueMs && a.id ≤ b.id)

def TimerWheel.schedule (wheel : TimerWheel) (kind : TimerKind) (channel : ChannelId) (dueMs : UInt64) :
    UInt64 × TimerWheel :=
  let event : TimerEvent := { id := wheel.nextId, kind, channel, dueMs }
  (event.id,
    { nextId := wheel.nextId + 1
      timers := (wheel.timers ++ [event]).insertionSort fun a b => a.notAfter b })

def TimerWheel.cancel (wheel : TimerWheel) (id : UInt64) : Except Error Unit × TimerWheel :=
  let timers := wheel.timers.filter (·.id ≠ id)
  if timers.length = wheel.timers.length then
    (.error (makeError .internal .illegalState .none "timer id is not live"), { wheel with timers })
  else (.ok (), { wheel with timers })

def TimerWheel.expire (wheel : TimerWheel) (nowMs : UInt64) : List TimerEvent × TimerWheel :=
  (wheel.timers.takeWhile (·.dueMs ≤ nowMs),
    { wheel with timers := wheel.timers.dropWhile (·.dueMs ≤ nowMs) })

end LatticeGateway
