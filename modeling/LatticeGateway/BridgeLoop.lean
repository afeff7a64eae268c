import LatticeGateway.EngineCalls
import LatticeGateway.Gateway
import LatticeGateway.UnixTransport

namespace LatticeGateway

/-- The arguments of `read_bridge_side`: the side that is read, the other, and the first of the read side's
events that has not been looked at. -/
structure BridgeSide where
  fromTransport : UnixTransport
  fromEngine : ConnectionEngine
  toTransport : UnixTransport
  toEngine : ConnectionEngine
  eventCursor : Nat

structure BridgeRuntime where
  left : ConnectionEngine
  right : ConnectionEngine
  leftTransport : UnixTransport
  rightTransport : UnixTransport
  gateway : Gateway
  leftEvents : Nat := 0
  rightEvents : Nat := 0

/-- How the `select` of a round ends, with what the `recv` of each side gives that is ready. -/
inductive BridgeRound
  | interrupted
  | failed
  | ready (left right : Option RecvOutcome)
  deriving DecidableEq, Repr

def bridgePeerClosed : Error := transportError "bridge peer closed"
def bridgeTransportClosed : Error := transportError "bridge transport closed"
def bridgeSelectFailed : Error := transportError "bridge select failed"

namespace Gateway

/-- The loop of `forward_new_events` over the events from the cursor on. -/
def forwardLoop (g : Gateway) : List ConnectionEvent → BridgeSide → Except Halt Unit × BridgeSide
  | [], s => (.ok (), s)
  | event :: events, s =>
    let s := { s with eventCursor := s.eventCursor + 1 }
    if event.kind ≠ .messageDelivered then g.forwardLoop events s
    else
      match g.findRoute event.channel with
      | .error _ => g.forwardLoop events s
      | .ok _ =>
        match s.fromEngine.capabilities, s.toEngine.capabilities with
        | some source, some destination =>
          match g.bridgeToConnection source destination s.toEngine event.channel event.payload with
          | (.error error, toEngine) => (.error (.error error), { s with toEngine })
          | (.ok forwarded, toEngine) =>
            match s.toTransport.writeAll forwarded with
            | (.error halt, toTransport) => (.error halt, { s with toEngine, toTransport })
            | (.ok _, toTransport) => g.forwardLoop events { s with toEngine, toTransport }
        | _, _ => (.error .badOptional, s)

def forwardNewEvents (g : Gateway) (s : BridgeSide) : Except Halt Unit × BridgeSide :=
  g.forwardLoop (s.fromEngine.events.drop s.eventCursor) s

def readBridgeSide (g : Gateway) (s : BridgeSide) (outcome : RecvOutcome) :
    Except Halt Unit × BridgeSide :=
  match s.fromTransport.readSome kDefaultMaxFrame outcome with
  | .error error => (.error (.error error), s)
  | .ok bytes =>
    if bytes = [] then (.error (.error bridgePeerClosed), s)
    else
      match s.fromEngine.receive bytes false with
      | (.error error, fromEngine) => (.error (.error error), { s with fromEngine })
      | (.ok produced, fromEngine) =>
        match s.fromTransport.writeAll produced with
        | (.error halt, fromTransport) => (.error halt, { s with fromEngine, fromTransport })
        | (.ok _, fromTransport) => g.forwardNewEvents { s with fromEngine, fromTransport }

end Gateway

namespace BridgeRuntime

/-- The runtime with which `bridge_unix` starts the loop: what the engines recorded before is not looked at. -/
def begin (left right : ConnectionEngine) (leftTransport rightTransport : UnixTransport) (gateway : Gateway) :
    BridgeRuntime :=
  { left, right, leftTransport, rightTransport, gateway
    leftEvents := left.events.length, rightEvents := right.events.length }

def readLeft (r : BridgeRuntime) : Option RecvOutcome → Except Halt Unit × BridgeRuntime
  | none => (.ok (), r)
  | some outcome =>
    let (result, s) := r.gateway.readBridgeSide
      ⟨r.leftTransport, r.left, r.rightTransport, r.right, r.leftEvents⟩ outcome
    (result, { r with leftTransport := s.fromTransport, left := s.fromEngine
                      rightTransport := s.toTransport, right := s.toEngine, leftEvents := s.eventCursor })

def readRight (r : BridgeRuntime) : Option RecvOutcome → Except Halt Unit × BridgeRuntime
  | none => (.ok (), r)
  | some outcome =>
    let (result, s) := r.gateway.readBridgeSide
      ⟨r.rightTransport, r.right, r.leftTransport, r.left, r.rightEvents⟩ outcome
    (result, { r with rightTransport := s.fromTransport, right := s.fromEngine
                      leftTransport := s.toTransport, left := s.toEngine, rightEvents := s.eventCursor })

/-- A round of `run_unix_bridge_loop`. -/
def round (r : BridgeRuntime) (round : BridgeRound) : Except Halt Unit × BridgeRuntime :=
  if r.leftTransport.fd < 0 ∨ r.rightTransport.fd < 0 then (.error (.error bridgeTransportClosed), r)
  else
    match round with
    | .interrupted => (.ok (), r)
    | .failed => (.error (.error bridgeSelectFailed), r)
    | .ready left right =>
      match r.readLeft left with
      | (.error halt, r) => (.error halt, r)
      | (.ok _, r) => r.readRight right

/-- The loop as far as its rounds go: it is still running when they are over, or has stopped before. -/
def runUnixBridgeLoop : List BridgeRound → BridgeRuntime → Except Halt Unit × BridgeRuntime
  | [], r => (.ok (), r)
  | next :: rounds, r =>
    match r.round next with
    | (.error halt, r) => (.error halt, r)
    | (.ok _, r) => runUnixBridgeLoop rounds r

end BridgeRuntime

end LatticeGateway
