import LatticeGateway.BridgeRelay
import LatticeGateway.DataSending

namespace LatticeGateway

open Runs ConnectionEngine

theorem relayed_events (e : ConnectionEngine) (c : RelayCall) :
    ∃ more, (e.relayed c).events = e.events ++ more := by
  cases c with
  | receive bytes => exact call_events e (.receive bytes false)
  | send message => exact ⟨[], by rw [List.append_nil]; exact send_events e _ _⟩

theorem run_relayed_events (e : ConnectionEngine) (calls : List RelayCall) :
    ∃ more, (run relayed e calls).events = e.events ++ more := by
  induction calls generalizing e with
  | nil => exact ⟨[], by simp [run]⟩
  | cons c calls ih =>
    obtain ⟨first, hfirst⟩ := relayed_events e c
    obtain ⟨more, hmore⟩ := ih (e.relayed c)
    exact ⟨first ++ more, by rw [← List.append_assoc, ← hfirst]; exact hmore⟩

theorem run_sends_events (e : ConnectionEngine) (messages : List GatewayForwardedMessage) :
    (run relayed e (messages.map .send)).events = e.events := by
  induction messages generalizing e with
  | nil => rfl
  | cons message messages ih => exact (ih _).trans (send_events e _ _)

theorem bridged_run {e : ConnectionEngine} {caps : CapabilitySet} (h : Bridged e caps)
    (calls : List RelayCall) : Bridged (run relayed e calls) caps :=
  run_induction (I := (Bridged · caps)) (fun _ c hi => hi.relayed c) calls h

theorem heardIn_append (calls more : List RelayCall) :
    heardIn (calls ++ more) = heardIn calls ++ heardIn more :=
  List.flatMap_append ..

theorem sentIn_append (calls more : List RelayCall) :
    sentIn (calls ++ more) = sentIn calls ++ sentIn more :=
  List.filterMap_append ..

theorem sentIn_sends (messages : List GatewayForwardedMessage) :
    sentIn (messages.map .send) = messages := by
  unfold sentIn
  rw [List.filterMap_map]
  exact List.filterMap_some

theorem heardIn_sends (messages : List GatewayForwardedMessage) : heardIn (messages.map .send) = [] := by
  unfold heardIn
  rw [List.flatMap_map]
  exact List.flatMap_eq_nil_iff.mpr fun _ _ => rfl

/-- What is left over on a side of a bridge that has stopped: of the bytes that were there for its engine, of
the answers of this engine, and of the messages that the other side was to be handed. -/
structure RelaySlack where
  unread : Bytes := []
  unwritten : Bytes := []
  unsent : List (Except Error GatewayForwardedMessage) := []

/-- A side of a bridge between two moments: its engine made `calls` with the bytes `heard`, its transport took
the answers, and what it delivered on routed channels is what the other side was `sent`. -/
structure Served (g : Gateway) (source destination : CapabilitySet) (e₀ : ConnectionEngine)
    (t₀ : UnixTransport) (cursor : Nat) (e : ConnectionEngine) (t : UnixTransport) (heard : Bytes)
    (calls : List RelayCall) (sent : List GatewayForwardedMessage) (slack : RelaySlack) : Prop where
  fd : t.fd = t₀.fd
  engine : e = run relayed e₀ calls
  heard_eq : heard = heardIn calls ++ slack.unread
  taken : t₀.taken ++ e₀.answers calls = t.taken ++ slack.unwritten
  forwards : g.forwards source destination (e.events.drop cursor) = sent.map .ok ++ slack.unsent

theorem Served.trans {g : Gateway} {source destination : CapabilitySet} {e₀ e₁ e₂ : ConnectionEngine}
    {t₀ t₁ t₂ : UnixTransport} {cursor : Nat} {heard more : Bytes} {calls next : List RelayCall}
    {sent later : List GatewayForwardedMessage} {slack : RelaySlack} (hcursor : cursor ≤ e₀.events.length)
    (h : Served g source destination e₀ t₀ cursor e₁ t₁ heard calls sent {})
    (hnext : Served g source destination e₁ t₁ e₁.events.length e₂ t₂ more next later slack) :
    Served g source destination e₀ t₀ cursor e₂ t₂ (heard ++ more) (calls ++ next) (sent ++ later) slack where
  fd := hnext.fd.trans h.fd
  engine := by rw [run_append, ← h.engine, hnext.engine]
  heard_eq := by
    rw [h.heard_eq, hnext.heard_eq, heardIn_append, List.append_assoc, List.append_assoc]
    rfl
  taken := by
    have htaken := h.taken
    rw [List.append_nil] at htaken
    rw [answers_append, ← h.engine, ← List.append_assoc, htaken, hnext.taken]
  forwards := by
    obtain ⟨first, hfirst⟩ := run_relayed_events e₀ calls
    obtain ⟨events, hevents⟩ := run_relayed_events e₁ next
    rw [← h.engine] at hfirst
    rw [← hnext.engine] at hevents
    have hwithin : cursor ≤ e₁.events.length := by
      rw [hfirst, List.length_append]
      omega
    have hlater := hnext.forwards
    rw [hevents, List.drop_left] at hlater
    have hforwards := h.forwards
    rw [List.append_nil] at hforwards
    unfold Gateway.forwards at hforwards hlater ⊢
    rw [hevents, List.drop_append_of_le_length hwithin, List.filterMap_append, hforwards, hlater,
      List.map_append, List.append_assoc]

namespace BridgeRuntime

def swap (r : BridgeRuntime) : BridgeRuntime :=
  ⟨r.right, r.left, r.rightTransport, r.leftTransport, r.gateway, r.rightEvents, r.leftEvents⟩

theorem readRight_eq (r : BridgeRuntime) (outcome : Option RecvOutcome) :
    r.readRight outcome = ((r.swap.readLeft outcome).1, (r.swap.readLeft outcome).2.swap) := by
  cases outcome <;> rfl

/-- A bridge between two rounds: both transports are open, both engines are negotiated, and every event has
been looked at. -/
structure Running (r : BridgeRuntime) (left right : CapabilitySet) : Prop where
  leftOpen : 0 ≤ r.leftTransport.fd
  rightOpen : 0 ≤ r.rightTransport.fd
  leftBridged : Bridged r.left left
  rightBridged : Bridged r.right right
  leftEvents : r.leftEvents = r.left.events.length
  rightEvents : r.rightEvents = r.right.events.length

theorem Running.swap {r : BridgeRuntime} {left right : CapabilitySet} (h : r.Running left right) :
    r.swap.Running right left :=
  ⟨h.rightOpen, h.leftOpen, h.rightBridged, h.leftBridged, h.rightEvents, h.leftEvents⟩

/-- What a bridge does between two moments, seen from both sides. -/
structure Relays (r₀ : BridgeRuntime) (left right : CapabilitySet) (heardLeft heardRight : Bytes)
    (result : Except Halt Unit) (r : BridgeRuntime) (callsLeft callsRight : List RelayCall)
    (slackLeft slackRight : RelaySlack) : Prop where
  gateway : r.gateway = r₀.gateway
  servedLeft : Served r₀.gateway left right r₀.left r₀.leftTransport r₀.leftEvents r.left r.leftTransport
    heardLeft callsLeft (sentIn callsRight) slackLeft
  servedRight : Served r₀.gateway right left r₀.right r₀.rightTransport r₀.rightEvents r.right
    r.rightTransport heardRight callsRight (sentIn callsLeft) slackRight
  ok : result = .ok () → slackLeft = {} ∧ slackRight = {} ∧ r.Running left right
  optional : result ≠ .error .badOptional

section Relaying

variable {r₀ r₁ r₂ r : BridgeRuntime} {left right : CapabilitySet} {heardLeft heardRight moreLeft
  moreRight : Bytes} {result : Except Halt Unit} {callsLeft callsRight nextLeft nextRight : List RelayCall}
  {slackLeft slackRight : RelaySlack}

theorem Relays.swap (h : Relays r₀ left right heardLeft heardRight result r callsLeft callsRight slackLeft
      slackRight) :
    Relays r₀.swap right left heardRight heardLeft result r.swap callsRight callsLeft slackRight slackLeft where
  gateway := h.gateway
  servedLeft := h.servedRight
  servedRight := h.servedLeft
  ok hok := ⟨(h.ok hok).2.1, (h.ok hok).1, (h.ok hok).2.2.swap⟩
  optional := h.optional

theorem Running.stays (h : r.Running left right) : Relays r left right [] [] (.ok ()) r [] [] {} {} where
  gateway := rfl
  servedLeft := ⟨rfl, rfl, rfl, rfl, by rw [h.leftEvents, List.drop_length]; rfl⟩
  servedRight := ⟨rfl, rfl, rfl, rfl, by rw [h.rightEvents, List.drop_length]; rfl⟩
  ok _ := ⟨rfl, rfl, h⟩
  optional := by simp

/-- A bridge that stops before it reads on leaves what is there for it. -/
theorem Relays.unheard (hhalt : result ≠ .ok ())
    (h : Relays r₀ left right heardLeft heardRight result r callsLeft callsRight slackLeft slackRight)
    (moreLeft moreRight : Bytes) :
    Relays r₀ left right (heardLeft ++ moreLeft) (heardRight ++ moreRight) result r callsLeft callsRight
      { slackLeft with unread := slackLeft.unread ++ moreLeft }
      { slackRight with unread := slackRight.unread ++ moreRight } where
  gateway := h.gateway
  servedLeft := { h.servedLeft with
    heard_eq := by rw [h.servedLeft.heard_eq, List.append_assoc] }
  servedRight := { h.servedRight with
    heard_eq := by rw [h.servedRight.heard_eq, List.append_assoc] }
  ok hok := absurd hok hhalt
  optional := h.optional

theorem Relays.trans (hrunning : r₀.Running left right)
    (h : Relays r₀ left right heardLeft heardRight (.ok ()) r₁ callsLeft callsRight {} {})
    (hnext : Relays r₁ left right moreLeft moreRight result r₂ nextLeft nextRight slackLeft slackRight) :
    Relays r₀ left right (heardLeft ++ moreLeft) (heardRight ++ moreRight) result r₂ (callsLeft ++ nextLeft)
      (callsRight ++ nextRight) slackLeft slackRight := by
  obtain ⟨_, _, hmiddle⟩ := h.ok rfl
  have hleft := hnext.servedLeft
  have hright := hnext.servedRight
  rw [h.gateway, hmiddle.leftEvents] at hleft
  rw [h.gateway, hmiddle.rightEvents] at hright
  refine ⟨hnext.gateway.trans h.gateway, ?_, ?_, hnext.ok, hnext.optional⟩
  · rw [sentIn_append]
    exact h.servedLeft.trans (by rw [hrunning.leftEvents]) hleft
  · rw [sentIn_append]
    exact h.servedRight.trans (by rw [hrunning.rightEvents]) hright

end Relaying

def heardNow : Option RecvOutcome → Bytes
  | none => []
  | some outcome => outcome.bytes

theorem readLeft_relays {r : BridgeRuntime} {left right : CapabilitySet} (h : r.Running left right)
    (outcome : Option RecvOutcome) :
    ∃ callsLeft callsRight slackLeft slackRight, Relays r left right (heardNow outcome) []
      (r.readLeft outcome).1 (r.readLeft outcome).2 callsLeft callsRight slackLeft slackRight := by
  cases outcome with
  | none => exact ⟨[], [], {}, {}, h.stays⟩
  | some outcome =>
    obtain ⟨calls, messages, lostFrom, lostTo, rest, hread⟩ := readBridgeSide_read r.gateway (s :=
      ⟨r.leftTransport, r.left, r.rightTransport, r.right, r.leftEvents⟩) h.leftBridged h.rightBridged
      h.leftOpen h.rightOpen h.leftEvents outcome
    have hevents : (r.readLeft (some outcome)).2.right.events = r.right.events := by
      have hto := congrArg ConnectionEngine.events hread.toEngine
      exact hto.trans (run_sends_events _ _)
    refine ⟨calls, messages.map .send, ⟨[], lostFrom, rest⟩, ⟨[], lostTo, []⟩, rfl, ?_, ?_, fun hok => ?_,
      hread.optional⟩
    · refine ⟨hread.fromFd, hread.fromEngine, ?_, hread.fromTaken, ?_⟩
      · rw [List.append_nil]
        exact hread.heard
      · rw [sentIn_sends]
        exact hread.forwards
    · refine ⟨hread.toFd, hread.toEngine, ?_, hread.toTaken, ?_⟩
      · rw [heardIn_sends]
        rfl
      · rw [hevents, h.rightEvents, List.drop_length, hread.sends]
        rfl
    · obtain ⟨hfrom, hto, hrest, hend⟩ := hread.ok hok
      subst hfrom hto hrest
      refine ⟨rfl, rfl, ?_, ?_, ?_, ?_, hend, h.rightEvents.trans (congrArg List.length hevents.symm)⟩
      · exact h.leftOpen.trans_eq hread.fromFd.symm
      · exact h.rightOpen.trans_eq hread.toFd.symm
      · have hbridged := bridged_run h.leftBridged calls
        rw [← hread.fromEngine] at hbridged
        exact hbridged
      · have hbridged := bridged_run h.rightBridged (messages.map .send)
        rw [← hread.toEngine] at hbridged
        exact hbridged

theorem readRight_relays {r : BridgeRuntime} {left right : CapabilitySet} (h : r.Running left right)
    (outcome : Option RecvOutcome) :
    ∃ callsLeft callsRight slackLeft slackRight, Relays r left right [] (heardNow outcome)
      (r.readRight outcome).1 (r.readRight outcome).2 callsLeft callsRight slackLeft slackRight := by
  obtain ⟨callsRight, callsLeft, slackRight, slackLeft, hrelays⟩ := readLeft_relays h.swap outcome
  rw [readRight_eq]
  exact ⟨callsLeft, callsRight, slackLeft, slackRight, hrelays.swap⟩

end BridgeRuntime

namespace BridgeRound

def heardLeft : BridgeRound → Bytes
  | ready left _ => BridgeRuntime.heardNow left
  | _ => []

def heardRight : BridgeRound → Bytes
  | ready _ right => BridgeRuntime.heardNow right
  | _ => []

end BridgeRound

namespace BridgeRuntime

theorem round_relays {r : BridgeRuntime} {left right : CapabilitySet} (h : r.Running left right)
    (next : BridgeRound) :
    ∃ callsLeft callsRight slackLeft slackRight, Relays r left right next.heardLeft next.heardRight
      (r.round next).1 (r.round next).2 callsLeft callsRight slackLeft slackRight := by
  have hopen : ¬ (r.leftTransport.fd < 0 ∨ r.rightTransport.fd < 0) := by
    have hleft := h.leftOpen
    have hright := h.rightOpen
    omega
  unfold round
  rw [if_neg hopen]
  cases next with
  | interrupted => exact ⟨[], [], {}, {}, h.stays⟩
  | failed => exact ⟨[], [], {}, {}, { h.stays with ok := by simp, optional := by simp }⟩
  | ready leftOutcome rightOutcome =>
    obtain ⟨callsLeft, callsRight, slackLeft, slackRight, hleft⟩ := readLeft_relays h leftOutcome
    dsimp only
    rcases hread : r.readLeft leftOutcome with ⟨halt | ⟨⟩, r₁⟩
    · rw [hread] at hleft
      have hstopped := hleft.unheard (by simp) [] (heardNow rightOutcome)
      rw [List.append_nil, List.nil_append] at hstopped
      exact ⟨_, _, _, _, hstopped⟩
    · rw [hread] at hleft
      obtain ⟨rfl, rfl, hmiddle⟩ := hleft.ok rfl
      obtain ⟨nextLeft, nextRight, slackLeft, slackRight, hright⟩ := readRight_relays hmiddle rightOutcome
      have hboth := hleft.trans h hright
      rw [List.append_nil, List.nil_append] at hboth
      exact ⟨_, _, _, _, hboth⟩

theorem rounds_relay {r : BridgeRuntime} {left right : CapabilitySet} (h : r.Running left right)
    (rounds : List BridgeRound) :
    ∃ callsLeft callsRight slackLeft slackRight, Relays r left right (rounds.flatMap BridgeRound.heardLeft)
      (rounds.flatMap BridgeRound.heardRight) (runUnixBridgeLoop rounds r).1 (runUnixBridgeLoop rounds r).2
      callsLeft callsRight slackLeft slackRight := by
  induction rounds generalizing r with
  | nil => exact ⟨[], [], {}, {}, h.stays⟩
  | cons next rounds ih =>
    obtain ⟨callsLeft, callsRight, slackLeft, slackRight, hround⟩ := round_relays h next
    simp only [runUnixBridgeLoop, List.flatMap_cons]
    rcases hnext : r.round next with ⟨halt | ⟨⟩, r₁⟩
    · rw [hnext] at hround
      exact ⟨_, _, _, _, hround.unheard (by simp) _ _⟩
    · rw [hnext] at hround
      obtain ⟨rfl, rfl, hmiddle⟩ := hround.ok rfl
      obtain ⟨nextLeft, nextRight, slackLeft, slackRight, hrest⟩ := ih hmiddle
      exact ⟨_, _, _, _, hround.trans h hrest⟩

/-- Over any rounds, each engine is handed what its peer sent and what the other side delivered on routed
channels, all of it in order and once; so are its answers written; only a bridge that stops leaves some over. -/
theorem bridge_relays {left right : ConnectionEngine} {capsLeft capsRight : CapabilitySet}
    (hleft : Reached left) (hright : Reached right) (hcapsLeft : left.capabilities = some capsLeft)
    (hcapsRight : right.capabilities = some capsRight) (leftTransport rightTransport : UnixTransport)
    (hleftOpen : 0 ≤ leftTransport.fd) (hrightOpen : 0 ≤ rightTransport.fd) (gateway : Gateway)
    (rounds : List BridgeRound) :
    ∃ callsLeft callsRight slackLeft slackRight,
      Relays (begin left right leftTransport rightTransport gateway) capsLeft capsRight
        (rounds.flatMap BridgeRound.heardLeft) (rounds.flatMap BridgeRound.heardRight)
        (runUnixBridgeLoop rounds (begin left right leftTransport rightTransport gateway)).1
        (runUnixBridgeLoop rounds (begin left right leftTransport rightTransport gateway)).2
        callsLeft callsRight slackLeft slackRight :=
  rounds_relay ⟨hleftOpen, hrightOpen, ⟨hleft, hcapsLeft⟩, ⟨hright, hcapsRight⟩, rfl, rfl⟩ rounds

/-- An engine that has negotiated and taken its peer's OPEN of a channel. -/
def openedEngine : ConnectionEngine :=
  run call (make { maxChannels := 1 } echoRegistry none) (negotiation { maxChannels := 1 } ++
    [.receive (frameBytes { type := .open, channel := ⟨1, 1⟩, payload := u32Bytes 7 ++ u32Bytes 0 }) false])

def hiBytes : Bytes := frameBytes (dataFrame ⟨1, 1⟩ 1 2 1 (0, [104, 105]))

/-- The left peer's message comes in two parts. -/
def hiRounds : List BridgeRound :=
  [.interrupted, .ready (some (.got (hiBytes.take 5))) none, .ready (some (.got (hiBytes.drop 5))) none]

def hiBridge : BridgeRuntime :=
  begin openedEngine openedEngine ⟨3, [], []⟩ ⟨4, [.interrupted, .took 20, .took 31], []⟩
    (({} : Gateway).createRoute ⟨1, 1⟩ ⟨1, 1⟩ 7).2

theorem bridge_relays_hi : ∃ caps callsLeft callsRight,
    Relays hiBridge caps caps hiBytes [] (.ok ()) (runUnixBridgeLoop hiRounds hiBridge).2 callsLeft callsRight
      {} {} ∧
    (sentIn callsRight).map (·.payload) = [[104, 105]] := by
  obtain ⟨hcaps, hleft, hright, hok, hpayloads⟩ : openedEngine.capabilities.isSome = true ∧
      hiRounds.flatMap BridgeRound.heardLeft = hiBytes ∧ hiRounds.flatMap BridgeRound.heardRight = [] ∧
      (runUnixBridgeLoop hiRounds hiBridge).1.isOk = true ∧
      (((openedEngine.capabilities.map fun caps => hiBridge.gateway.forwards caps caps
        ((runUnixBridgeLoop hiRounds hiBridge).2.left.events.drop hiBridge.leftEvents)).getD []).map
          fun forwarded => (forwarded.toOption.map (·.payload)).getD []) = [[104, 105]] := by
    decide +kernel
  obtain ⟨caps, hcaps⟩ := Option.isSome_iff_exists.mp hcaps
  have hreached : Reached openedEngine := ⟨_, _, _, _, rfl⟩
  obtain ⟨callsLeft, callsRight, slackLeft, slackRight, hrelays⟩ := bridge_relays hreached hreached hcaps hcaps
    ⟨3, [], []⟩ ⟨4, [.interrupted, .took 20, .took 31], []⟩ (by decide) (by decide)
    (({} : Gateway).createRoute ⟨1, 1⟩ ⟨1, 1⟩ 7).2 hiRounds
  change Relays hiBridge caps caps _ _ (runUnixBridgeLoop hiRounds hiBridge).1
    (runUnixBridgeLoop hiRounds hiBridge).2 _ _ _ _ at hrelays
  cases hresult : (runUnixBridgeLoop hiRounds hiBridge).1 with
  | error halt =>
    rw [hresult] at hok
    cases hok
  | ok value =>
    rw [hresult, hleft, hright] at hrelays
    obtain ⟨rfl, rfl, _⟩ := hrelays.ok rfl
    have hforwards := hrelays.servedLeft.forwards
    refine ⟨caps, callsLeft, callsRight, hrelays, ?_⟩
    rw [hcaps, Option.map_some, Option.getD_some, hforwards, List.append_nil, List.map_map] at hpayloads
    exact hpayloads

end BridgeRuntime

end LatticeGateway
