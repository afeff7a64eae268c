import LatticeGateway.BridgeLoop
import LatticeGateway.ConcurrentOpens
import LatticeGateway.NegotiatedPlugins

namespace LatticeGateway

open Runs

/-- What a relay does with one of its engines: it hands it bytes of its own peer, or a message of the other
side. -/
inductive RelayCall
  | receive (bytes : Bytes)
  | send (message : GatewayForwardedMessage)

def heardIn (calls : List RelayCall) : Bytes :=
  calls.flatMap fun
    | .receive bytes => bytes
    | .send _ => []

def sentIn (calls : List RelayCall) : List GatewayForwardedMessage :=
  calls.filterMap fun
    | .receive _ => none
    | .send message => some message

namespace ConnectionEngine

def relay (e : ConnectionEngine) : RelayCall → Except Error (List Bytes) × ConnectionEngine
  | .receive bytes => e.receive bytes false
  | .send message => e.send message.destination message.payload

def relayed (e : ConnectionEngine) (c : RelayCall) : ConnectionEngine := (e.relay c).2

/-- The bytes of all the chunks with which the calls are answered. -/
def answers : ConnectionEngine → List RelayCall → Bytes
  | _, [] => []
  | e, c :: calls => (outbound (e.relay c).1).flatten ++ answers (e.relayed c) calls

theorem answers_append (e : ConnectionEngine) (calls more : List RelayCall) :
    e.answers (calls ++ more) = e.answers calls ++ (run relayed e calls).answers more := by
  induction calls generalizing e with
  | nil => rfl
  | cons c calls ih =>
    simp only [List.cons_append, answers, ih, List.append_assoc]
    rfl

/-- An engine that some run of calls has led to. -/
def Reached (e : ConnectionEngine) : Prop :=
  ∃ policy registry executor, ∃ calls : List Call, e = run call (make policy registry executor) calls

theorem Reached.call {e : ConnectionEngine} (h : Reached e) (c : Call) : Reached (e.call c) := by
  obtain ⟨policy, registry, executor, calls, rfl⟩ := h
  refine ⟨policy, registry, executor, calls ++ [c], ?_⟩
  rw [run_append]
  rfl

theorem Reached.settled {e : ConnectionEngine} (h : Reached e) : Settled e := by
  obtain ⟨policy, registry, executor, calls, rfl⟩ := h
  have hmake : Settled (make policy registry executor) := ⟨fun _ => rfl, fun h => absurd rfl h⟩
  exact run_induction (I := Settled) (fun _ c hi => (call_effect hi c).settled) calls hmake

theorem Reached.kept {e : ConnectionEngine} (h : Reached e) (c : Call) {caps : CapabilitySet}
    (hcaps : e.capabilities = some caps) : (e.call c).capabilities = some caps :=
  (call_effect h.settled c).kept caps hcaps

/-- Events are recorded behind those that there are. -/
theorem call_events (e : ConnectionEngine) (c : Call) : ∃ more, (e.call c).events = e.events ++ more := by
  obtain ⟨hchain, hlast⟩ := callStates_steps e c
  have hgrows : ∀ s t : ConnectionEngine, e.events <+: s.events → Step s t → e.events <+: t.events := by
    intro s t hs h
    refine hs.trans ?_
    cases h with
    | silent h =>
      obtain ⟨more, hevents, _⟩ := h.events
      exact ⟨more, hevents.symm⟩
    | hello _ _ _ h =>
      obtain ⟨more, hevents, _⟩ := h.events
      exact ⟨_ :: more, by rw [hevents]; exact List.append_cons ..⟩
    | delivers h =>
      obtain ⟨_, _, _, _, _, _, _, _, _, _, h⟩ := h
      obtain ⟨more, hevents, _⟩ := h.events
      exact ⟨_ :: more, by rw [hevents]; exact List.append_cons ..⟩
  obtain ⟨more, hmore⟩ := (isChain_invariant hgrows (List.prefix_refl _) hchain).1 _
    (List.mem_of_getLast? hlast)
  exact ⟨more, hmore.symm⟩

theorem send_events (e : ConnectionEngine) (id : ChannelId) (payload : Bytes) :
    (e.send id payload).2.events = e.events := by
  rcases send_cases e id payload with
    ⟨error, h⟩ | ⟨capabilities, t, slot, flow, _, ⟨_, error, h⟩ | ⟨_, h⟩⟩
  · rw [h]
  · rw [h]
  · rw [h]
    exact (sendLoop_sent _ _ _ _ _ _).events

/-- What the engines of a bridge keep of one another's business. -/
structure Bridged (e : ConnectionEngine) (caps : CapabilitySet) : Prop where
  reached : Reached e
  capabilities : e.capabilities = some caps

theorem Bridged.relayed {e : ConnectionEngine} {caps : CapabilitySet} (h : Bridged e caps)
    (c : RelayCall) : Bridged (e.relayed c) caps := by
  cases c with
  | receive bytes =>
    exact ⟨h.reached.call (.receive bytes false), h.reached.kept (.receive bytes false) h.capabilities⟩
  | send message =>
    exact ⟨h.reached.call (.send message.destination message.payload),
      h.reached.kept (.send message.destination message.payload) h.capabilities⟩

end ConnectionEngine

open ConnectionEngine

/-- What the gateway makes of an event, if it is the delivery of a message on a channel with a route. -/
def Gateway.forward? (g : Gateway) (source destination : CapabilitySet) (event : ConnectionEvent) :
    Option (Except Error GatewayForwardedMessage) :=
  if event.kind ≠ .messageDelivered then none
  else
    match g.findRoute event.channel with
    | .error _ => none
    | .ok _ => some (g.bridgeMessage source destination event.channel event.payload)

def Gateway.forwards (g : Gateway) (source destination : CapabilitySet) (events : List ConnectionEvent) :
    List (Except Error GatewayForwardedMessage) :=
  events.filterMap (g.forward? source destination)

/-- What `forward_new_events` does with some events: it hands the other side `messages`, and does not get
to the `rest`; of what the other side answers, `lost` is not written. -/
structure Forwarded (g : Gateway) (source destination : CapabilitySet) (events : List ConnectionEvent)
    (s s' : BridgeSide) (result : Except Halt Unit) (messages : List GatewayForwardedMessage) (lost : Bytes)
    (rest : List (Except Error GatewayForwardedMessage)) : Prop where
  fromTransport : s'.fromTransport = s.fromTransport
  fromEngine : s'.fromEngine = s.fromEngine
  toFd : s'.toTransport.fd = s.toTransport.fd
  toEngine : s'.toEngine = run relayed s.toEngine (messages.map .send)
  taken : s.toTransport.taken ++ s.toEngine.answers (messages.map .send) = s'.toTransport.taken ++ lost
  forwards : g.forwards source destination events = messages.map .ok ++ rest
  ok : result = .ok () → lost = [] ∧ rest = [] ∧ s'.eventCursor = s.eventCursor + events.length
  optional : result ≠ .error .badOptional

section Forwarding

variable {g : Gateway} {source destination : CapabilitySet} {event : ConnectionEvent}
  {events : List ConnectionEvent} {s s' : BridgeSide} {result : Except Halt Unit}
  {messages : List GatewayForwardedMessage} {lost : Bytes}
  {rest : List (Except Error GatewayForwardedMessage)}

/-- An event that is none of the gateway's business. -/
theorem Forwarded.skip (hnone : g.forward? source destination event = none)
    (h : Forwarded g source destination events { s with eventCursor := s.eventCursor + 1 } s' result
      messages lost rest) :
    Forwarded g source destination (event :: events) s s' result messages lost rest where
  fromTransport := h.fromTransport
  fromEngine := h.fromEngine
  toFd := h.toFd
  toEngine := h.toEngine
  taken := h.taken
  forwards := by
    unfold Gateway.forwards
    rw [List.filterMap_cons_none hnone]
    exact h.forwards
  ok hok := by
    obtain ⟨hlost, hrest, hcursor⟩ := h.ok hok
    exact ⟨hlost, hrest, by rw [hcursor, List.length_cons]; exact Nat.add_right_comm ..⟩
  optional := h.optional

/-- A message that is handed over and answered, in front of the others. -/
theorem Forwarded.handed {message : GatewayForwardedMessage} {chunks : List Bytes}
    {toEngine : ConnectionEngine} {toTransport : UnixTransport}
    (hsome : g.forward? source destination event = some (.ok message))
    (hsend : s.toEngine.send message.destination message.payload = (.ok chunks, toEngine))
    (hfd : toTransport.fd = s.toTransport.fd)
    (htaken : toTransport.taken = s.toTransport.taken ++ chunks.flatten)
    (h : Forwarded g source destination events
      { s with eventCursor := s.eventCursor + 1, toEngine, toTransport } s' result messages lost rest) :
    Forwarded g source destination (event :: events) s s' result (message :: messages) lost rest where
  fromTransport := h.fromTransport
  fromEngine := h.fromEngine
  toFd := h.toFd.trans hfd
  toEngine := by
    have hrelayed : s.toEngine.relayed (.send message) = toEngine := congrArg Prod.snd hsend
    rw [h.toEngine, List.map_cons, ← hrelayed]
    rfl
  taken := by
    have hrelayed : s.toEngine.relayed (.send message) = toEngine := congrArg Prod.snd hsend
    have hanswer : (s.toEngine.relay (.send message)).1 = .ok chunks := congrArg Prod.fst hsend
    rw [List.map_cons, answers, hanswer, hrelayed, ← h.taken, htaken, List.append_assoc]
    rfl
  forwards := by
    unfold Gateway.forwards
    rw [List.filterMap_cons_some hsome, List.map_cons, List.cons_append]
    exact congrArg _ h.forwards
  ok hok := by
    obtain ⟨hlost, hrest, hcursor⟩ := h.ok hok
    exact ⟨hlost, hrest, by rw [hcursor, List.length_cons]; exact Nat.add_right_comm ..⟩
  optional := h.optional

theorem bridgeToConnection_eq (g : Gateway) (source destination : CapabilitySet) (e : ConnectionEngine)
    (channel : ChannelId) (payload : Bytes) :
    (∃ error, g.bridgeMessage source destination channel payload = .error error ∧
      g.bridgeToConnection source destination e channel payload = (.error error, e)) ∨
    ∃ message, g.bridgeMessage source destination channel payload = .ok message ∧
      g.bridgeToConnection source destination e channel payload =
        e.send message.destination message.payload := by
  unfold Gateway.bridgeToConnection
  cases g.bridgeMessage source destination channel payload with
  | error error => exact .inl ⟨error, rfl, rfl⟩
  | ok message => exact .inr ⟨message, rfl, rfl⟩

theorem forwardLoop_forwarded (g : Gateway) {source destination : CapabilitySet}
    (events : List ConnectionEvent) {s : BridgeSide} (hopen : 0 ≤ s.toTransport.fd)
    (hfrom : s.fromEngine.capabilities = some source) (hto : Bridged s.toEngine destination) :
    ∃ messages lost rest, Forwarded g source destination events s (g.forwardLoop events s).2
      (g.forwardLoop events s).1 messages lost rest := by
  induction events generalizing s with
  | nil =>
    exact ⟨[], [], [], rfl, rfl, rfl, rfl, rfl, rfl, fun _ => ⟨rfl, rfl, rfl⟩, by simp [Gateway.forwardLoop]⟩
  | cons event events ih =>
    unfold Gateway.forwardLoop
    dsimp only
    by_cases hkind : event.kind ≠ .messageDelivered
    · rw [if_pos hkind]
      obtain ⟨messages, lost, rest, h⟩ := ih (s := { s with eventCursor := s.eventCursor + 1 }) hopen hfrom hto
      exact ⟨messages, lost, rest, h.skip (if_pos hkind)⟩
    rw [if_neg hkind]
    cases hroute : g.findRoute event.channel with
    | error error =>
      have hnone : g.forward? source destination event = none := by
        unfold Gateway.forward?
        rw [if_neg hkind, hroute]
      obtain ⟨messages, lost, rest, h⟩ := ih (s := { s with eventCursor := s.eventCursor + 1 }) hopen hfrom hto
      exact ⟨messages, lost, rest, h.skip hnone⟩
    | ok route =>
      have hsome : g.forward? source destination event =
          some (g.bridgeMessage source destination event.channel event.payload) := by
        unfold Gateway.forward?
        rw [if_neg hkind, hroute]
      have hforwards : g.forwards source destination (event :: events) =
          g.bridgeMessage source destination event.channel event.payload ::
            g.forwards source destination events := by
        unfold Gateway.forwards
        rw [List.filterMap_cons_some hsome]
      dsimp only
      rw [hfrom, hto.capabilities]
      dsimp only
      rcases bridgeToConnection_eq g source destination s.toEngine event.channel event.payload with
        ⟨error, hmessage, hbridge⟩ | ⟨message, hmessage, hbridge⟩
      · rw [hbridge]
        exact ⟨[], [], _, rfl, rfl, rfl, rfl, by simp [answers], hforwards, by simp, by simp⟩
      · rw [hbridge]
        rw [hmessage] at hforwards hsome
        have hbridged := hto.relayed (.send message)
        rcases hsend : s.toEngine.send message.destination message.payload with ⟨error | chunks, toEngine⟩
        · have hrelayed : s.toEngine.relayed (.send message) = toEngine := congrArg Prod.snd hsend
          have hanswer : (s.toEngine.relay (.send message)).1 = .error error := congrArg Prod.fst hsend
          refine ⟨[message], [], g.forwards source destination events, rfl, rfl, rfl, hrelayed.symm, ?_,
            hforwards, by simp, by simp⟩
          rw [List.map_singleton, answers, hanswer]
          simp [outbound, answers]
        · have hrelayed : s.toEngine.relayed (.send message) = toEngine := congrArg Prod.snd hsend
          have hanswer : (s.toEngine.relay (.send message)).1 = .ok chunks := congrArg Prod.fst hsend
          rw [hrelayed] at hbridged
          obtain ⟨used, done, unsent, hwrote⟩ := UnixTransport.writeAll_wrote hopen chunks
          dsimp only
          rcases hwrite : s.toTransport.writeAll chunks with ⟨halt | ⟨⟩, toTransport⟩
          · rw [hwrite] at hwrote
            refine ⟨[message], unsent, g.forwards source destination events, rfl, rfl, hwrote.fd,
              hrelayed.symm, ?_, hforwards, by simp, fun h => hwrote.optional h⟩
            rw [List.map_singleton, answers, hanswer, hwrote.taken, List.append_assoc, ← hwrote.bytes_eq]
            simp [outbound, answers]
          · rw [hwrite] at hwrote
            obtain rfl := hwrote.ok.mp rfl
            have hbytes := hwrote.bytes_eq
            rw [List.append_nil] at hbytes
            obtain ⟨messages, lost, rest, h⟩ := ih (s := { s with
              eventCursor := s.eventCursor + 1, toEngine, toTransport }) (by rw [hwrote.fd]; exact hopen) hfrom
              hbridged
            exact ⟨_, lost, rest, h.handed hsome hsend hwrote.fd (by rw [hwrote.taken, hbytes])⟩

end Forwarding

/-- The bytes that a `recv` of `kDefaultMaxFrame` bytes hands over. -/
def RecvOutcome.bytes : RecvOutcome → Bytes
  | .got bytes => bytes.take kDefaultMaxFrame
  | _ => []

/-- What `read_bridge_side` does: its `calls` on the engine that is read, the `messages` that it hands to the
other, and what is left over of the answers of both sides and of the events. -/
structure SideRead (g : Gateway) (source destination : CapabilitySet) (outcome : RecvOutcome)
    (s s' : BridgeSide) (result : Except Halt Unit) (calls : List RelayCall)
    (messages : List GatewayForwardedMessage) (lostFrom lostTo : Bytes)
    (rest : List (Except Error GatewayForwardedMessage)) : Prop where
  fromFd : s'.fromTransport.fd = s.fromTransport.fd
  toFd : s'.toTransport.fd = s.toTransport.fd
  fromEngine : s'.fromEngine = run relayed s.fromEngine calls
  sends : sentIn calls = []
  heard : outcome.bytes = heardIn calls
  fromTaken : s.fromTransport.taken ++ s.fromEngine.answers calls = s'.fromTransport.taken ++ lostFrom
  toEngine : s'.toEngine = run relayed s.toEngine (messages.map .send)
  toTaken : s.toTransport.taken ++ s.toEngine.answers (messages.map .send) =
    s'.toTransport.taken ++ lostTo
  forwards : g.forwards source destination (s'.fromEngine.events.drop s.eventCursor) =
    messages.map .ok ++ rest
  ok : result = .ok () → lostFrom = [] ∧ lostTo = [] ∧ rest = [] ∧
    s'.eventCursor = s'.fromEngine.events.length
  optional : result ≠ .error .badOptional

theorem readBridgeSide_read (g : Gateway) {source destination : CapabilitySet} {s : BridgeSide}
    (hfrom : Bridged s.fromEngine source) (hto : Bridged s.toEngine destination)
    (hopenFrom : 0 ≤ s.fromTransport.fd) (hopenTo : 0 ≤ s.toTransport.fd)
    (hcursor : s.eventCursor = s.fromEngine.events.length) (outcome : RecvOutcome) :
    ∃ calls messages lostFrom lostTo rest, SideRead g source destination outcome s
      (g.readBridgeSide s outcome).2 (g.readBridgeSide s outcome).1 calls messages lostFrom lostTo rest := by
  -- where nothing is received, nothing new is there to forward
  have hquiet : outcome.bytes = [] → ∀ error, SideRead g source destination outcome s s
      (.error (.error error)) [] [] [] [] [] := fun hbytes error =>
    ⟨rfl, rfl, rfl, rfl, hbytes, rfl, rfl, rfl, by rw [hcursor, List.drop_length]; rfl, by simp, by simp⟩
  unfold Gateway.readBridgeSide
  cases hread : s.fromTransport.readSome kDefaultMaxFrame outcome with
  | error error =>
    have hbytes : outcome.bytes = [] := by
      unfold UnixTransport.readSome at hread
      rw [if_neg (by omega)] at hread
      cases outcome with
      | interrupted => cases hread
      | failed reason => rfl
      | got got => cases hread
    exact ⟨_, _, _, _, _, hquiet hbytes error⟩
  | ok bytes =>
    have hbytes : outcome.bytes = bytes := by
      unfold UnixTransport.readSome at hread
      rw [if_neg (by omega)] at hread
      cases outcome with
      | interrupted => cases hread; rfl
      | failed reason => cases hread
      | got got => cases hread; rfl
    dsimp only
    by_cases hnone : bytes = []
    · rw [if_pos hnone]
      exact ⟨_, _, _, _, _, hquiet (hbytes.trans hnone) bridgePeerClosed⟩
    rw [if_neg hnone]
    have hheard : outcome.bytes = heardIn [.receive bytes] := by
      rw [hbytes]
      simp [heardIn]
    have hbridged := hfrom.relayed (.receive bytes)
    rcases hreceive : s.fromEngine.receive bytes false with ⟨error | produced, fromEngine⟩
    · have hrelayed : s.fromEngine.relayed (.receive bytes) = fromEngine := congrArg Prod.snd hreceive
      have hanswer : (s.fromEngine.relay (.receive bytes)).1 = .error error := congrArg Prod.fst hreceive
      refine ⟨[.receive bytes], [], [], [], _, rfl, rfl, hrelayed.symm, rfl, hheard, ?_, rfl, rfl, rfl,
        by simp, by simp⟩
      rw [answers, hanswer]
      simp [outbound, answers]
    · have hrelayed : s.fromEngine.relayed (.receive bytes) = fromEngine := congrArg Prod.snd hreceive
      have hanswer : (s.fromEngine.relay (.receive bytes)).1 = .ok produced := congrArg Prod.fst hreceive
      have hanswers : s.fromEngine.answers [.receive bytes] = produced.flatten := by
        rw [answers, hanswer]
        simp [outbound, answers]
      rw [hrelayed] at hbridged
      obtain ⟨used, done, unsent, hwrote⟩ := UnixTransport.writeAll_wrote hopenFrom produced
      dsimp only
      rcases hwrite : s.fromTransport.writeAll produced with ⟨halt | ⟨⟩, fromTransport⟩
      · rw [hwrite] at hwrote
        refine ⟨[.receive bytes], [], unsent, [], _, hwrote.fd, rfl, hrelayed.symm, rfl, hheard, ?_, rfl, rfl,
          rfl, by simp, fun h => hwrote.optional h⟩
        rw [hanswers, hwrote.taken, List.append_assoc, ← hwrote.bytes_eq]
      · rw [hwrite] at hwrote
        obtain rfl := hwrote.ok.mp rfl
        have hwhole := hwrote.bytes_eq
        rw [List.append_nil] at hwhole
        obtain ⟨messages, lost, rest, h⟩ := forwardLoop_forwarded g
          (fromEngine.events.drop s.eventCursor) (s := { s with fromEngine, fromTransport }) hopenTo
          hbridged.capabilities hto
        have hfromEngine := h.fromEngine
        have hevents : s.eventCursor ≤ fromEngine.events.length := by
          obtain ⟨more, hmore⟩ := call_events s.fromEngine (.receive bytes false)
          have hsame : (s.fromEngine.call (.receive bytes false)).events = fromEngine.events :=
            congrArg (fun r => r.2.events) hreceive
          rw [hcursor, ← hsame, hmore, List.length_append]
          exact Nat.le_add_right ..
        refine ⟨[.receive bytes], messages, [], lost, rest, ?_, h.toFd, ?_, rfl, hheard, ?_, h.toEngine, h.taken,
          ?_, fun hok => ?_, h.optional⟩
        · exact (congrArg UnixTransport.fd h.fromTransport).trans hwrote.fd
        · exact hfromEngine.trans hrelayed.symm
        · have htaken := congrArg UnixTransport.taken h.fromTransport
          rw [hanswers, List.append_nil]
          refine Eq.trans ?_ htaken.symm
          rw [hwhole, ← hwrote.taken]
        · have hforwards := h.forwards
          rw [show (g.forwardNewEvents { s with fromEngine, fromTransport }).2.fromEngine = fromEngine from
            hfromEngine]
          exact hforwards
        · obtain ⟨hlost, hrest, hend⟩ := h.ok hok
          refine ⟨rfl, hlost, hrest, hend.trans ?_⟩
          rw [show (g.forwardNewEvents { s with fromEngine, fromTransport }).2.fromEngine = fromEngine from
            hfromEngine, List.length_drop]
          dsimp only
          omega

end LatticeGateway
