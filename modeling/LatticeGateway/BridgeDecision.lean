import LatticeGateway.GatewayRoutes
import LatticeGateway.HelloPayload
import LatticeGateway.PluginRegistry
import LatticeGateway.Runs

namespace LatticeGateway

open Runs

/-- The calls that change a gateway. An empty translator is refused like one for family 0, and is left out. -/
inductive GatewayCall
  | addTranslator (familyId : UInt32) (translator : Bytes → Except Error Bytes)
  | createRoute (source destination : ChannelId) (familyId : UInt32)

/-- A gateway with what it has accepted: the translators and the routes, each in the order of the calls. -/
structure GatewayRun where
  gateway : Gateway := {}
  added : List (UInt32 × (Bytes → Except Error Bytes)) := []
  created : List GatewayRoute := []

namespace GatewayRun

def step (r : GatewayRun) : GatewayCall → GatewayRun
  | .addTranslator familyId translator =>
    match r.gateway.addTranslator familyId translator with
    | (.error _, gateway) => { r with gateway }
    | (.ok _, gateway) => { r with gateway, added := r.added ++ [(familyId, translator)] }
  | .createRoute source destination familyId =>
    match r.gateway.createRoute source destination familyId with
    | (.error _, gateway) => { r with gateway }
    | (.ok route, gateway) => { r with gateway, created := r.created ++ [route] }

/-- The translator of a family is the one that was added for it last. -/
def translator (r : GatewayRun) (familyId : UInt32) : Option (Bytes → Except Error Bytes) :=
  (r.added.reverse.find? (·.1 = familyId)).map (·.2)

def translated (r : GatewayRun) (familyId : UInt32) (payload : Bytes) : Except Error Bytes :=
  match r.translator familyId with
  | none => .ok payload
  | some translator => translator payload

/-- The gateway holds what it has accepted. -/
structure Kept (r : GatewayRun) : Prop where
  holds : r.gateway.Holds r.created
  family : ∀ route ∈ r.created, route.familyId ≠ 0
  translators : ∀ familyId, r.gateway.policy.translators.lookup familyId = r.translator familyId

section

variable {r : GatewayRun}

theorem Kept.addTranslator (h : r.Kept) (familyId : UInt32) (translator : Bytes → Except Error Bytes) :
    (r.step (.addTranslator familyId translator)).Kept := by
  unfold step Gateway.addTranslator GatewayPolicy.addTranslator
  dsimp only
  by_cases hzero : familyId = 0
  · rw [if_pos hzero]
    exact ⟨⟨h.holds.entries, h.holds.ids, h.holds.next⟩, h.family, h.translators⟩
  · rw [if_neg hzero]
    refine ⟨⟨h.holds.entries, h.holds.ids, h.holds.next⟩, h.family, fun other => ?_⟩
    have hadded := h.translators other
    unfold GatewayRun.translator at hadded ⊢
    change (r.gateway.policy.translators.insert familyId translator).lookup other = _
    rw [List.reverse_append, List.reverse_singleton, List.singleton_append, List.find?_cons]
    by_cases hsame : familyId = other
    · subst hsame
      rw [AList.lookup_insert]
      simp
    · rw [AList.lookup_insert_ne (Ne.symm hsame), hadded]
      simp [hsame]

theorem Kept.createRoute (h : r.Kept) (source destination : ChannelId) (familyId : UInt32)
    (hroom : (r.step (.createRoute source destination familyId)).created.length < 2 ^ 64) :
    (r.step (.createRoute source destination familyId)).Kept := by
  unfold step at hroom ⊢
  dsimp only at hroom ⊢
  by_cases haccept : Routable source destination familyId
  · rw [r.gateway.createRoute_accepted haccept] at hroom ⊢
    dsimp only at hroom ⊢
    rw [List.length_append, List.length_singleton] at hroom
    have hcreated := h.holds.created hroom haccept
    rw [r.gateway.createRoute_accepted haccept] at hcreated
    refine ⟨hcreated, ?_, h.translators⟩
    intro route hroute
    rcases List.mem_append.mp hroute with hroute | hroute
    · exact h.family route hroute
    · rw [List.mem_singleton.mp hroute]
      exact haccept.2.2
  · obtain ⟨error, herror⟩ := Gateway.createRoute_refused (g := r.gateway) haccept
    rw [herror]
    exact h

theorem created_le (r : GatewayRun) (call : GatewayCall) :
    r.created.length ≤ (r.step call).created.length := by
  unfold step
  cases call with
  | addTranslator familyId translator =>
    dsimp only
    split <;> exact Nat.le_refl _
  | createRoute source destination familyId =>
    dsimp only
    split
    next => exact Nat.le_refl _
    next =>
      rw [List.length_append]
      exact Nat.le_add_right _ _

theorem kept_run (calls : List GatewayCall) :
    (run step {} calls).created.length < 2 ^ 64 → (run step {} calls).Kept := by
  have hstep : ∀ (r : GatewayRun) (call : GatewayCall), r.Kept →
      (r.step call).created.length < 2 ^ 64 → (r.step call).Kept := by
    intro r call hkept hroom
    cases call with
    | addTranslator familyId translator => exact hkept.addTranslator familyId translator
    | createRoute source destination familyId => exact hkept.createRoute source destination familyId hroom
  exact run_bounded created_le hstep calls ⟨.start, nofun, fun _ => rfl⟩

end

/-- What makes a gateway of this history pass a payload on, and as which message. -/
def Bridges (r : GatewayRun) (ours theirs : CapabilitySet) (channel : ChannelId) (payload : Bytes)
    (message : GatewayForwardedMessage) : Prop :=
  ∃ (route : GatewayRoute) (lhs rhs : PluginDescriptor),
    r.created.find? (·.source = channel) = some route ∧
    (lhs ∈ ours.plugins ∧ lhs.familyId = route.familyId) ∧
    (rhs ∈ theirs.plugins ∧ rhs.familyId = route.familyId) ∧
    (lhs.schemaHash = rhs.schemaHash ∨ (r.translator route.familyId).isSome) ∧
    r.translated route.familyId payload = .ok message.payload ∧
    message.payload.length ≤ theirs.maxMessage ∧
    message.routeId = route.id ∧ message.source = route.source ∧
    message.destination = route.destination ∧ message.familyId = route.familyId

end GatewayRun

theorem CapabilitySet.plugin?_eq_some {caps : CapabilitySet} (hdistinct : DistinctFamilies caps.plugins)
    {familyId : UInt32} {plugin : PluginDescriptor} :
    caps.plugin? familyId = some plugin ↔ plugin ∈ caps.plugins ∧ plugin.familyId = familyId := by
  unfold plugin?
  constructor
  · intro h
    exact ⟨List.mem_of_find?_eq_some h, by simpa using List.find?_some h⟩
  · rintro ⟨hmem, rfl⟩
    have hsome : (caps.plugins.find? (·.familyId = plugin.familyId)).isSome :=
      List.find?_isSome.mpr ⟨plugin, hmem, by simp⟩
    obtain ⟨found, hfound⟩ := Option.isSome_iff_exists.mp hsome
    have hsame : found.familyId = plugin.familyId := by simpa using List.find?_some hfound
    rw [hfound, List.inj_on_of_nodup_map hdistinct (List.mem_of_find?_eq_some hfound) hmem hsame]

namespace Gateway

theorem mayForward_iff (policy : GatewayPolicy) (ours theirs : CapabilitySet) (familyId : UInt32) :
    policy.mayForward ours theirs familyId = true ↔
      ∃ lhs rhs, ours.plugin? familyId = some lhs ∧ theirs.plugin? familyId = some rhs ∧
        (lhs.schemaHash = rhs.schemaHash ∨ policy.hasTranslator familyId = true) := by
  unfold GatewayPolicy.mayForward
  split
  next lhs rhs hlhs hrhs =>
    rw [Bool.or_eq_true, beq_iff_eq, hlhs, hrhs]
    constructor
    · exact fun h => ⟨lhs, rhs, rfl, rfl, h⟩
    · rintro ⟨lhs, rhs, ⟨⟩, ⟨⟩, h⟩
      exact h
  next hnone =>
    constructor
    · exact nofun
    · rintro ⟨lhs, rhs, hlhs, hrhs, _⟩
      exact (hnone lhs rhs hlhs hrhs).elim

theorem translate_ok {g : Gateway} {ours theirs : CapabilitySet} {familyId : UInt32}
    {payload out : Bytes} : g.translate ours theirs familyId payload = .ok out ↔
      g.policy.mayForward ours theirs familyId = true ∧
        g.policy.translatePayload familyId payload = .ok out ∧ out.length ≤ theirs.maxMessage := by
  unfold translate
  split
  next hrefused => simp [hrefused]
  next hallowed =>
    rw [Bool.not_eq_false] at hallowed
    split
    next error herror => simp [herror]
    next translated htranslated =>
      rw [htranslated]
      split
      next hlong =>
        constructor
        · exact nofun
        · rintro ⟨_, ⟨⟩, hfits⟩
          omega
      next hfits =>
        constructor
        · rintro ⟨⟩
          exact ⟨hallowed, rfl, Nat.not_lt.mp hfits⟩
        · rintro ⟨_, ⟨⟩, _⟩
          rfl

theorem bridgeMessage_ok {g : Gateway} {ours theirs : CapabilitySet} {channel : ChannelId}
    {payload : Bytes} {message : GatewayForwardedMessage} :
    g.bridgeMessage ours theirs channel payload = .ok message ↔
      ∃ route, g.findRoute channel = .ok route ∧ route.id ≠ 0 ∧ route.familyId ≠ 0 ∧
        g.translate ours theirs route.familyId payload = .ok message.payload ∧
        message.routeId = route.id ∧ message.source = route.source ∧
        message.destination = route.destination ∧ message.familyId = route.familyId := by
  unfold bridgeMessage
  cases hroute : g.findRoute channel with
  | error error =>
    constructor
    · exact nofun
    · rintro ⟨_, ⟨⟩, _⟩
  | ok route =>
    dsimp only
    unfold forward
    by_cases hunset : route.id = 0 ∨ route.familyId = 0
    · rw [if_pos hunset]
      constructor
      · exact nofun
      · rintro ⟨_, ⟨⟩, hid, hfamily, _⟩
        exact (hunset.elim hid hfamily).elim
    · rw [if_neg hunset]
      obtain ⟨hid, hfamily⟩ := not_or.mp hunset
      cases htranslate : g.translate ours theirs route.familyId payload with
      | error error =>
        constructor
        · exact nofun
        · rintro ⟨_, ⟨⟩, _, _, htranslated, _⟩
          rw [htranslate] at htranslated
          cases htranslated
      | ok translated =>
        constructor
        · rintro ⟨⟩
          exact ⟨route, rfl, hid, hfamily, htranslate, rfl, rfl, rfl, rfl⟩
        · rintro ⟨_, ⟨⟩, _, _, htranslated, hrouteId, hsource, hdestination, hsame⟩
          rw [htranslate] at htranslated
          cases message
          dsimp only at hrouteId hsource hdestination hsame htranslated ⊢
          rw [hrouteId, hsource, hdestination, hsame, Except.ok.inj htranslated]

end Gateway

namespace GatewayRun

theorem Kept.bridges {r : GatewayRun} (h : r.Kept) {ours theirs : CapabilitySet}
    (hours : DistinctFamilies ours.plugins) (htheirs : DistinctFamilies theirs.plugins)
    (channel : ChannelId) (payload : Bytes) (message : GatewayForwardedMessage) :
    r.gateway.bridgeMessage ours theirs channel payload = .ok message ↔
      r.Bridges ours theirs channel payload message := by
  have htranslated : ∀ familyId, r.gateway.policy.translatePayload familyId payload =
      r.translated familyId payload := by
    intro familyId
    unfold GatewayPolicy.translatePayload translated
    cases htranslator : r.translator familyId <;> simp only [h.translators, htranslator]
  have hregistered : ∀ familyId, r.gateway.policy.hasTranslator familyId =
      (r.translator familyId).isSome := by
    intro familyId
    unfold GatewayPolicy.hasTranslator
    rw [h.translators]
  rw [Gateway.bridgeMessage_ok]
  constructor
  · rintro ⟨route, hfind, _, _, htranslate, hmessage⟩
    obtain ⟨hallowed, hpayload, hfits⟩ := Gateway.translate_ok.mp htranslate
    obtain ⟨lhs, rhs, hlhs, hrhs, hschema⟩ := (Gateway.mayForward_iff _ _ _ _).mp hallowed
    rw [hregistered] at hschema
    exact ⟨route, lhs, rhs, (h.holds.findRoute channel).mp hfind,
      (CapabilitySet.plugin?_eq_some hours).mp hlhs, (CapabilitySet.plugin?_eq_some htheirs).mp hrhs,
      hschema, (htranslated _).symm.trans hpayload, hfits, hmessage⟩
  · rintro ⟨route, lhs, rhs, hfind, hlhs, hrhs, hschema, hpayload, hfits, hmessage⟩
    have hmem := List.mem_of_find?_eq_some hfind
    have hid : route.id ≠ 0 := by
      intro hzero
      have hpos := (h.holds.id_bounds hmem).1
      rw [hzero] at hpos
      exact absurd hpos (by decide)
    refine ⟨route, (h.holds.findRoute channel).mpr hfind, hid, h.family route hmem,
      Gateway.translate_ok.mpr ⟨(Gateway.mayForward_iff _ _ _ _).mpr ⟨lhs, rhs,
        (CapabilitySet.plugin?_eq_some hours).mpr hlhs, (CapabilitySet.plugin?_eq_some htheirs).mpr hrhs,
        ?_⟩, (htranslated _).trans hpayload, hfits⟩, hmessage⟩
    rw [hregistered]
    exact hschema

/-- A gateway whose route ids have not wrapped passes on exactly what its history allows. -/
theorem bridge_decides (calls : List GatewayCall) (hroom : (run step {} calls).created.length < 2 ^ 64)
    (ours theirs : CapabilitySet) (hours : DistinctFamilies ours.plugins)
    (htheirs : DistinctFamilies theirs.plugins) (channel : ChannelId) (payload : Bytes)
    (message : GatewayForwardedMessage) :
    (run step {} calls).gateway.bridgeMessage ours theirs channel payload = .ok message ↔
      (run step {} calls).Bridges ours theirs channel payload message :=
  (kept_run calls hroom).bridges hours htheirs channel payload message

/-- A side that has negotiated one family, under that schema. -/
def schemaCaps (schemaHash : UInt64) : CapabilitySet where
  major := 1
  maxFrame := 4096
  maxMessage := 4096
  connectionWindow := 4096
  maxChannels := 16
  features := 0
  transcriptHash := ⟨List.replicate 16 0, rfl⟩
  plugins := [{ echoDescriptor with schemaHash }]

/-- Between two schemas of a family only its translator passes a payload on. -/
theorem bridge_decides_translated :
    (run step {} [.addTranslator 7 (fun payload => .ok (payload ++ [33])),
      .createRoute ⟨9, 2⟩ ⟨10, 1⟩ 7]).gateway.bridgeMessage (schemaCaps 1) (schemaCaps 2) ⟨9, 2⟩ [111, 107] =
        .ok ⟨1, ⟨9, 2⟩, ⟨10, 1⟩, 7, [111, 107, 33]⟩ :=
  (bridge_decides _ (by decide) _ _ (by decide) (by decide) _ _ _).mpr
    ⟨⟨1, ⟨9, 2⟩, ⟨10, 1⟩, 7⟩, { echoDescriptor with schemaHash := 1 }, { echoDescriptor with schemaHash := 2 },
      by decide, by decide, by decide, .inr rfl, rfl, by decide, rfl, rfl, rfl, rfl⟩

def firstRoute : GatewayCall := .createRoute ⟨1, 1⟩ ⟨2, 1⟩ 7

/-- Routes of one source, up to the next id being `n + 1`. -/
theorem run_firstRoutes {n : Nat} (hn : n < 2 ^ 64) : ∃ r, run step {} (List.replicate n firstRoute) = r ∧
    r.Kept ∧ r.added = [] ∧ r.created.length = n ∧ ∀ route ∈ r.created, route.source = ⟨1, 1⟩ := by
  induction n with
  | zero => exact ⟨_, rfl, kept_run [] (by decide), rfl, rfl, nofun⟩
  | succ n ih =>
    obtain ⟨r, hrun, hkept, hadded, hlength, hsource⟩ := ih (by omega)
    have haccept : Routable ⟨1, 1⟩ ⟨2, 1⟩ 7 := by decide
    have hstep : r.step firstRoute = { r with
        gateway := (r.gateway.createRoute ⟨1, 1⟩ ⟨2, 1⟩ 7).2
        created := r.created ++ [r.gateway.newRoute ⟨1, 1⟩ ⟨2, 1⟩ 7] } := by
      unfold firstRoute step
      dsimp only
      rw [r.gateway.createRoute_accepted haccept]
    have hcount : (r.step firstRoute).created.length = n + 1 := by
      rw [hstep, List.length_append, hlength, List.length_singleton]
    refine ⟨r.step firstRoute, ?_, hkept.createRoute _ _ _ (by rw [← firstRoute, hcount]; exact hn), ?_,
      hcount, ?_⟩
    · rw [List.replicate_succ', run_append, hrun]
      rfl
    · rw [hstep]
      exact hadded
    · rw [hstep]
      intro route hroute
      rcases List.mem_append.mp hroute with hroute | hroute
      · exact hsource route hroute
      · rw [List.mem_singleton.mp hroute]
        rfl

/-- The route that gets id 0 is registered, and every message for it is refused. -/
theorem bridge_wraps : ¬ ∀ (calls : List GatewayCall) (ours theirs : CapabilitySet),
    DistinctFamilies ours.plugins → DistinctFamilies theirs.plugins →
    ∀ (channel : ChannelId) (payload : Bytes) (message : GatewayForwardedMessage),
      (run step {} calls).gateway.bridgeMessage ours theirs channel payload = .ok message ↔
        (run step {} calls).Bridges ours theirs channel payload message := by
  intro h
  obtain ⟨r, hrun, hkept, hadded, hlength, hsource⟩ := run_firstRoutes (n := 2 ^ 64 - 1) (by omega)
  have hnext : r.gateway.nextRouteId = 0 := by
    rw [hkept.holds.next, hlength]
    decide
  have haccept : Routable ⟨3, 1⟩ ⟨4, 1⟩ 7 := by decide
  have hend : run step {} (List.replicate (2 ^ 64 - 1) firstRoute ++ [.createRoute ⟨3, 1⟩ ⟨4, 1⟩ 7]) =
      { r with
        gateway := (r.gateway.createRoute ⟨3, 1⟩ ⟨4, 1⟩ 7).2
        created := r.created ++ [⟨0, ⟨3, 1⟩, ⟨4, 1⟩, 7⟩] } := by
    rw [run_append, hrun]
    change r.step (.createRoute ⟨3, 1⟩ ⟨4, 1⟩ 7) = _
    unfold step
    dsimp only
    rw [r.gateway.createRoute_accepted haccept]
    unfold Gateway.newRoute
    rw [hnext]
  have hbridges : (run step {} (List.replicate (2 ^ 64 - 1) firstRoute ++
      [.createRoute ⟨3, 1⟩ ⟨4, 1⟩ 7])).Bridges (schemaCaps 1) (schemaCaps 1) ⟨3, 1⟩ []
        ⟨0, ⟨3, 1⟩, ⟨4, 1⟩, 7, []⟩ := by
    have hnone : r.created.find? (·.source = ⟨3, 1⟩) = none := by
      refine List.find?_eq_none.mpr fun route hroute => ?_
      rw [hsource route hroute]
      decide
    rw [hend]
    refine ⟨⟨0, ⟨3, 1⟩, ⟨4, 1⟩, 7⟩, { echoDescriptor with schemaHash := 1 },
      { echoDescriptor with schemaHash := 1 }, ?_, by decide, by decide, .inl rfl, ?_, by decide, rfl, rfl,
      rfl, rfl⟩
    · rw [List.find?_append, hnone]
      rfl
    · unfold translated translator
      rw [hadded]
      rfl
  have hsent := (h _ _ _ (by decide) (by decide) _ _ _).mpr hbridges
  obtain ⟨_, _, hid, _, _, hsame, _⟩ := Gateway.bridgeMessage_ok.mp hsent
  exact hid hsame.symm

end GatewayRun

end LatticeGateway
