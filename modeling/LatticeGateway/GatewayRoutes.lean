import LatticeGateway.Gateway

namespace LatticeGateway

abbrev RouteTableEntry := Sigma fun _ : UInt64 => GatewayRoute

instance routeOrder_total : Std.Total fun a b : RouteTableEntry => a.1 ≤ b.1 :=
  ⟨fun a b => UInt64.le_total a.1 b.1⟩

instance routeOrder_trans : IsTrans RouteTableEntry fun a b => a.1 ≤ b.1 :=
  ⟨fun _ _ _ => UInt64.le_trans⟩

/-- What `create_route` accepts. -/
def Routable (source destination : ChannelId) (familyId : UInt32) : Prop :=
  source.isControl = false ∧ destination.isControl = false ∧ familyId ≠ 0

instance decidableRoutable (source destination : ChannelId) (familyId : UInt32) :
    Decidable (Routable source destination familyId) := instDecidableAnd

namespace Gateway

/-- The routes that a gateway holds, in the order in which they were created: their ids count up from 1. -/
structure Holds (g : Gateway) (routes : List GatewayRoute) : Prop where
  entries : g.routes.entries.Perm (routes.map fun route => ⟨route.id, route⟩)
  ids : routes.map (·.id.toNat) = List.range' 1 routes.length
  next : g.nextRouteId = UInt64.ofNat (routes.length + 1)

theorem Holds.start : Holds {} [] := ⟨.nil, rfl, rfl⟩

theorem createRoute_refused {g : Gateway} {source destination : ChannelId} {familyId : UInt32}
    (h : ¬ Routable source destination familyId) :
    ∃ error, g.createRoute source destination familyId = (.error error, g) := by
  unfold createRoute
  rw [if_pos]
  · exact ⟨_, rfl⟩
  · unfold Routable at h
    by_contra hfine
    simp only [not_or, Bool.not_eq_true] at hfine
    exact h hfine

/-- The route that a call of `create_route` makes when it is accepted. -/
def newRoute (g : Gateway) (source destination : ChannelId) (familyId : UInt32) : GatewayRoute :=
  { id := g.nextRouteId, source, destination, familyId }

theorem createRoute_accepted (g : Gateway) {source destination : ChannelId} {familyId : UInt32}
    (h : Routable source destination familyId) :
    g.createRoute source destination familyId = (.ok (g.newRoute source destination familyId),
      { g with
        nextRouteId := g.nextRouteId + 1
        routes := g.routes.insert g.nextRouteId (g.newRoute source destination familyId) }) := by
  obtain ⟨hsource, hdestination, hfamily⟩ := h
  unfold createRoute
  rw [if_neg]
  · rfl
  · rintro (hcontrol | hcontrol | hzero)
    · rw [hsource] at hcontrol
      cases hcontrol
    · rw [hdestination] at hcontrol
      cases hcontrol
    · exact hfamily hzero

section

variable {g : Gateway} {routes : List GatewayRoute}

theorem Holds.id_bounds (h : g.Holds routes) {route : GatewayRoute} (hroute : route ∈ routes) :
    1 ≤ route.id.toNat ∧ route.id.toNat ≤ routes.length := by
  have hmem : route.id.toNat ∈ routes.map (·.id.toNat) := List.mem_map_of_mem hroute
  rw [h.ids, List.mem_range'_1] at hmem
  omega

/-- While the ids have not wrapped, a new route goes in under one that no other has. -/
theorem Holds.created (h : g.Holds routes) (hroom : routes.length + 1 < 2 ^ 64)
    {source destination : ChannelId} {familyId : UInt32} (haccept : Routable source destination familyId) :
    (g.createRoute source destination familyId).2.Holds
      (routes ++ [g.newRoute source destination familyId]) := by
  have hid : g.nextRouteId.toNat = routes.length + 1 := by
    rw [h.next, UInt64.toNat_ofNat_of_lt' hroom]
  have hnew : g.nextRouteId ∉ g.routes := by
    intro hmem
    obtain ⟨entry, hentry, hkey⟩ := List.mem_map.mp hmem
    obtain ⟨route, hroute, rfl⟩ := List.mem_map.mp (h.entries.mem_iff.mp hentry)
    have hle := (h.id_bounds hroute).2
    rw [show route.id = g.nextRouteId from hkey] at hle
    omega
  rw [createRoute_accepted g haccept]
  refine ⟨?_, ?_, ?_⟩
  · change (g.routes.insert g.nextRouteId (g.newRoute source destination familyId)).entries.Perm _
    rw [AList.entries_insert_of_notMem hnew, List.map_append, List.map_singleton]
    exact (h.entries.cons _).trans (List.perm_append_singleton _ _).symm
  · rw [List.map_append, h.ids, List.map_singleton, List.length_append, List.length_singleton,
      List.range'_1_concat, Nat.add_comm 1]
    exact congrArg (fun n => List.range' 1 routes.length ++ [n]) hid
  · change g.nextRouteId + 1 = _
    rw [h.next, List.length_append, List.length_singleton, UInt64.ofNat_add (routes.length + 1) 1]
    rfl

theorem Holds.sorted (h : g.Holds routes) :
    (g.routes.entries.insertionSort fun a b => a.1 ≤ b.1) = routes.map fun route => ⟨route.id, route⟩ := by
  have hlt : routes.Pairwise fun a b => a.id.toNat < b.id.toNat := by
    rw [← List.pairwise_map (f := fun route : GatewayRoute => route.id.toNat), h.ids]
    exact List.pairwise_lt_range'
  have hnodup : (routes.map (·.id.toNat)).Nodup := by
    rw [h.ids]
    exact List.nodup_range'
  refine List.Perm.eq_of_pairwise ?_ (List.pairwise_insertionSort _ _) ?_
    ((List.perm_insertionSort _ _).trans h.entries)
  · intro a b ha hb hab hba
    obtain ⟨a, hroute, rfl⟩ := List.mem_map.mp (h.entries.mem_iff.mp ((List.mem_insertionSort _).mp ha))
    obtain ⟨b, hroute', rfl⟩ := List.mem_map.mp hb
    have hid : a.id = b.id := UInt64.le_antisymm hab hba
    rw [List.inj_on_of_nodup_map hnodup hroute hroute' (congrArg UInt64.toNat hid)]
  · exact List.pairwise_map.mpr (hlt.imp fun hab => UInt64.le_of_lt hab)

/-- The route of a source is the first that was created for it. -/
theorem Holds.findRoute (h : g.Holds routes) (source : ChannelId) {route : GatewayRoute} :
    g.findRoute source = .ok route ↔ routes.find? (·.source = source) = some route := by
  unfold Gateway.findRoute
  simp only [h.sorted, List.find?_map, Function.comp_def]
  cases routes.find? (·.source = source) with
  | none => exact ⟨nofun, nofun⟩
  | some found => exact ⟨fun hok => congrArg some (Except.ok.inj hok), fun hsome => by cases hsome; rfl⟩

end

end Gateway

end LatticeGateway
