import LatticeGateway.GatewayRoutes
import LatticeGateway.PolicyRoundTrip
import LatticeGateway.Runs

namespace LatticeGateway

open Runs

def applyRoutePolicyEntry (g : Gateway) (entry : RoutePolicyEntry) : Except Error GatewayRoute × Gateway :=
  g.createRoute entry.source entry.destination entry.familyId

def findRoutePolicySource (document : RoutePolicyDocument) (source : ChannelId) :
    Except Error RoutePolicyEntry :=
  match document.routes.find? (·.source = source) with
  | none => .error (makeError .connection .resourceLimit .none "route policy source was not found")
  | some entry => .ok entry

/-- The check of one entry. -/
def ValidationState.checked (v : ValidationState) (line : Nat) (route : RoutePolicyEntry) : ValidationState :=
  (((v.checkChannels line route).checkFamily line route).checkSource line route).checkName line route

theorem ValidationState.checkFamily_nonzero {v : ValidationState} {line : Nat} {route : RoutePolicyEntry}
    (h : (v.checkFamily line route).diagnostics = []) :
    v.checkFamily line route = v ∧ route.familyId ≠ 0 := by
  unfold checkFamily at h ⊢
  split at h
  next => simp [report] at h
  next hfamily => exact ⟨if_neg hfamily, hfamily⟩

theorem ValidationState.checkChannels_fine {v : ValidationState} {line : Nat} {route : RoutePolicyEntry}
    (h : (v.checkChannels line route).diagnostics = []) : v.checkChannels line route = v := by
  unfold checkChannels at h ⊢
  split at h
  next => simp [report] at h
  next hdata => exact if_neg hdata

theorem ValidationState.checkSource_new {v : ValidationState} {line : Nat} {route : RoutePolicyEntry}
    (h : (v.checkSource line route).diagnostics = []) :
    v.sources.lookup route.source.str = none ∧
      (v.checkSource line route).sources = v.sources.insert route.source.str line := by
  unfold checkSource at h ⊢
  split at h
  next => simp [report] at h
  next hnone => exact ⟨hnone, rfl⟩

theorem ValidationState.checkName_sources (v : ValidationState) (line : Nat) (route : RoutePolicyEntry) :
    (v.checkName line route).sources = v.sources := by
  unfold checkName
  split
  next => rfl
  next => split <;> rfl

/-- An entry that passes its checks can be registered, and has a source of its own. -/
theorem ValidationState.checked_fine {v : ValidationState} {line : Nat} {route : RoutePolicyEntry}
    (h : (v.checked line route).diagnostics = []) :
    Routable route.source route.destination route.familyId ∧ v.sources.lookup route.source.str = none ∧
      (v.checked line route).sources = v.sources.insert route.source.str line := by
  have hsource := checkName_nil h
  have hfamily := checkSource_nil hsource
  have hchannels := checkFamily_nil hfamily
  obtain ⟨hsame, hnonzero⟩ := checkFamily_nonzero hfamily
  obtain ⟨hnone, hinsert⟩ := checkSource_new hsource
  obtain ⟨_, hdata⟩ := checkChannels_nil hchannels
  rw [hsame, checkChannels_fine hchannels] at hnone hinsert
  refine ⟨⟨hdata.1, hdata.2, hnonzero⟩, hnone, ?_⟩
  unfold checked
  rw [checkName_sources, hsame, checkChannels_fine hchannels, hinsert]

theorem validateRoutes_sources {routes : List RoutePolicyEntry} {line : Nat} {v : ValidationState}
    (h : (validateRoutes line routes v).diagnostics = []) :
    (∀ route ∈ routes, Routable route.source route.destination route.familyId ∧
      v.sources.lookup route.source.str = none) ∧ (routes.map (·.source)).Nodup := by
  induction routes generalizing line v with
  | nil => exact ⟨by simp, List.nodup_nil⟩
  | cons route routes ih =>
    rw [show validateRoutes line (route :: routes) v =
      validateRoutes (line + 1) routes (v.checked line route) from rfl] at h
    have hchecked := (validateRoutes_nil h).1
    obtain ⟨hroutable, hnone, hinsert⟩ := ValidationState.checked_fine hchecked
    obtain ⟨hrest, hnodup⟩ := ih h
    have hnew : ∀ other ∈ routes, other.source.str ≠ route.source.str ∧
        v.sources.lookup other.source.str = none := by
      intro other hother
      have hlookup := (hrest other hother).2
      rw [hinsert, AList.lookup_insert_eq_none] at hlookup
      exact hlookup
    refine ⟨List.forall_mem_cons.mpr ⟨⟨hroutable, hnone⟩, fun other hother =>
      ⟨(hrest other hother).1, (hnew other hother).2⟩⟩, List.nodup_cons.mpr ⟨?_, hnodup⟩⟩
    intro hmem
    obtain ⟨other, hother, hsame⟩ := List.mem_map.mp hmem
    exact (hnew other hother).1 (congrArg ChannelId.str hsame)

/-- There are 2 ^ 40 channel ids, so that no policy with a source for each entry makes the route ids wrap. -/
theorem nodup_channels_length {ids : List ChannelId} (h : ids.Nodup) : ids.length ≤ 2 ^ 40 := by
  have hinj : ∀ a ∈ ids, ∀ b ∈ ids, a.number.toNat * 256 + a.generation.toNat =
      b.number.toNat * 256 + b.generation.toNat → a = b := by
    intro a _ b _ hab
    have ha := a.generation.toNat_lt
    have hb := b.generation.toNat_lt
    have hnumber : a.number = b.number := UInt32.toNat_inj.mp (by omega)
    have hgeneration : a.generation = b.generation := UInt8.toNat_inj.mp (by omega)
    cases a
    cases b
    congr
  have hsub : ids.map (fun id => id.number.toNat * 256 + id.generation.toNat) ⊆ List.range (2 ^ 40) := by
    intro n hn
    obtain ⟨id, _, rfl⟩ := List.mem_map.mp hn
    have hnumber := id.number.toNat_lt
    have hgeneration := id.generation.toNat_lt
    rw [List.mem_range]
    omega
  have hle := (List.subperm_of_subset (h.map_on hinj) hsub).length_le
  rwa [List.length_map, List.length_range] at hle

/-- What a message with this source is sent along. -/
structure Way where
  source : ChannelId
  destination : ChannelId
  familyId : UInt32

def GatewayRoute.way (route : GatewayRoute) : Way := ⟨route.source, route.destination, route.familyId⟩

def RoutePolicyEntry.way (entry : RoutePolicyEntry) : Way := ⟨entry.source, entry.destination, entry.familyId⟩

def applied (g : Gateway) (entry : RoutePolicyEntry) : Gateway := (applyRoutePolicyEntry g entry).2

/-- Entries that can be registered are, each on its own route, while the route ids do not wrap. -/
theorem applied_holds {entries : List RoutePolicyEntry} {g : Gateway} {routes : List GatewayRoute}
    (h : g.Holds routes) (hroutable : ∀ entry ∈ entries, Routable entry.source entry.destination entry.familyId)
    (hroom : routes.length + entries.length < 2 ^ 64) :
    Along applied (fun g entry => ∃ route, (applyRoutePolicyEntry g entry).1 = .ok route) g entries ∧
      ∃ made, (run applied g entries).Holds (routes ++ made) ∧
        made.map GatewayRoute.way = entries.map RoutePolicyEntry.way := by
  induction entries generalizing g routes with
  | nil => exact ⟨trivial, [], by rwa [List.append_nil], rfl⟩
  | cons entry entries ih =>
    obtain ⟨hentry, hrest⟩ := List.forall_mem_cons.mp hroutable
    rw [List.length_cons] at hroom
    have hcreated := h.created (by omega) hentry
    obtain ⟨hall, made, hholds, hways⟩ := ih hcreated hrest (by
      rw [List.length_append, List.length_singleton]
      omega)
    refine ⟨⟨⟨_, congrArg Prod.fst (g.createRoute_accepted hentry)⟩, hall⟩,
      g.newRoute entry.source entry.destination entry.familyId :: made, ?_, ?_⟩
    · rw [List.append_cons]
      exact hholds
    · rw [List.map_cons, List.map_cons, hways]
      rfl

/-- Where no two elements share a key, their order does not matter to a search by key. -/
theorem find?_perm {α κ : Type*} [DecidableEq κ] {key : α → κ} {xs ys : List α} (h : xs.Perm ys)
    (hnodup : (ys.map key).Nodup) (k : κ) : xs.find? (key · = k) = ys.find? (key · = k) := by
  have hne : ∀ {zs : List α}, (zs.map key).Nodup →
      (zs.filter (key · = k)).Pairwise fun a b => key a ≠ key b :=
    fun hzs => (List.pairwise_map.mp hzs).sublist List.filter_sublist
  have hsame : xs.filter (key · = k) = ys.filter (key · = k) := by
    refine (h.filter _).eq_of_pairwise ?_ (hne ((h.map key).nodup_iff.mpr hnodup)) (hne hnodup)
    intro a b ha hb hab _
    rw [List.mem_filter, decide_eq_true_eq] at ha hb
    exact absurd (ha.2.trans hb.2.symm) hab
  rw [← List.head?_filter, ← List.head?_filter, hsame]

/-- Both lookups fail, or both find the same way on. -/
def SameWay : Except Error GatewayRoute → Except Error RoutePolicyEntry → Prop
  | .ok route, .ok entry => route.destination = entry.destination ∧ route.familyId = entry.familyId
  | .error _, .error _ => True
  | _, _ => False

theorem Gateway.Holds.sameWay {g : Gateway} {routes : List GatewayRoute} (h : g.Holds routes)
    {document : RoutePolicyDocument} {source : ChannelId}
    (hfind : (routes.find? (·.source = source)).map GatewayRoute.way =
      (document.routes.find? (·.source = source)).map RoutePolicyEntry.way) :
    SameWay (g.findRoute source) (findRoutePolicySource document source) := by
  unfold findRoutePolicySource
  cases hroute : g.findRoute source with
  | error error =>
    cases hentry : document.routes.find? (·.source = source) with
    | none => exact trivial
    | some entry =>
      rw [hentry] at hfind
      obtain ⟨route, hsome, _⟩ := Option.map_eq_some_iff.mp hfind
      rw [(h.findRoute source).mpr hsome] at hroute
      cases hroute
  | ok route =>
    rw [(h.findRoute source).mp hroute] at hfind
    obtain ⟨entry, hentry, hway⟩ := Option.map_eq_some_iff.mp hfind.symm
    rw [hentry]
    exact ⟨(congrArg Way.destination hway).symm, (congrArg Way.familyId hway).symm⟩

/-- The entries of a valid policy are all accepted by a fresh gateway, in whatever order, and from then on
the gateway finds for each source what the policy does. -/
theorem policy_applied (document : RoutePolicyDocument)
    (h : (validateRoutePolicy document).diagnostics = []) (entries : List RoutePolicyEntry)
    (hperm : entries.Perm document.routes) :
    Along applied (fun g entry => ∃ route, (applyRoutePolicyEntry g entry).1 = .ok route) {} entries ∧
      ∀ source, SameWay ((run applied {} entries).findRoute source)
        (findRoutePolicySource document source) := by
  have hchecked : (validateRoutes 1 document.routes {}).diagnostics = [] := by
    unfold validateRoutePolicy at h
    dsimp only at h
    split at h
    next => simp at h
    next => exact h
  obtain ⟨hfine, hnodup⟩ := validateRoutes_sources hchecked
  have hfew := nodup_channels_length hnodup
  rw [List.length_map, ← hperm.length_eq] at hfew
  have hroutable : ∀ entry ∈ entries, Routable entry.source entry.destination entry.familyId :=
    fun entry hentry => (hfine entry (hperm.mem_iff.mp hentry)).1
  have hroom : ([] : List GatewayRoute).length + entries.length < 2 ^ 64 := by
    rw [List.length_nil]
    omega
  obtain ⟨hall, made, hholds, hways⟩ := applied_holds Gateway.Holds.start hroutable hroom
  refine ⟨hall, fun source => hholds.sameWay ?_⟩
  have hfind := congrArg (List.find? (·.source = source)) hways
  rw [List.find?_map, List.find?_map] at hfind
  exact hfind.trans (congrArg _ (find?_perm hperm hnodup source))

theorem policy_applied_two : Along applied
    (fun g entry => ∃ route, (applyRoutePolicyEntry g entry).1 = .ok route) {}
      [{ source := ⟨2, 1⟩ }, { source := ⟨1, 1⟩ }] ∧
    ∀ source, SameWay ((run applied {} [{ source := ⟨2, 1⟩ }, { source := ⟨1, 1⟩ }]).findRoute source)
      (findRoutePolicySource { routes := [{ source := ⟨1, 1⟩ }, { source := ⟨2, 1⟩ }] } source) :=
  policy_applied { routes := [{ source := ⟨1, 1⟩ }, { source := ⟨2, 1⟩ }] } (by decide) _ (.swap _ _ _)

end LatticeGateway
