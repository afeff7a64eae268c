import LatticeGateway.LeaseCounting
import Mathlib.Logic.Function.Basic

namespace LatticeGateway

open Runs

namespace LeaseRegistry

/-- The registry as an engine knows it: the same families, with callable factories and without leases. -/
structure Backs (w : LeaseRegistry) (registry : PluginRegistry) : Prop where
  lookup : ∀ familyId, registry.entries.lookup familyId =
    (w.entries.lookup familyId).bind fun entry => entry.factory.map fun factory =>
      { descriptor := entry.descriptor, factory, draining := w.states[entry.state]?.all (·.draining) }
  callable : ∀ familyId entry, w.entries.lookup familyId = some entry → entry.factory.isSome = true

/-- The engine gets the plugin that the registry with its leases gives out. -/
theorem Backs.createLease {w : LeaseRegistry} {registry : PluginRegistry} (h : w.Backs registry)
    (familyId : UInt32) :
    (w.createLease familyId).1 = .returned (registry.createLease familyId) ∧
      w.create familyId = .returned (registry.createLease familyId) := by
  have hlookup := h.lookup familyId
  unfold LeaseRegistry.createLease LeaseRegistry.create PluginRegistry.createLease
  rcases hentry : w.entries.lookup familyId with _ | entry
  · rw [hentry] at hlookup
    rw [show registry.entries.lookup familyId = none from hlookup]
    exact ⟨rfl, rfl⟩
  · obtain ⟨plugin, hplugin⟩ := Option.isSome_iff_exists.mp (h.callable familyId entry hentry)
    rw [hentry] at hlookup
    simp only [Option.bind_some, hplugin, Option.map_some] at hlookup
    rw [hlookup]
    dsimp only
    rw [hplugin]
    cases w.states[entry.state]?.all (·.draining) with
    | false => exact ⟨rfl, rfl⟩
    | true => exact ⟨rfl, rfl⟩

theorem Backs.update {w : LeaseRegistry} {registry : PluginRegistry} (h : w.Backs registry)
    {states : List PluginLeaseState} {leases : List (Option PluginLease)}
    (hstates : states.map (·.draining) = w.states.map (·.draining)) :
    Backs { w with states, leases } registry where
  lookup familyId := by
    have hall : ∀ (xs : List PluginLeaseState) (i : Nat),
        xs[i]?.all (·.draining) = (xs.map (·.draining))[i]?.all id := by
      intro xs i
      rw [List.getElem?_map]
      cases xs[i]? <;> rfl
    rw [h.lookup]
    simp only [hall, hstates]
  callable := h.callable

theorem map_modify_same {α β : Type} {f : α → α} {g : α → β} (h : ∀ x, g (f x) = g x) (xs : List α)
    (i : Nat) : (xs.modify i f).map g = xs.map g := by
  refine List.ext_getElem? fun j => ?_
  rw [List.getElem?_map, List.getElem?_map, List.getElem?_modify,
    Option.map_eq_map, Option.map_map]
  congr 1
  funext x
  by_cases hij : i = j <;> simp [hij, h]

theorem release_same (w : LeaseRegistry) (lease : PluginLease) :
    (w.release lease).map (·.draining) = w.states.map (·.draining) := by
  unfold LeaseRegistry.release
  split
  next => rfl
  next =>
    refine map_modify_same (fun state => ?_) _ _
    unfold PluginLeaseState.decrement
    split <;> rfl

/-- Leases may come, move and go: what the engine gets does not change. -/
theorem Backs.call {w : LeaseRegistry} {registry : PluginRegistry} (h : w.Backs registry) {c : LeaseCall}
    (hregister : ∀ descriptor factory, c ≠ .registerFactory descriptor factory)
    (hunregister : ∀ familyId, c ≠ .unregisterFamily familyId) : (w.call c).Backs registry := by
  cases c with
  | registerFactory descriptor factory => exact absurd rfl (hregister descriptor factory)
  | unregisterFamily familyId => exact absurd rfl (hunregister familyId)
  | createLease familyId =>
    change (w.createLease familyId).2.Backs registry
    rcases w.createLease_cases familyId with hsame | ⟨entry, _, _, hdone⟩
    · rwa [hsame]
    · rw [hdone]
      refine h.update (map_modify_same ?_ _ _)
      exact fun _ => rfl
  | declare => exact h.update rfl
  | moveConstruct source =>
    change (w.moveConstruct source).Backs registry
    unfold LeaseRegistry.moveConstruct
    split
    next => exact h
    next => exact h.update rfl
  | moveAssign target source =>
    change (w.moveAssign target source).Backs registry
    unfold LeaseRegistry.moveAssign
    split
    next => exact h
    next =>
      split
      next old _ _ _ => exact h.update (w.release_same old)
      next => exact h
  | destroy slot =>
    change (w.destroy slot).Backs registry
    unfold LeaseRegistry.destroy
    split
    next => exact h
    next lease _ => exact h.update (w.release_same lease)

end LeaseRegistry

/-- A registry, with the factory that each family was last registered with. -/
structure FactoryRecord where
  registry : LeaseRegistry := {}
  latest : UInt32 → Option Plugin := fun _ => none

namespace FactoryRecord

def call (r : FactoryRecord) (c : LeaseCall) : FactoryRecord where
  registry := r.registry.call c
  latest := match c with
    | .registerFactory descriptor factory =>
      match (r.registry.registerFactory descriptor factory).1 with
      | .ok _ => Function.update r.latest descriptor.familyId factory
      | .error _ => r.latest
    | _ => r.latest

/-- Every entry holds the factory that its family was last registered with, so that none throws. -/
structure Callable (r : FactoryRecord) : Prop where
  holds : ∀ familyId entry, r.registry.entries.lookup familyId = some entry →
    ∃ plugin, entry.factory = some plugin ∧ r.latest familyId = some plugin
  create : ∀ familyId, r.registry.create familyId ≠ .threw
  lease : ∀ familyId, (r.registry.createLease familyId).1 ≠ .threw

/-- The call registers a family once more that is there, with the same descriptor and no active lease. -/
def Reregisters (r : FactoryRecord) : LeaseCall → Prop
  | .registerFactory descriptor factory =>
    descriptor.familyId ≠ 0 ∧ descriptor.maxDepth ≤ 32 ∧ factory.isSome = true ∧
      ∃ entry, r.registry.entries.lookup descriptor.familyId = some entry ∧ entry.descriptor = descriptor ∧
        r.registry.states[entry.state]?.any (·.active > 0) = false
  | _ => False

/-- Every entry holds the factory that its family was last registered with. -/
def Holds (r : FactoryRecord) : Prop :=
  ∀ familyId entry, r.registry.entries.lookup familyId = some entry →
    ∃ plugin, entry.factory = some plugin ∧ r.latest familyId = some plugin

theorem Holds.callable {r : FactoryRecord} (h : r.Holds) : r.Callable where
  holds := h
  create familyId := by
    unfold LeaseRegistry.create
    rcases hlookup : r.registry.entries.lookup familyId with _ | entry
    · exact fun hthrew => by cases hthrew
    · obtain ⟨plugin, hfactory, _⟩ := h familyId entry hlookup
      dsimp only
      rw [hfactory]
      split <;> exact fun hthrew => by cases hthrew
  lease familyId := by
    unfold LeaseRegistry.createLease
    rcases hlookup : r.registry.entries.lookup familyId with _ | entry
    · exact fun hthrew => by cases hthrew
    · obtain ⟨plugin, hfactory, _⟩ := h familyId entry hlookup
      dsimp only
      rw [hfactory]
      split <;> exact fun hthrew => by cases hthrew

/-- No call but a registration changes an entry, or adds one. -/
theorem lookup_call {w : LeaseRegistry} {c : LeaseCall}
    (hc : ∀ descriptor factory, c ≠ .registerFactory descriptor factory) {familyId : UInt32} {entry : LeasedEntry}
    (h : (w.call c).entries.lookup familyId = some entry) : w.entries.lookup familyId = some entry := by
  cases c with
  | registerFactory descriptor factory => exact absurd rfl (hc descriptor factory)
  | unregisterFamily other =>
    change (w.unregisterFamily other).2.entries.lookup familyId = some entry at h
    unfold LeaseRegistry.unregisterFamily at h
    rcases hlookup : w.entries.lookup other with _ | found
    · rw [hlookup] at h
      exact h
    · rw [hlookup] at h
      dsimp only at h
      split at h
      next => exact h
      next =>
        by_cases hsame : familyId = other
        · rw [hsame, AList.lookup_erase] at h
          cases h
        · rwa [AList.lookup_erase_ne hsame] at h
  | createLease other =>
    change (w.createLease other).2.entries.lookup familyId = some entry at h
    rcases w.createLease_cases other with hsame | ⟨_, _, _, hdone⟩
    · rwa [hsame] at h
    · rwa [hdone] at h
  | declare => exact h
  | moveConstruct source =>
    change (w.moveConstruct source).entries.lookup familyId = some entry at h
    unfold LeaseRegistry.moveConstruct at h
    split at h <;> exact h
  | moveAssign target source =>
    change (w.moveAssign target source).entries.lookup familyId = some entry at h
    unfold LeaseRegistry.moveAssign at h
    split at h
    next => exact h
    next => split at h <;> exact h
  | destroy slot =>
    change (w.destroy slot).entries.lookup familyId = some entry at h
    unfold LeaseRegistry.destroy at h
    split at h <;> exact h

theorem registerFactory_valid {w : LeaseRegistry} {descriptor : PluginDescriptor} {factory : Option Plugin}
    (h : (w.registerFactory descriptor factory).1 = .ok ()) :
    descriptor.familyId ≠ 0 ∧ descriptor.maxDepth ≤ 32 ∧ factory.isSome = true := by
  unfold LeaseRegistry.registerFactory at h
  split at h
  next => cases h
  next hvalid =>
    rw [not_or, not_or, UInt32.not_lt, Bool.not_eq_true, Option.isNone_eq_false_iff] at hvalid
    exact ⟨hvalid.1, hvalid.2.1, hvalid.2.2⟩

theorem registerFactory_again {w : LeaseRegistry} {descriptor : PluginDescriptor} {factory : Option Plugin}
    {old : LeasedEntry} (hvalid : descriptor.familyId ≠ 0 ∧ descriptor.maxDepth ≤ 32 ∧ factory.isSome = true)
    (hlookup : w.entries.lookup descriptor.familyId = some old) (hdescriptor : old.descriptor = descriptor)
    (hidle : w.states[old.state]?.any (·.active > 0) = false) :
    (w.registerFactory descriptor factory).2.entries.lookup descriptor.familyId =
      some { old with factory := none, state := w.states.length } := by
  have hgood : ¬ (descriptor.familyId = 0 ∨ descriptor.maxDepth > 32 ∨ factory.isNone) := by
    rw [not_or, not_or, UInt32.not_lt, Bool.not_eq_true, Option.isNone_eq_false_iff]
    exact hvalid
  unfold LeaseRegistry.registerFactory
  rw [if_neg hgood, hlookup]
  dsimp only
  rw [if_neg (not_not.mpr hdescriptor), if_neg (by rw [hidle]; simp)]
  exact AList.lookup_insert _

/-- A registration leaves every entry with its latest factory unless it replaces one. -/
theorem Holds.register_iff {r : FactoryRecord} (h : r.Holds) (descriptor : PluginDescriptor)
    (factory : Option Plugin) :
    (r.call (.registerFactory descriptor factory)).Holds ↔
      ¬ r.Reregisters (.registerFactory descriptor factory) := by
  constructor
  · rintro hafter ⟨hfamily, hdepth, hsome, old, hlookup, hdescriptor, hidle⟩
    have hreplaced := registerFactory_again ⟨hfamily, hdepth, hsome⟩ hlookup hdescriptor hidle
    obtain ⟨plugin, hfactory, _⟩ := hafter _ _ hreplaced
    cases hfactory
  · intro hnot
    rcases r.registry.registerFactory_cases descriptor factory with
      ⟨error, hsame⟩ | ⟨entry, _, _, hdone, hbefore⟩
    · have hrecord : r.call (.registerFactory descriptor factory) = r := by
        unfold FactoryRecord.call LeaseRegistry.call
        dsimp only
        rw [hsame]
      rw [hrecord]
      exact h
    · have hok : (r.registry.registerFactory descriptor factory).1 = .ok () := by rw [hdone]
      obtain ⟨hfamily, hdepth, hsome⟩ := registerFactory_valid hok
      rcases hbefore with ⟨_, hfactory⟩ | ⟨old, hold, hdescriptor, _, hidle⟩
      · intro familyId found hfound
        unfold FactoryRecord.call LeaseRegistry.call at hfound ⊢
        dsimp only at hfound ⊢
        rw [hdone] at hfound ⊢
        dsimp only at hfound ⊢
        by_cases hsame : familyId = descriptor.familyId
        · subst hsame
          rw [AList.lookup_insert] at hfound
          obtain rfl := Option.some.inj hfound
          obtain ⟨plugin, hplugin⟩ := Option.isSome_iff_exists.mp hsome
          exact ⟨plugin, hfactory.trans hplugin, by rw [Function.update_self, hplugin]⟩
        · rw [AList.lookup_insert_ne hsame] at hfound
          rw [Function.update_of_ne hsame]
          exact h familyId found hfound
      · exact absurd ⟨hfamily, hdepth, hsome, old, hold, hdescriptor, hidle⟩ hnot

theorem Holds.call_iff {r : FactoryRecord} (h : r.Holds) (c : LeaseCall) :
    (r.call c).Callable ↔ ¬ r.Reregisters c := by
  have hcallable : (r.call c).Callable ↔ (r.call c).Holds := ⟨fun h => h.holds, Holds.callable⟩
  rw [hcallable]
  have hother : (∀ descriptor factory, c ≠ .registerFactory descriptor factory) →
      (r.call c).latest = r.latest → ¬ r.Reregisters c → ((r.call c).Holds ↔ ¬ r.Reregisters c) := by
    intro hc hlatest hnot
    refine iff_of_true (fun familyId entry hlookup => ?_) hnot
    rw [hlatest]
    exact h familyId entry (lookup_call hc hlookup)
  cases c with
  | registerFactory descriptor factory => exact h.register_iff descriptor factory
  | _ => exact hother (fun _ _ heq => by cases heq) rfl id

end FactoryRecord

open FactoryRecord

/-- All entries stay callable, with their latest factories, in exactly those runs in which no family is
registered again while it is there. -/
theorem factories_callable_iff (calls : List LeaseCall) :
    Along FactoryRecord.call (fun r c => (r.call c).Callable) {} calls ↔
      Along FactoryRecord.call (fun r c => ¬ r.Reregisters c) {} calls := by
  have hstart : Holds {} := fun _ _ h => by cases h
  generalize ({} : FactoryRecord) = r at hstart
  induction calls generalizing r with
  | nil => exact .rfl
  | cons c calls ih =>
    unfold Along
    rw [← hstart.call_iff c]
    exact and_congr_right fun hcallable => ih (r.call c) hcallable.holds

/-- The echo plugin registered twice. -/
def echoTwice : List LeaseCall :=
  [.registerFactory echoDescriptor (some echoPlugin), .registerFactory echoDescriptor (some echoPlugin)]

theorem factory_lost :
    ¬ Along FactoryRecord.call (fun r c => (r.call c).Callable) {} echoTwice ∧
      (run FactoryRecord.call {} echoTwice).registry.create 7 = .threw := by
  have hthrew : (run FactoryRecord.call {} echoTwice).registry.create 7 = .threw := rfl
  refine ⟨fun h => ?_, hthrew⟩
  obtain ⟨_, hsecond, _⟩ := h
  exact hsecond.create 7 hthrew

end LatticeGateway
