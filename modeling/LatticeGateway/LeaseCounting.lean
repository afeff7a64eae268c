import LatticeGateway.PluginLease
import LatticeGateway.RefCounts

namespace LatticeGateway

open Runs RefCounts

theorem getElem?_snoc {α : Type} {xs : List α} {x y : α} {i : Nat} (h : (xs ++ [x])[i]? = some y) :
    xs[i]? = some y ∨ i = xs.length ∧ y = x := by
  rw [List.getElem?_append] at h
  split at h
  next => exact .inl h
  next hge =>
    obtain ⟨hlt, hy⟩ := List.getElem?_eq_some_iff.mp h
    rw [List.length_singleton] at hlt
    exact .inr ⟨by omega, by rw [← hy, List.getElem_singleton]⟩

theorem getElem?_modify_cases {α : Type} {xs : List α} {f : α → α} {i j : Nat} {y : α}
    (h : (xs.modify i f)[j]? = some y) :
    ∃ x, xs[j]? = some x ∧ y = if i = j then f x else x := by
  rw [List.getElem?_modify] at h
  obtain ⟨x, hx, hy⟩ := Option.map_eq_some_iff.mp h
  exact ⟨x, hx, hy.symm⟩

/-- The state object that the lease in a slot refers to. -/
def heldState (slot : Option PluginLease) : Option Nat := slot.bind (·.state)

namespace LeaseRegistry

/-- The number of live leases that were made from a state object. -/
def liveLeases (w : LeaseRegistry) (state : Nat) : Nat := count heldState w.leases state

/-- The family is gone, or it is waiting for its leases to end. -/
def Unavailable (w : LeaseRegistry) (familyId : UInt32) : Prop :=
  ∀ entry, w.entries.lookup familyId = some entry →
    ∃ state, w.states[entry.state]? = some state ∧ state.draining = true

/-- What a reachable registry satisfies. -/
structure Counted (w : LeaseRegistry) : Prop where
  entry : ∀ familyId entry, w.entries.lookup familyId = some entry → entry.state < w.states.length
  current : ∀ lease, some lease ∈ w.leases → ∀ state, lease.state = some state →
    ∃ entry, w.entries.lookup lease.familyId = some entry ∧ entry.state = state
  counted : ∀ i state, w.states[i]? = some state → state.active = w.liveLeases i

theorem Counted.start : Counted {} where
  entry _ _ h := by cases h
  current _ h := by cases h
  counted _ _ h := by cases h

theorem Counted.states {w : LeaseRegistry} (h : w.Counted) {familyId : UInt32} {entry : LeasedEntry}
    (hlookup : w.entries.lookup familyId = some entry) :
    ∃ state, w.states[entry.state]? = some state ∧ state.active = w.liveLeases entry.state := by
  have hstate := List.getElem?_eq_getElem (h.entry familyId entry hlookup)
  exact ⟨_, hstate, h.counted _ _ hstate⟩

/-- An entry without active leases is one that no lease refers to. -/
theorem Counted.idle {w : LeaseRegistry} (h : w.Counted) {familyId : UInt32} {entry : LeasedEntry}
    (hlookup : w.entries.lookup familyId = some entry)
    (hidle : w.states[entry.state]?.any (·.active > 0) = false) :
    ∀ lease, some lease ∈ w.leases → lease.state ≠ some entry.state := by
  intro lease hlease hholds
  obtain ⟨state, hstate, hactive⟩ := h.states hlookup
  have hpos : 0 < w.liveLeases entry.state := count_pos.mpr ⟨some lease, hlease, hholds⟩
  rw [hstate] at hidle
  simp only [Option.any_some, decide_eq_false_iff_not] at hidle
  omega

/-- The registry after a call that hands out the state of a new entry. -/
theorem registerFactory_cases (w : LeaseRegistry) (descriptor : PluginDescriptor) (factory : Option Plugin) :
    (∃ error, w.registerFactory descriptor factory = (.error error, w)) ∨
      ∃ entry : LeasedEntry, entry.state = w.states.length ∧ entry.descriptor = descriptor ∧
        w.registerFactory descriptor factory =
          (.ok (), { w with entries := w.entries.insert descriptor.familyId entry
                            states := w.states ++ [{}] }) ∧
        (w.entries.lookup descriptor.familyId = none ∧ entry.factory = factory ∨
          ∃ old, w.entries.lookup descriptor.familyId = some old ∧ old.descriptor = descriptor ∧
            entry.factory = none ∧ w.states[old.state]?.any (·.active > 0) = false) := by
  unfold registerFactory
  split
  next => exact .inl ⟨_, rfl⟩
  next =>
    dsimp only
    rcases hlookup : w.entries.lookup descriptor.familyId with _ | old
    · exact .inr ⟨{ descriptor, factory, state := w.states.length }, rfl, rfl, rfl, .inl ⟨rfl, rfl⟩⟩
    · dsimp only
      by_cases hdescriptor : old.descriptor = descriptor
      · rw [if_neg (not_not.mpr hdescriptor)]
        by_cases hactive : w.states[old.state]?.any (·.active > 0) = true
        · rw [if_pos hactive]
          exact .inl ⟨_, rfl⟩
        · rw [if_neg hactive]
          exact .inr ⟨{ old with factory := none, state := w.states.length }, rfl, hdescriptor, rfl,
            .inr ⟨old, rfl, hdescriptor, rfl, Bool.not_eq_true _ ▸ hactive⟩⟩
      · rw [if_pos hdescriptor]
        exact .inl ⟨_, rfl⟩

theorem Counted.registerFactory {w : LeaseRegistry} (h : w.Counted) (descriptor : PluginDescriptor)
    (factory : Option Plugin) : (w.registerFactory descriptor factory).2.Counted := by
  rcases w.registerFactory_cases descriptor factory with ⟨_, hsame⟩ | ⟨entry, hstate, _, hdone, hbefore⟩
  · rw [hsame]
    exact h
  · rw [hdone]
    have hbelow : ∀ lease, some lease ∈ w.leases → ∀ state, lease.state = some state → state < w.states.length := by
      intro lease hlease state hholds
      obtain ⟨old, hold, rfl⟩ := h.current lease hlease state hholds
      exact h.entry _ _ hold
    refine ⟨fun familyId other hother => ?_, fun lease hlease state hholds => ?_, fun i state hi => ?_⟩
    · dsimp only at hother ⊢
      rw [List.length_append]
      by_cases hfamily : familyId = descriptor.familyId
      · rw [hfamily, AList.lookup_insert] at hother
        obtain rfl := Option.some.inj hother
        rw [hstate]
        exact Nat.lt_succ_self _
      · rw [AList.lookup_insert_ne hfamily] at hother
        exact Nat.lt_of_lt_of_le (h.entry familyId other hother) (Nat.le_add_right _ _)
    · obtain ⟨old, hold, hsame⟩ := h.current lease hlease state hholds
      by_cases hfamily : lease.familyId = descriptor.familyId
      · rw [hfamily] at hold
        rcases hbefore with ⟨hnone, _⟩ | ⟨found, hfound, _, _, hidle⟩
        · rw [hnone] at hold
          cases hold
        · obtain rfl := Option.some.inj (hfound.symm.trans hold)
          exact absurd (hsame ▸ hholds) (h.idle hfound hidle lease hlease)
      · exact ⟨old, (AList.lookup_insert_ne hfamily).trans hold, hsame⟩
    · change state.active = count heldState w.leases i
      rcases getElem?_snoc hi with hi | ⟨rfl, rfl⟩
      · exact h.counted i state hi
      · have hzero : count heldState w.leases w.states.length = 0 := by
          by_contra hne
          obtain ⟨slot, hslot, hholds⟩ := count_pos.mp (Nat.pos_of_ne_zero hne)
          obtain ⟨lease, rfl, hlease⟩ := Option.bind_eq_some_iff.mp hholds
          exact absurd (hbelow lease hslot _ hlease) (Nat.lt_irrefl _)
        rw [hzero]

theorem Counted.unregisterFamily {w : LeaseRegistry} (h : w.Counted) (familyId : UInt32) :
    (w.unregisterFamily familyId).2.Counted := by
  unfold LeaseRegistry.unregisterFamily
  rcases hlookup : w.entries.lookup familyId with _ | entry
  · exact h
  · dsimp only
    have hcounted : ∀ i state, (w.states.modify entry.state fun state => { state with draining := true })[i]? =
        some state → state.active = w.liveLeases i := by
      intro i state hi
      obtain ⟨before, hbefore, rfl⟩ := getElem?_modify_cases hi
      rw [← h.counted i before hbefore]
      split <;> rfl
    split
    next =>
      refine ⟨fun other entry' hother => ?_, h.current, hcounted⟩
      rw [List.length_modify]
      exact h.entry other entry' hother
    next hidle =>
      have hactive : w.states[entry.state]?.any (·.active > 0) = false := by
        rw [List.getElem?_modify_eq, Option.map_eq_map, Option.any_map] at hidle
        exact Bool.not_eq_true _ ▸ hidle
      refine ⟨fun other entry' hother => ?_, fun lease hlease state hholds => ?_, hcounted⟩
      · dsimp only at hother ⊢
        rw [List.length_modify]
        by_cases hsame : other = familyId
        · rw [hsame, AList.lookup_erase] at hother
          cases hother
        · rw [AList.lookup_erase_ne hsame] at hother
          exact h.entry other entry' hother
      · obtain ⟨old, hold, hstate⟩ := h.current lease hlease state hholds
        by_cases hsame : lease.familyId = familyId
        · rw [hsame, hlookup] at hold
          obtain rfl := Option.some.inj hold
          exact absurd (hstate ▸ hholds) (h.idle hlookup hactive lease hlease)
        · exact ⟨old, (AList.lookup_erase_ne hsame).trans hold, hstate⟩

/-- A call that leaves the entries alone, keeps count, and moves leases or makes a current one. -/
theorem Counted.update {w : LeaseRegistry} (h : w.Counted) {states : List PluginLeaseState}
    {leases : List (Option PluginLease)} (hlength : states.length = w.states.length)
    (hleases : ∀ lease, some lease ∈ leases → lease.state = none ∨ some lease ∈ w.leases ∨
      ∃ entry, w.entries.lookup lease.familyId = some entry ∧ lease.state = some entry.state)
    (hcounted : ∀ i state, states[i]? = some state → state.active = count heldState leases i) :
    Counted { w with states, leases } := by
  refine ⟨fun familyId entry hlookup => ?_, fun lease hlease state hholds => ?_, hcounted⟩
  · dsimp only
    rw [hlength]
    exact h.entry familyId entry hlookup
  · rcases hleases lease hlease with hnone | hold | ⟨entry, hlookup, hstate⟩
    · rw [hnone] at hholds
      cases hholds
    · exact h.current lease hold state hholds
    · exact ⟨entry, hlookup, Option.some.inj (hstate.symm.trans hholds)⟩

/-- A family that can be leased has an entry that is not draining, with a factory. -/
theorem createLease_cases (w : LeaseRegistry) (familyId : UInt32) :
    (w.createLease familyId).2 = w ∨
      ∃ entry plugin, w.entries.lookup familyId = some entry ∧ w.createLease familyId =
        (.returned (.ok plugin),
          { w with states := w.states.modify entry.state fun state => { state with active := state.active + 1 }
                   leases := w.leases ++ [some { plugin, state := entry.state, familyId }] }) := by
  unfold LeaseRegistry.createLease
  rcases hlookup : w.entries.lookup familyId with _ | entry
  · exact .inl rfl
  · dsimp only
    split
    next => exact .inl rfl
    next =>
      rcases entry.factory with _ | plugin
      · exact .inl rfl
      · exact .inr ⟨entry, plugin, rfl, rfl⟩

theorem Counted.createLease {w : LeaseRegistry} (h : w.Counted) (familyId : UInt32) :
    (w.createLease familyId).2.Counted := by
  rcases w.createLease_cases familyId with hsame | ⟨entry, plugin, hlookup, hdone⟩
  · rw [hsame]
    exact h
  · rw [hdone]
    refine h.update (List.length_modify _ _ _) (fun lease hlease => ?_) fun i state hi => ?_
    · rcases List.mem_append.mp hlease with hold | hnew
      · exact .inr (.inl hold)
      · obtain rfl := Option.some.inj (List.mem_singleton.mp hnew)
        exact .inr (.inr ⟨entry, hlookup, rfl⟩)
    · obtain ⟨before, hbefore, rfl⟩ := getElem?_modify_cases hi
      have hactive := h.counted i before hbefore
      unfold liveLeases at hactive
      rw [count_snoc]
      change _ = count heldState w.leases i + if some entry.state = some i then 1 else 0
      simp only [Option.some.injEq]
      split
      next => rw [← hactive]
      next => rw [← hactive, Nat.add_zero]

theorem Counted.declare {w : LeaseRegistry} (h : w.Counted) : w.declare.Counted := by
  refine h.update rfl (fun lease hlease => ?_) fun i state hi => ?_
  · rcases List.mem_append.mp hlease with hold | hnew
    · exact .inr (.inl hold)
    · obtain rfl := Option.some.inj (List.mem_singleton.mp hnew)
      exact .inl rfl
  · rw [count_snoc, weight_of_none rfl, Nat.add_zero]
    exact h.counted i state hi

theorem lease?_eq_some {w : LeaseRegistry} {slot : Nat} {lease : PluginLease} :
    w.lease? slot = some lease ↔ w.leases[slot]? = some (some lease) := Option.join_eq_some_iff

theorem Counted.moveConstruct {w : LeaseRegistry} (h : w.Counted) (source : Nat) :
    (w.moveConstruct source).Counted := by
  unfold LeaseRegistry.moveConstruct
  split
  next => exact h
  next lease hlease =>
    have hslot := lease?_eq_some.mp hlease
    refine h.update rfl (fun other hother => ?_) fun i state hi => ?_
    · rcases List.mem_append.mp hother with hold | hnew
      · rcases List.mem_or_eq_of_mem_set hold with hold | hempty
        · exact .inr (.inl hold)
        · obtain rfl := Option.some.inj hempty
          exact .inl rfl
      · rw [List.mem_singleton.mp hnew]
        exact .inr (.inl (List.mem_of_getElem? hslot))
    · rw [count_move hslot rfl]
      exact h.counted i state hi

theorem length_release (w : LeaseRegistry) (lease : PluginLease) :
    (w.release lease).length = w.states.length := by
  unfold release
  split
  next => rfl
  next => exact List.length_modify _ _ _

/-- A lease that lets go counts its state down by what its slot has counted. -/
theorem release_cases {w : LeaseRegistry} {lease : PluginLease} {i : Nat} {state : PluginLeaseState}
    (hi : (w.release lease)[i]? = some state) :
    ∃ before, w.states[i]? = some before ∧ state.draining = before.draining ∧
      state.active = before.active - weight heldState (some lease) i := by
  unfold release at hi
  rcases hheld : lease.state with _ | held
  · rw [hheld] at hi
    have hweight : weight heldState (some lease) i = 0 := weight_of_none hheld i
    exact ⟨state, hi, rfl, by rw [hweight, Nat.sub_zero]⟩
  · rw [hheld] at hi
    obtain ⟨before, hbefore, rfl⟩ := getElem?_modify_cases hi
    have hweight : weight heldState (some lease) i = if some held = some i then 1 else 0 := by
      unfold weight heldState
      rw [Option.bind_some, hheld]
    refine ⟨before, hbefore, ?_, ?_⟩
    · split
      next =>
        unfold PluginLeaseState.decrement
        split <;> rfl
      next => rfl
    · rw [hweight]
      simp only [Option.some.injEq]
      split
      next =>
        unfold PluginLeaseState.decrement
        split
        next => rfl
        next hzero =>
          have hnone : before.active = 0 := Nat.eq_zero_of_not_pos hzero
          rw [hnone]
      next => rfl

theorem Counted.release {w : LeaseRegistry} (h : w.Counted) {lease : PluginLease}
    {leases : List (Option PluginLease)}
    (hcount : ∀ i, count heldState leases i + weight heldState (some lease) i = count heldState w.leases i)
    {i : Nat} {state : PluginLeaseState} (hi : (w.release lease)[i]? = some state) :
    state.active = count heldState leases i := by
  obtain ⟨before, hbefore, _, hactive⟩ := release_cases hi
  have hbeforeActive : before.active = count heldState w.leases i := h.counted i before hbefore
  have hsum := hcount i
  omega

theorem Counted.moveAssign {w : LeaseRegistry} (h : w.Counted) (target source : Nat) :
    (w.moveAssign target source).Counted := by
  unfold LeaseRegistry.moveAssign
  split
  next => exact h
  next hne =>
    split
    next old lease hold hlease =>
      have hslot := lease?_eq_some.mp hlease
      refine h.update (w.length_release old) (fun other hother => ?_) fun i state hi => ?_
      · rcases List.mem_or_eq_of_mem_set hother with hmem | hempty
        · rcases List.mem_or_eq_of_mem_set hmem with hmem | hmoved
          · exact .inr (.inl hmem)
          · rw [hmoved]
            exact .inr (.inl (List.mem_of_getElem? hslot))
        · obtain rfl := Option.some.inj hempty
          exact .inl rfl
      · exact h.release (fun i => count_take hne (lease?_eq_some.mp hold) hslot rfl i) hi
    next => exact h

theorem Counted.destroy {w : LeaseRegistry} (h : w.Counted) (slot : Nat) : (w.destroy slot).Counted := by
  unfold LeaseRegistry.destroy
  split
  next => exact h
  next lease hlease =>
    refine h.update (w.length_release lease) (fun other hother => ?_) fun i state hi => ?_
    · rcases List.mem_or_eq_of_mem_set hother with hmem | hempty
      · exact .inr (.inl hmem)
      · cases hempty
    · exact h.release (fun i => count_drop (lease?_eq_some.mp hlease) rfl i) hi

theorem Counted.call {w : LeaseRegistry} (h : w.Counted) (c : LeaseCall) : (w.call c).Counted := by
  cases c with
  | registerFactory descriptor factory => exact h.registerFactory descriptor factory
  | unregisterFamily familyId => exact h.unregisterFamily familyId
  | createLease familyId => exact h.createLease familyId
  | declare => exact h.declare
  | moveConstruct source => exact h.moveConstruct source
  | moveAssign target source => exact h.moveAssign target source
  | destroy slot => exact h.destroy slot

/-- The call registers the family. -/
def Registers (w : LeaseRegistry) (familyId : UInt32) : LeaseCall → Prop
  | .registerFactory descriptor factory =>
    descriptor.familyId = familyId ∧ (w.registerFactory descriptor factory).1 = .ok ()
  | _ => False

theorem Unavailable.update {w : LeaseRegistry} {familyId : UInt32} (h : w.Unavailable familyId)
    {states : List PluginLeaseState} {leases : List (Option PluginLease)}
    (hstates : ∀ (i : Nat) (state : PluginLeaseState), w.states[i]? = some state → state.draining = true →
      ∃ state', states[i]? = some state' ∧ state'.draining = true) :
    Unavailable { w with states, leases } familyId := by
  intro entry hlookup
  obtain ⟨state, hstate, hdraining⟩ := h entry hlookup
  exact hstates _ state hstate hdraining

/-- No change of a state makes it available again. -/
theorem modify_draining {states : List PluginLeaseState} {f : PluginLeaseState → PluginLeaseState}
    (hf : ∀ state, state.draining = true → (f state).draining = true) (j : Nat) :
    ∀ (i : Nat) (state : PluginLeaseState), states[i]? = some state → state.draining = true →
      ∃ state', (states.modify j f)[i]? = some state' ∧ state'.draining = true := by
  intro i state hi hdraining
  rw [List.getElem?_modify, hi]
  refine ⟨_, rfl, ?_⟩
  split
  next => exact hf state hdraining
  next => exact hdraining

theorem release_draining (w : LeaseRegistry) (lease : PluginLease) :
    ∀ (i : Nat) (state : PluginLeaseState), w.states[i]? = some state → state.draining = true →
      ∃ state', (w.release lease)[i]? = some state' ∧ state'.draining = true := by
  have hdecrement : ∀ state : PluginLeaseState, state.draining = true → state.decrement.draining = true := by
    intro state hdraining
    unfold PluginLeaseState.decrement
    split <;> exact hdraining
  unfold release
  rcases lease.state with _ | held
  · exact fun i state hi hdraining => ⟨state, hi, hdraining⟩
  · exact modify_draining hdecrement held

theorem Unavailable.call {w : LeaseRegistry} {familyId : UInt32} (h : w.Unavailable familyId)
    (c : LeaseCall) (hnot : ¬ w.Registers familyId c) : (w.call c).Unavailable familyId := by
  cases c with
  | registerFactory descriptor factory =>
    change (w.registerFactory descriptor factory).2.Unavailable familyId
    rcases w.registerFactory_cases descriptor factory with ⟨_, hsame⟩ | ⟨entry, _, _, hdone, _⟩
    · rw [hsame]
      exact h
    · have hother : familyId ≠ descriptor.familyId := by
        rintro rfl
        exact hnot ⟨rfl, by rw [hdone]⟩
      rw [hdone]
      intro found hfound
      rw [AList.lookup_insert_ne hother] at hfound
      obtain ⟨state, hstate, hdraining⟩ := h found hfound
      have hlt := (List.getElem?_eq_some_iff.mp hstate).1
      exact ⟨state, (List.getElem?_append_left hlt).trans hstate, hdraining⟩
  | unregisterFamily other =>
    change (w.unregisterFamily other).2.Unavailable familyId
    unfold LeaseRegistry.unregisterFamily
    rcases w.entries.lookup other with _ | entry
    · exact h
    · dsimp only
      have hstates := @modify_draining w.states (fun state => { state with draining := true })
        (fun _ _ => rfl) entry.state
      split
      next => exact h.update hstates
      next =>
        intro found hfound
        by_cases hsame : familyId = other
        · rw [hsame, AList.lookup_erase] at hfound
          cases hfound
        · rw [AList.lookup_erase_ne hsame] at hfound
          obtain ⟨state, hstate, hdraining⟩ := h found hfound
          exact hstates _ state hstate hdraining
  | createLease other =>
    change (w.createLease other).2.Unavailable familyId
    rcases w.createLease_cases other with hsame | ⟨entry, plugin, _, hdone⟩
    · rw [hsame]
      exact h
    · rw [hdone]
      have hkeeps : ∀ state : PluginLeaseState, state.draining = true →
          { state with active := state.active + 1 }.draining = true := fun _ hdraining => hdraining
      exact h.update (modify_draining hkeeps entry.state)
  | declare => exact h
  | moveConstruct source =>
    change (w.moveConstruct source).Unavailable familyId
    unfold LeaseRegistry.moveConstruct
    split
    next => exact h
    next => exact h
  | moveAssign target source =>
    change (w.moveAssign target source).Unavailable familyId
    unfold LeaseRegistry.moveAssign
    split
    next => exact h
    next =>
      split
      next old _ _ _ => exact h.update (w.release_draining old)
      next => exact h
  | destroy slot =>
    change (w.destroy slot).Unavailable familyId
    unfold LeaseRegistry.destroy
    split
    next => exact h
    next lease _ => exact h.update (w.release_draining lease)

theorem Unavailable.fails {w : LeaseRegistry} {familyId : UInt32} (h : w.Unavailable familyId) :
    w.create familyId = .returned (.error unavailable) ∧
      (w.createLease familyId).1 = .returned (.error unavailable) := by
  unfold LeaseRegistry.create LeaseRegistry.createLease
  rcases hlookup : w.entries.lookup familyId with _ | entry
  · exact ⟨rfl, rfl⟩
  · obtain ⟨state, hstate, hdraining⟩ := h entry hlookup
    have hall : w.states[entry.state]?.all (·.draining) = true := by
      rw [hstate]
      exact hdraining
    dsimp only
    rw [if_pos hall, if_pos hall]
    exact ⟨rfl, rfl⟩

theorem unregisterFamily_blocked {w : LeaseRegistry} (h : w.Counted) {familyId : UInt32} {error : Error}
    (hblocked : (w.unregisterFamily familyId).1 = .error error) (hcode : error.code = .wouldBlock) :
    (w.unregisterFamily familyId).2.Unavailable familyId := by
  unfold LeaseRegistry.unregisterFamily at hblocked ⊢
  rcases hlookup : w.entries.lookup familyId with _ | entry
  · rw [hlookup] at hblocked
    cases hblocked
    cases hcode
  · rw [hlookup] at hblocked
    dsimp only at hblocked ⊢
    split at hblocked
    next hactive =>
      rw [if_pos hactive]
      intro found hfound
      obtain rfl := Option.some.inj (hlookup.symm.trans hfound)
      obtain ⟨state, hstate, _⟩ := h.states hlookup
      refine ⟨{ state with draining := true }, ?_, rfl⟩
      dsimp only
      rw [List.getElem?_modify_eq, hstate]
      rfl
    next => cases hblocked

/-- What holds of a registry and its leases. -/
structure Accounts (w : LeaseRegistry) : Prop where
  counted : ∀ familyId entry, w.entries.lookup familyId = some entry →
    ∃ state, w.states[entry.state]? = some state ∧ state.active = w.liveLeases entry.state
  never_underflows : ∀ lease, some lease ∈ w.leases → ∀ i, lease.state = some i →
    ∃ state, w.states[i]? = some state ∧ 0 < state.active
  unloads : ∀ familyId, (w.unregisterFamily familyId).1 = .ok () →
    ∀ lease, some lease ∈ w.leases → lease.state.isSome → lease.familyId ≠ familyId
  blocked : ∀ familyId error, (w.unregisterFamily familyId).1 = .error error → error.code = .wouldBlock →
    ∀ calls, Along LeaseRegistry.call (fun w c => ¬ w.Registers familyId c) (w.unregisterFamily familyId).2 calls →
      (run LeaseRegistry.call (w.unregisterFamily familyId).2 calls).create familyId =
          .returned (.error unavailable) ∧
        ((run LeaseRegistry.call (w.unregisterFamily familyId).2 calls).createLease familyId).1 =
          .returned (.error unavailable)
  replaces : ∀ descriptor factory entry, w.entries.lookup descriptor.familyId = some entry →
    (w.registerFactory descriptor factory).2.entries.lookup descriptor.familyId ≠ some entry →
    ∀ lease, some lease ∈ w.leases → lease.state ≠ some entry.state

theorem Counted.accounts {w : LeaseRegistry} (h : w.Counted) : w.Accounts where
  counted _ _ hlookup := h.states hlookup
  never_underflows lease hlease i hholds := by
    obtain ⟨entry, hlookup, rfl⟩ := h.current lease hlease i hholds
    obtain ⟨state, hstate, hactive⟩ := h.states hlookup
    refine ⟨state, hstate, ?_⟩
    rw [hactive]
    exact count_pos.mpr ⟨some lease, hlease, hholds⟩
  unloads familyId hok lease hlease hlive := by
    obtain ⟨i, hholds⟩ := Option.isSome_iff_exists.mp hlive
    obtain ⟨entry, hlookup, rfl⟩ := h.current lease hlease i hholds
    rintro rfl
    unfold LeaseRegistry.unregisterFamily at hok
    rw [hlookup] at hok
    dsimp only at hok
    split at hok
    next => cases hok
    next hidle =>
      rw [List.getElem?_modify_eq, Option.map_eq_map, Option.any_map] at hidle
      exact h.idle hlookup (Bool.not_eq_true _ ▸ hidle) lease hlease hholds
  blocked familyId error hblocked hcode calls hcalls := by
    have hstep : ∀ (w : LeaseRegistry) c, w.Unavailable familyId → ¬ w.Registers familyId c →
        (w.call c).Unavailable familyId := fun _ c h hnot => h.call c hnot
    exact (run_invariant hstep (unregisterFamily_blocked h hblocked hcode) hcalls).fails
  replaces descriptor factory entry hlookup hreplaced := by
    rcases w.registerFactory_cases descriptor factory with ⟨_, hsame⟩ | ⟨_, _, _, _, hbefore⟩
    · rw [hsame] at hreplaced
      exact absurd hlookup hreplaced
    · rcases hbefore with ⟨hnone, _⟩ | ⟨old, hold, _, _, hidle⟩
      · rw [hnone] at hlookup
        cases hlookup
      · obtain rfl := Option.some.inj (hold.symm.trans hlookup)
        exact h.idle hold hidle

end LeaseRegistry

/-- Whatever is called, the state of an entry counts its leases, and the family is not unloaded or replaced
under them. -/
theorem leases_accounted (calls : List LeaseCall) : (run LeaseRegistry.call {} calls).Accounts := by
  have hstep : ∀ (w : LeaseRegistry) c, w.Counted → (w.call c).Counted := fun _ c h => h.call c
  exact (run_induction hstep calls LeaseRegistry.Counted.start).accounts

end LatticeGateway
