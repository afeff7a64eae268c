import LatticeGateway.PluginRegistry
import LatticeGateway.Runs

namespace LatticeGateway

structure PluginLeaseState where
  active : Nat := 0
  draining : Bool := false
  deriving DecidableEq, Repr

def PluginLeaseState.decrement (state : PluginLeaseState) : PluginLeaseState :=
  if state.active > 0 then { state with active := state.active - 1 } else state

/-- A lease that owns nothing has neither plugin nor state. The family is not in the source: it tells for
which family the lease was made. -/
structure PluginLease where
  plugin : Option Plugin := none
  state : Option Nat := none
  familyId : UInt32 := 0

/-- An entry with its factory, which is empty once it has been moved from, and its state object. -/
structure LeasedEntry where
  descriptor : PluginDescriptor
  factory : Option Plugin
  state : Nat

/-- The registry with all state objects ever made and the slots of all lease variables; one that is destroyed
leaves `none`. -/
structure LeaseRegistry where
  entries : AList (fun _ : UInt32 => LeasedEntry) := ∅
  states : List PluginLeaseState := []
  leases : List (Option PluginLease) := []

/-- What a call comes to that calls a factory: an empty one throws. -/
inductive Called (α : Type)
  | returned (result : Except Error α) | threw

namespace LeaseRegistry

def registerFactory (w : LeaseRegistry) (descriptor : PluginDescriptor) (factory : Option Plugin) :
    Except Error Unit × LeaseRegistry :=
  if descriptor.familyId = 0 ∨ descriptor.maxDepth > 32 ∨ factory.isNone then
    (.error (makeError .plugin .resourceLimit .rejectMessage "invalid plugin descriptor"), w)
  else
    let state := w.states.length
    match w.entries.lookup descriptor.familyId with
    | none =>
      (.ok (), { w with entries := w.entries.insert descriptor.familyId { descriptor, factory, state }
                        states := w.states ++ [{}] })
    | some entry =>
      -- the entry made for `emplace` has taken the argument, although it was not inserted
      let factory := none
      if entry.descriptor ≠ descriptor then
        (.error (makeError .plugin .duplicateRequiredTlv .closeConnection "ambiguous plugin schema"), w)
      else if w.states[entry.state]?.any (·.active > 0) then
        (.error (makeError .plugin .wouldBlock .none
          "cannot replace plugin family while leases are active"), w)
      else
        (.ok (), { w with entries := w.entries.insert descriptor.familyId { entry with factory, state }
                          states := w.states ++ [{}] })

def unregisterFamily (w : LeaseRegistry) (familyId : UInt32) : Except Error Unit × LeaseRegistry :=
  match w.entries.lookup familyId with
  | none =>
    (.error (makeError .plugin .pluginDecode .rejectMessage "plugin family not registered"), w)
  | some entry =>
    let states := w.states.modify entry.state fun state => { state with draining := true }
    if states[entry.state]?.any (·.active > 0) then
      (.error (makeError .plugin .wouldBlock .none "plugin family is waiting for active leases"),
        { w with states })
    else (.ok (), { w with states, entries := w.entries.erase familyId })

def unavailable : Error := makeError .plugin .pluginDecode .rejectMessage "plugin family is unavailable"

def create (w : LeaseRegistry) (familyId : UInt32) : Called Plugin :=
  match w.entries.lookup familyId with
  | none => .returned (.error unavailable)
  | some entry =>
    if w.states[entry.state]?.all (·.draining) then .returned (.error unavailable)
    else
      match entry.factory with
      | none => .threw
      | some plugin => .returned (.ok plugin)

def createLease (w : LeaseRegistry) (familyId : UInt32) : Called Plugin × LeaseRegistry :=
  match w.entries.lookup familyId with
  | none => (.returned (.error unavailable), w)
  | some entry =>
    if w.states[entry.state]?.all (·.draining) then (.returned (.error unavailable), w)
    else
      match entry.factory with
      | none => (.threw, w)
      | some plugin =>
        (.returned (.ok plugin),
          { w with states := w.states.modify entry.state fun state => { state with active := state.active + 1 }
                   leases := w.leases ++ [some { plugin, state := entry.state, familyId }] })

def lease? (w : LeaseRegistry) (slot : Nat) : Option PluginLease := w.leases[slot]?.join

/-- The states after a lease has let go of its own. -/
def release (w : LeaseRegistry) (lease : PluginLease) : List PluginLeaseState :=
  match lease.state with
  | none => w.states
  | some state => w.states.modify state PluginLeaseState.decrement

def declare (w : LeaseRegistry) : LeaseRegistry := { w with leases := w.leases ++ [some {}] }

def moveConstruct (w : LeaseRegistry) (source : Nat) : LeaseRegistry :=
  match w.lease? source with
  | none => w
  | some lease => { w with leases := w.leases.set source (some {}) ++ [some lease] }

def moveAssign (w : LeaseRegistry) (target source : Nat) : LeaseRegistry :=
  if target = source then w
  else
    match w.lease? target, w.lease? source with
    | some old, some lease =>
      { w with states := w.release old
               leases := (w.leases.set target (some lease)).set source (some {}) }
    | _, _ => w

def destroy (w : LeaseRegistry) (slot : Nat) : LeaseRegistry :=
  match w.lease? slot with
  | none => w
  | some lease => { w with states := w.release lease, leases := w.leases.set slot none }

end LeaseRegistry

/-- The calls on a registry and its leases. One on a slot without a lease variable does nothing. -/
inductive LeaseCall
  | registerFactory (descriptor : PluginDescriptor) (factory : Option Plugin)
  | unregisterFamily (familyId : UInt32)
  | createLease (familyId : UInt32)
  | declare
  | moveConstruct (source : Nat)
  | moveAssign (target source : Nat)
  | destroy (slot : Nat)

def LeaseRegistry.call (w : LeaseRegistry) : LeaseCall → LeaseRegistry
  | .registerFactory descriptor factory => (w.registerFactory descriptor factory).2
  | .unregisterFamily familyId => (w.unregisterFamily familyId).2
  | .createLease familyId => (w.createLease familyId).2
  | .declare => w.declare
  | .moveConstruct source => w.moveConstruct source
  | .moveAssign target source => w.moveAssign target source
  | .destroy slot => w.destroy slot

end LatticeGateway
