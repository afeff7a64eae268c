import LatticeGateway.ChannelState
import LatticeGateway.Negotiator

namespace LatticeGateway

/-- What a factory makes: a plugin, known by what its `handle` answers. -/
structure Plugin where
  handle : LogicalMessage → Except Error Bytes

structure PluginCompletion where
  token : UInt64 := 0
  channel : ChannelId := {}
  sequence : UInt32 := 0
  familyId : UInt32 := 0
  response : Bytes := []
  deriving DecidableEq, Repr

/-- An entry of the registry; `draining` is set while its family waits for active leases to end. -/
structure PluginEntry where
  descriptor : PluginDescriptor
  factory : Plugin
  draining : Bool := false

structure PluginRegistry where
  entries : AList (fun _ : UInt32 => PluginEntry) := ∅

def PluginRegistry.createLease (registry : PluginRegistry) (familyId : UInt32) : Except Error Plugin :=
  let unavailable := makeError .plugin .pluginDecode .rejectMessage "plugin family is unavailable"
  match registry.entries.lookup familyId with
  | none => .error unavailable
  | some entry => if entry.draining then .error unavailable else .ok entry.factory

def PluginRegistry.descriptors (registry : PluginRegistry) : List PluginDescriptor :=
  sortPlugins (registry.entries.entries.map fun entry => entry.2.descriptor)

def echoDescriptor : PluginDescriptor :=
  { familyId := 7, schemaHash := 0x4543484F5F763031, maxDepth := 4 }

/-- `EchoPlugin`. -/
def echoPlugin : Plugin where
  handle message := .ok ([101, 99, 104, 111, 58] ++ message.payload)

/-- A registry with the echo plugin alone. -/
def echoRegistry : PluginRegistry :=
  { entries := AList.singleton 7 { descriptor := echoDescriptor, factory := echoPlugin } }

end LatticeGateway
