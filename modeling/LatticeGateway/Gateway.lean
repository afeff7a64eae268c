import LatticeGateway.Engine

namespace LatticeGateway

structure GatewayRoute where
  id : UInt64 := 0
  source : ChannelId := {}
  destination : ChannelId := {}
  familyId : UInt32 := 0
  deriving DecidableEq, Repr

structure GatewayForwardedMessage where
  routeId : UInt64 := 0
  source : ChannelId := {}
  destination : ChannelId := {}
  familyId : UInt32 := 0
  payload : Bytes := []
  deriving DecidableEq, Repr

/-- A translator is pure: it is known by what it makes of a payload. -/
structure GatewayPolicy where
  translators : AList (fun _ : UInt32 => Bytes → Except Error Bytes) := ∅

structure Gateway where
  policy : GatewayPolicy := {}
  routes : AList (fun _ : UInt64 => GatewayRoute) := ∅
  nextRouteId : UInt64 := 1

def CapabilitySet.plugin? (caps : CapabilitySet) (familyId : UInt32) : Option PluginDescriptor :=
  caps.plugins.find? (·.familyId = familyId)

def GatewayPolicy.hasTranslator (policy : GatewayPolicy) (familyId : UInt32) : Bool :=
  (policy.translators.lookup familyId).isSome

def GatewayPolicy.mayForward (policy : GatewayPolicy) (source destination : CapabilitySet)
    (familyId : UInt32) : Bool :=
  match source.plugin? familyId, destination.plugin? familyId with
  | some ours, some theirs => ours.schemaHash == theirs.schemaHash || policy.hasTranslator familyId
  | _, _ => false

def GatewayPolicy.addTranslator (policy : GatewayPolicy) (familyId : UInt32)
    (translator : Bytes → Except Error Bytes) : Except Error Unit × GatewayPolicy :=
  if familyId = 0 then
    (.error (makeError .plugin .pluginDecode .rejectMessage "gateway translator descriptor is invalid"),
      policy)
  else (.ok (), { policy with translators := policy.translators.insert familyId translator })

def GatewayPolicy.translatePayload (policy : GatewayPolicy) (familyId : UInt32) (payload : Bytes) :
    Except Error Bytes :=
  match policy.translators.lookup familyId with
  | none => .ok payload
  | some translator => translator payload

def routeError (detail : String) : Error := makeError .channel .illegalState .rejectMessage detail

namespace Gateway

def addTranslator (g : Gateway) (familyId : UInt32) (translator : Bytes → Except Error Bytes) :
    Except Error Unit × Gateway :=
  let (added, policy) := g.policy.addTranslator familyId translator
  (added, { g with policy })

def createRoute (g : Gateway) (source destination : ChannelId) (familyId : UInt32) :
    Except Error GatewayRoute × Gateway :=
  if source.isControl ∨ destination.isControl ∨ familyId = 0 then
    (.error (routeError "gateway route requires two data channels and a family"), g)
  else
    let route : GatewayRoute := { id := g.nextRouteId, source, destination, familyId }
    (.ok route, { g with nextRouteId := g.nextRouteId + 1, routes := g.routes.insert route.id route })

/-- The first route of that source in the order of the route ids. -/
def findRoute (g : Gateway) (source : ChannelId) : Except Error GatewayRoute :=
  let routes := g.routes.entries.insertionSort fun a b => a.1 ≤ b.1
  match routes.find? (·.2.source = source) with
  | none => .error (routeError "gateway route source is not registered")
  | some entry => .ok entry.2

def translate (g : Gateway) (source destination : CapabilitySet) (familyId : UInt32) (payload : Bytes) :
    Except Error Bytes :=
  if g.policy.mayForward source destination familyId = false then
    .error (makeError .plugin .pluginDecode .rejectMessage
      "schema-mismatched opaque forwarding rejected")
  else
    match g.policy.translatePayload familyId payload with
    | .error error => .error error
    | .ok translated =>
      if translated.length > destination.maxMessage then
        .error (makeError .message .resourceLimit .rejectMessage
          "translated payload exceeds destination limit")
      else .ok translated

def forward (g : Gateway) (source destination : CapabilitySet) (route : GatewayRoute)
    (payload : Bytes) : Except Error Bytes :=
  if route.id = 0 ∨ route.familyId = 0 then
    .error (routeError "gateway route is not initialized")
  else g.translate source destination route.familyId payload

def bridgeMessage (g : Gateway) (source destination : CapabilitySet) (channel : ChannelId)
    (payload : Bytes) : Except Error GatewayForwardedMessage :=
  match g.findRoute channel with
  | .error error => .error error
  | .ok route =>
    match g.forward source destination route payload with
    | .error error => .error error
    | .ok translated =>
      .ok { routeId := route.id, source := route.source, destination := route.destination
            familyId := route.familyId, payload := translated }

/-- The engine is that of the destination, which the source passes by reference. -/
def bridgeToConnection (g : Gateway) (source destination : CapabilitySet) (e : ConnectionEngine)
    (channel : ChannelId) (payload : Bytes) : Except Error (List Bytes) × ConnectionEngine :=
  match g.bridgeMessage source destination channel payload with
  | .error error => (.error error, e)
  | .ok message => e.send message.destination message.payload

end Gateway

end LatticeGateway
