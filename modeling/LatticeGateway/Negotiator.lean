import LatticeGateway.Crc32c
import LatticeGateway.Wire
import Mathlib.Data.List.Sort

namespace LatticeGateway

structure HelloMessage where
  minMajor : UInt16 := 1
  maxMajor : UInt16 := 1
  limits : LocalPolicy := {}
  plugins : List PluginDescriptor := []
  deriving DecidableEq, Repr

def negotiationError (detail : String) : Error :=
  makeError .connection .negotiationRejected .closeConnection detail

def descriptorBytes (plugin : PluginDescriptor) : Bytes :=
  u32Bytes plugin.familyId ++ u64Bytes plugin.schemaHash ++ u32Bytes plugin.maxDepth

/-- The order of equal families is theirs in the list; in the source it may be any. -/
def sortPlugins (plugins : List PluginDescriptor) : List PluginDescriptor :=
  plugins.insertionSort fun a b => a.familyId ≤ b.familyId

/-- The loop over the sorted descriptors. -/
def writePlugins : Option UInt32 → List PluginDescriptor → Except Error Bytes
  | _, [] => .ok []
  | previous, plugin :: plugins =>
    if previous = some plugin.familyId then
      .error (makeError .plugin .duplicateRequiredTlv .closeConnection
        "duplicate plugin family in HELLO")
    else
      match writePlugins (some plugin.familyId) plugins with
      | .error error => .error error
      | .ok out => .ok (descriptorBytes plugin ++ out)

def encodeHelloPayload (hello : HelloMessage) : Except Error Bytes :=
  if hello.minMajor > hello.maxMajor then .error (negotiationError "invalid version range")
  else
    let out := u16Bytes hello.minMajor ++ u16Bytes hello.maxMajor ++
      u32Bytes (UInt32.ofNat hello.limits.maxFrame) ++
      u32Bytes (UInt32.ofNat hello.limits.maxMessage) ++
      u32Bytes (UInt32.ofNat hello.limits.connectionWindow) ++ u16Bytes hello.limits.maxChannels ++
      u64Bytes hello.limits.requiredFeatures ++ u64Bytes hello.limits.optionalFeatures ++
      u16Bytes (UInt16.ofNat hello.plugins.length)
    match writePlugins none (sortPlugins hello.plugins) with
    | .error error => .error error
    | .ok plugins => .ok (out ++ plugins)

/-- The descriptors read from `cursor` on, and the cursor behind them. -/
def readPlugins (payload : Bytes) : Nat → Nat → Except Error (List PluginDescriptor × Nat)
  | 0, cursor => .ok ([], cursor)
  | count + 1, cursor =>
    if payload.length < cursor + 16 then
      .error (negotiationError "truncated plugin descriptor in HELLO")
    else
      match readPlugins payload count (cursor + 16) with
      | .error error => .error error
      | .ok (plugins, last) =>
        .ok ({ familyId := u32At payload cursor
               schemaHash := u64Of ((payload.drop (cursor + 4)).take 8)
               maxDepth := u32At payload (cursor + 12) } :: plugins, last)

/-- The nine fixed fields take 36 bytes; when they are not all there, some read has failed. -/
def decodeHelloPayload (payload : Bytes) : Except Error HelloMessage :=
  if payload.length < 36 then .error (negotiationError "malformed HELLO payload")
  else
    match readPlugins payload (u16At payload 34).toNat 36 with
    | .error error => .error error
    | .ok (plugins, cursor) =>
      if cursor ≠ payload.length then .error (negotiationError "HELLO payload has trailing bytes")
      else
        let minMajor := u16At payload 0
        let maxMajor := u16At payload 2
        .ok { minMajor, maxMajor, plugins
              limits := { minMajor, maxMajor
                          maxFrame := (u32At payload 4).toNat
                          maxMessage := (u32At payload 8).toNat
                          connectionWindow := (u32At payload 12).toNat
                          maxChannels := u16At payload 16
                          requiredFeatures := u64Of ((payload.drop 18).take 8)
                          optionalFeatures := u64Of ((payload.drop 26).take 8) } }

def transcriptHash (major : UInt16) (maxFrame maxMessage connectionWindow : Nat)
    (maxChannels : UInt16) (features : UInt64) (plugins : List PluginDescriptor) : TranscriptHash :=
  let encoded := u16Bytes major ++ u32Bytes (UInt32.ofNat maxFrame) ++
    u32Bytes (UInt32.ofNat maxMessage) ++ u32Bytes (UInt32.ofNat connectionWindow) ++
    u16Bytes maxChannels ++ u64Bytes features ++ plugins.flatMap descriptorBytes
  let first := crc32c encoded
  let second := crc32c (encoded ++ [0xA5])
  ⟨u32Bytes first ++ u32Bytes second ++ u32Bytes (first ^^^ second) ++ u32Bytes (first + second), rfl⟩

/-- The descriptors common to both sides, in the order of the two loops. -/
def commonPlugins : List PluginDescriptor → List PluginDescriptor →
    Except Error (List PluginDescriptor)
  | [], _ => .ok []
  | lhs :: locals, peers =>
    let matching := peers.filter (·.familyId = lhs.familyId)
    if matching.any (·.schemaHash ≠ lhs.schemaHash) then
      .error (makeError .plugin .negotiationRejected .closeConnection "plugin schema hash mismatch")
    else
      match commonPlugins locals peers with
      | .error error => .error error
      | .ok plugins =>
        .ok (matching.map (fun rhs => { lhs with maxDepth := min lhs.maxDepth rhs.maxDepth }) ++ plugins)

def negotiate (ours peer : HelloMessage) : Except Error CapabilitySet :=
  if ours.maxMajor < peer.minMajor ∨ peer.maxMajor < ours.minMajor then
    .error (negotiationError "no compatible major version")
  else
    let major := min ours.maxMajor peer.maxMajor
    let maxFrame := min ours.limits.maxFrame peer.limits.maxFrame
    let maxMessage := min ours.limits.maxMessage peer.limits.maxMessage
    let connectionWindow := min ours.limits.connectionWindow peer.limits.connectionWindow
    let maxChannels := min ours.limits.maxChannels peer.limits.maxChannels
    if maxFrame < 128 ∨ maxMessage < 1 ∨ connectionWindow < maxFrame ∨ maxChannels = 0 then
      .error (negotiationError "negotiated limits below minimum")
    else
      let features := (ours.limits.requiredFeatures ||| ours.limits.optionalFeatures) &&&
        (peer.limits.requiredFeatures ||| peer.limits.optionalFeatures)
      if ours.limits.requiredFeatures &&& ~~~features ≠ 0 ∨
          peer.limits.requiredFeatures &&& ~~~features ≠ 0 then
        .error (makeError .connection .unknownRequiredFeature .closeConnection
          "required feature is unsupported")
      else
        match commonPlugins ours.plugins peer.plugins with
        | .error error => .error error
        | .ok [] =>
          .error (makeError .plugin .negotiationRejected .closeConnection
            "no mutually supported plugin family")
        | .ok (first :: rest) =>
          let plugins := sortPlugins (first :: rest)
          .ok { major, maxFrame, maxMessage, connectionWindow, maxChannels, features, plugins
                transcriptHash := transcriptHash major maxFrame maxMessage connectionWindow
                  maxChannels features plugins }

end LatticeGateway
