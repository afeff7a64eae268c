import Mathlib.Algebra.Group.Nat.Defs
import Mathlib.Data.List.Basic

namespace LatticeGateway

abbrev Bytes := List UInt8

def kLtxMagic : UInt32 := 0x4C545831
def kMaxChannelNo : UInt32 := 0x00FFFFFF
def kMaxVarintBytes : Nat := 5

inductive ErrorScope
  | connection | channel | message | plugin | transport | internal
  deriving DecidableEq, Repr

inductive ErrorCode
  | needMoreData | truncatedFrame | badMagic | reservedFlags | varintNonCanonical | varintTooLong
  | frameTooLarge | headerTooLarge | crcMismatch | malformedTlv | unsupportedFrameType
  | negotiationRejected | duplicateRequiredTlv | unknownRequiredFeature | staleGeneration
  | illegalState | fragmentRange | fragmentOverlap | sequenceError | flowUnderflow | flowOverflow
  | resourceLimit | wouldBlock | pluginDecode | resumeRejected | timeout | cancelled
  | transportError | invariantFailure
  deriving DecidableEq, Repr

inductive CloseAction
  | none | rejectMessage | resetChannel | closeConnection
  deriving DecidableEq, Repr

structure Error where
  scope : ErrorScope := .internal
  code : ErrorCode := .invariantFailure
  action : CloseAction := .none
  channelNo : UInt32 := 0
  generation : UInt8 := 0
  frameSeq : UInt32 := 0
  messageSeq : UInt32 := 0
  offset : UInt64 := 0
  detail : String := ""
  deriving DecidableEq, Repr

def makeError (scope : ErrorScope) (code : ErrorCode) (action : CloseAction) (detail : String) :
    Error :=
  { scope, code, action, detail }

inductive FrameType
  | hello | «open» | data | ack | credit | halfClose | reset | ping | pong | goaway | resume
  deriving DecidableEq, Repr

inductive ConnectionState
  | created | negotiating | active | draining | closed
  deriving DecidableEq, Repr

inductive ChannelState
  | free | opening | «open» | localClosed | remoteClosed | closing | tombstone
  deriving DecidableEq, Repr

inductive Direction
  | localSend | remoteSend
  deriving DecidableEq, Repr

structure ChannelId where
  number : UInt32 := 0
  generation : UInt8 := 0
  deriving DecidableEq, Repr

def ChannelId.isControl (id : ChannelId) : Bool := id.number == 0 && id.generation == 0

/-- `std::size_t` values are natural numbers; where 64-bit arithmetic could wrap, the
wrap is written out. -/
structure LocalPolicy where
  minMajor : UInt16 := 1
  maxMajor : UInt16 := 1
  maxFrame : Nat := 64 * 1024
  maxMessage : Nat := 1024 * 1024
  connectionWindow : Nat := 1024 * 1024
  maxChannels : UInt16 := 256
  requiredFeatures : UInt64 := 0
  optionalFeatures : UInt64 := 0
  replayWindow : UInt32 := 4096
  deriving DecidableEq, Repr

structure PluginDescriptor where
  familyId : UInt32 := 0
  schemaHash : UInt64 := 0
  maxDepth : UInt32 := 8
  deriving DecidableEq, Repr

/-- `std::array<std::uint8_t, 16>`. -/
structure TranscriptHash where
  bytes : Bytes
  size_eq : bytes.length = 16
  deriving DecidableEq

structure CapabilitySet where
  major : UInt16
  maxFrame : Nat
  maxMessage : Nat
  connectionWindow : Nat
  maxChannels : UInt16
  features : UInt64
  transcriptHash : TranscriptHash
  plugins : List PluginDescriptor
  deriving DecidableEq

/-- `checked_add` on 64-bit sizes. -/
def checkedAdd (a b : Nat) : Option Nat :=
  if a > 2 ^ 64 - 1 - b then none else some (a + b)

theorem checkedAdd_eq_some {a b c : Nat} (h : checkedAdd a b = some c) : c = a + b := by
  unfold checkedAdd at h
  split at h
  next => cases h
  next => exact (Option.some.inj h).symm

theorem checkedAdd_le {a b c : Nat} (h : checkedAdd a b = some c) : a ≤ 2 ^ 64 - 1 - b := by
  unfold checkedAdd at h
  split at h
  next => cases h
  next hsmall => exact Nat.not_lt.mp hsmall

theorem checkedAdd_of_lt {a b : Nat} (h : a + b < 2 ^ 64) : checkedAdd a b = some (a + b) := by
  unfold checkedAdd
  rw [if_neg (by omega)]

end LatticeGateway
