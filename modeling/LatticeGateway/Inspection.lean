import LatticeGateway.Engine

namespace LatticeGateway

inductive InspectionSeverity
  | info | warning | error
  deriving DecidableEq, Repr

inductive FrameFindingCode
  | decoderError | tooManyFrames | emptyRequiredExtension | duplicateExtensionType | missingMessageSequence
  | missingFragmentOffset | missingMessageTotal | missingFamilyId | invalidMessageExtension
  | zeroMessageTotal | fragmentExceedsTotal | controlPayloadLarge | sequenceRewind | goawayNotLast
  | resumeOnDataChannel | pingPayloadSize | pongPayloadSize
  deriving DecidableEq, Repr

structure FrameFinding where
  severity : InspectionSeverity := .warning
  code : FrameFindingCode := .decoderError
  frameIndex : Nat := 0
  frameSeq : UInt32 := 0
  channel : ChannelId := {}
  detail : String := ""
  deriving DecidableEq, Repr

structure ExtensionObservation where
  type : UInt16 := 0
  required : Bool := false
  valueBytes : Nat := 0
  deriving DecidableEq, Repr

structure FrameObservation where
  index : Nat := 0
  type : FrameType := .hello
  channel : ChannelId := {}
  frameSeq : UInt32 := 0
  payloadBytes : Nat := 0
  extensionCount : Nat := 0
  requiredExtensionCount : Nat := 0
  extensions : List ExtensionObservation := []
  deriving DecidableEq, Repr

def observeFrame (frame : Frame) (index : Nat) : FrameObservation :=
  { index, type := frame.type, channel := frame.channel, frameSeq := frame.frameSeq
    payloadBytes := frame.payload.length, extensionCount := frame.extensions.length
    requiredExtensionCount := frame.extensions.countP (·.required)
    extensions := frame.extensions.map fun ext => ⟨ext.type, ext.required, ext.value.length⟩ }

def isControlPayloadFrame : FrameType → Bool
  | .hello | .ack | .ping | .pong | .goaway | .resume => true
  | .open | .data | .credit | .halfClose | .reset => false

namespace Frame

variable (frame : Frame) (index : Nat)

/-- `add_finding`, with the findings left to the caller. -/
def finding (severity : InspectionSeverity) (code : FrameFindingCode) (detail : String) : FrameFinding :=
  { severity, code, frameIndex := index, frameSeq := frame.frameSeq, channel := frame.channel, detail }

def emptyRequiredFindings : List FrameFinding :=
  (frame.extensions.filter fun ext => ext.required ∧ ext.value = []).map fun _ =>
    frame.finding index .warning .emptyRequiredExtension "required extension has an empty value"

/-- How often each type comes up. -/
def seenTypes : AList fun _ : UInt16 => Nat :=
  frame.extensions.foldl (fun seen ext => seen.insert ext.type ((seen.lookup ext.type).getD 0 + 1)) ∅

def duplicateFindings : List FrameFinding :=
  let seen := frame.seenTypes.entries.insertionSort fun a b => a.1 ≤ b.1
  (seen.filter fun entry => entry.2 > 1).map fun entry =>
    frame.finding index .error .duplicateExtensionType
      ("frame repeats extension type " ++ toString entry.1.toNat)

/-- `add_data_extension_finding`. -/
def dataExtensionFindings (type : UInt16) (missingCode : FrameFindingCode) (name : String) :
    List FrameFinding :=
  match findExtension frame type with
  | none => [frame.finding index .error missingCode ("DATA frame is missing " ++ name ++ " extension")]
  | some ext =>
    if ext.value.length ≠ 4 then
      [frame.finding index .error .invalidMessageExtension
        (name ++ " extension must be exactly four bytes")]
    else []

def zeroTotalFindings : List FrameFinding :=
  match extensionU32 frame kExtMessageTotal with
  | .error _ => []
  | .ok total =>
    if total = 0 then [frame.finding index .error .zeroMessageTotal "message total cannot be zero"]
    else []

def rangeFindings : List FrameFinding :=
  match extensionU32 frame kExtMessageTotal, extensionU32 frame kExtFragmentOffset with
  | .ok total, .ok offset =>
    if offset > total then
      [frame.finding index .error .fragmentExceedsTotal "fragment offset exceeds declared total"]
    else []
  | _, _ => []

def dataFindings : List FrameFinding :=
  frame.dataExtensionFindings index kExtMessageSeq .missingMessageSequence "message sequence" ++
  frame.dataExtensionFindings index kExtFragmentOffset .missingFragmentOffset "fragment offset" ++
  frame.dataExtensionFindings index kExtMessageTotal .missingMessageTotal "message total" ++
  frame.dataExtensionFindings index kExtFamilyId .missingFamilyId "family id" ++
  frame.zeroTotalFindings index ++ frame.rangeFindings index

def pingFindings : List FrameFinding :=
  if (frame.type = .ping ∨ frame.type = .pong) ∧ frame.payload.length ≠ 8 then
    [frame.finding index .warning (if frame.type = .ping then .pingPayloadSize else .pongPayloadSize)
      "PING/PONG payload should be exactly eight bytes"]
  else []

def resumeFindings : List FrameFinding :=
  if frame.type = .resume ∧ frame.channel.isControl = false then
    [frame.finding index .error .resumeOnDataChannel "RESUME must use the control channel"]
  else []

def controlFindings : List FrameFinding :=
  if isControlPayloadFrame frame.type ∧ frame.payload.length > 512 then
    [frame.finding index .warning .controlPayloadLarge "control payload is unusually large"]
  else []

end Frame

def inspectFrame (frame : Frame) (index : Nat) : List FrameFinding :=
  frame.emptyRequiredFindings index ++ frame.duplicateFindings index ++
  (if frame.type = .data then frame.dataFindings index else []) ++
  frame.pingFindings index ++ frame.resumeFindings index ++ frame.controlFindings index

end LatticeGateway
