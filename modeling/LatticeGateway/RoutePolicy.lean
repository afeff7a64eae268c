import LatticeGateway.TraceLog
import Mathlib.Data.List.AList
import Mathlib.Data.List.DropRight

namespace LatticeGateway

def kHash : UInt8 := 35
def kQuote : UInt8 := 34
def kColon : UInt8 := 58
def kEquals : UInt8 := 61

structure RoutePolicyEntry where
  name : Bytes := []
  source : ChannelId := ⟨1, 1⟩
  destination : ChannelId := ⟨2, 1⟩
  familyId : UInt32 := 7
  payload : Bytes := []
  deriving DecidableEq, Repr

structure RoutePolicyDocument where
  routes : List RoutePolicyEntry := []
  deriving DecidableEq, Repr

inductive RoutePolicyDiagnosticCode
  | missingKey | duplicateKey | malformedLine | invalidInteger | invalidChannel | invalidHex | emptyRoute
  | duplicateSource | duplicateName | unknownKey
  deriving DecidableEq, Repr

structure RoutePolicyDiagnostic where
  code : RoutePolicyDiagnosticCode := .malformedLine
  line : Nat := 0
  detail : String := ""
  deriving DecidableEq, Repr

structure RoutePolicyValidation where
  diagnostics : List RoutePolicyDiagnostic := []
  deriving DecidableEq, Repr

def RoutePolicyValidation.ok (validation : RoutePolicyValidation) : Bool := validation.diagnostics.isEmpty

def policyErrorCode : RoutePolicyDiagnosticCode → ErrorCode
  | .invalidChannel => .staleGeneration
  | .invalidHex => .malformedTlv
  | _ => .resourceLimit

def policyError (code : RoutePolicyDiagnosticCode) (line : Nat) (detail : String) : Error :=
  makeError .connection (policyErrorCode code) .none ("route policy line " ++ toString line ++ ": " ++ detail)

/-- The text of a key in the detail of an error, a character for each byte. -/
def keyText (key : Bytes) : String := String.ofList (key.map fun ch => Char.ofNat ch.toNat)

/-- `std::isspace` in the default locale. -/
def isSpace (ch : UInt8) : Bool := ch == 32 || (9 ≤ ch && ch ≤ 13)

def trim (text : Bytes) : Bytes := (text.dropWhile isSpace).rdropWhile isSpace

def unquote (text : Bytes) : Bytes :=
  let text := trim text
  if text.length ≥ 2 ∧ text.head? = some kQuote ∧ text.getLast? = some kQuote then
    (text.drop 1).take (text.length - 2)
  else text

/-- The text before the first separator and the text behind it. -/
def splitFirst (separator : UInt8) (text : Bytes) : Option (Bytes × Bytes) :=
  match text.dropWhile (· ≠ separator) with
  | [] => none
  | _ :: rest => some (text.takeWhile (· ≠ separator), rest)

def parseU32Loop (line : Nat) : Bytes → Nat → Except Error UInt32
  | [], value => .ok (UInt32.ofNat value)
  | ch :: text, value =>
    if ch < 48 ∨ ch > 57 then .error (policyError .invalidInteger line "integer value is not decimal")
    else
      let value := value * 10 + (ch - 48).toNat
      if value > 0xFFFFFFFF then .error (policyError .invalidInteger line "integer value overflows u32")
      else parseU32Loop line text value

def parseU32Text (text : Bytes) (line : Nat) : Except Error UInt32 :=
  if text = [] then .error (policyError .invalidInteger line "integer value is empty")
  else parseU32Loop line text 0

def parseChannelText (text : Bytes) (line : Nat) : Except Error ChannelId :=
  match splitFirst kColon (unquote text) with
  | none => .error (policyError .invalidChannel line "channel must use number:generation syntax")
  | some (numberText, generationText) =>
    match parseU32Text numberText line with
    | .error error => .error error
    | .ok number =>
      match parseU32Text generationText line with
      | .error error => .error error
      | .ok generation =>
        if generation > 0xFF then
          .error (policyError .invalidChannel line "channel generation exceeds u8")
        else if number = 0 ∧ generation ≠ 0 then
          .error (policyError .invalidChannel line "control channel must use generation zero")
        else .ok ⟨number, generation.toUInt8⟩

def parseHexText (text : Bytes) (line : Nat) : Except Error Bytes :=
  let text := unquote text
  if text.length % 2 ≠ 0 then
    .error (policyError .invalidHex line "hex payload has an odd number of characters")
  else hexPairs (policyError .invalidHex line "hex payload contains a non-hex character") text

structure ParseState where
  document : RoutePolicyDocument := {}
  current : RoutePolicyEntry := {}
  keys : List Bytes := []
  inRoute : Bool := false
  routeStartLine : Nat := 0
  deriving DecidableEq, Repr

/-- The default payload, "ok". -/
def defaultPayload : Bytes := [111, 107]

/-- A failed step ends the parse, so that only the state of a step that goes through counts. -/
def finishRoute (state : ParseState) : Except Error ParseState :=
  if state.inRoute = false then .ok state
  else if state.keys = [] then
    .error (policyError .emptyRoute state.routeStartLine "route section has no keys")
  else
    match ["source", "destination", "family"].find? fun key => ascii key ∉ state.keys with
    | some key => .error (policyError .missingKey state.routeStartLine ("route is missing " ++ key))
    | none =>
      let finished := if state.current.payload = [] then { state.current with payload := defaultPayload }
        else state.current
      .ok { document := { routes := state.document.routes ++ [finished] } }

def beginRoute (state : ParseState) (line : Nat) : Except Error ParseState :=
  match finishRoute state with
  | .error error => .error error
  | .ok state => .ok { document := state.document, inRoute := true, routeStartLine := line }

/-- What `set_key` makes of the current entry. -/
def setField (entry : RoutePolicyEntry) (key value : Bytes) (line : Nat) : Except Error RoutePolicyEntry :=
  if key = ascii "name" then .ok { entry with name := unquote value }
  else if key = ascii "source" then
    match parseChannelText value line with
    | .error error => .error error
    | .ok source => .ok { entry with source }
  else if key = ascii "destination" then
    match parseChannelText value line with
    | .error error => .error error
    | .ok destination => .ok { entry with destination }
  else if key = ascii "family" then
    match parseU32Text (unquote value) line with
    | .error error => .error error
    | .ok familyId => .ok { entry with familyId }
  else if key = ascii "payload_hex" then
    match parseHexText value line with
    | .error error => .error error
    | .ok payload => .ok { entry with payload }
  else .error (policyError .unknownKey line ("unknown route key " ++ keyText key))

def setKey (state : ParseState) (key value : Bytes) (line : Nat) : Except Error ParseState :=
  match if state.inRoute then .ok state else beginRoute state line with
  | .error error => .error error
  | .ok state =>
    if key ∈ state.keys then
      .error (policyError .duplicateKey line ("route repeats key " ++ keyText key))
    else
      match setField state.current key value line with
      | .error error => .error error
      | .ok current => .ok { state with keys := key :: state.keys, current }

def parsePolicyLine (state : ParseState) (lineNo : Nat) (line : Bytes) : Except Error ParseState :=
  let line := trim (line.takeWhile (· ≠ kHash))
  if line = [] then .ok state
  else if line = ascii "[route]" then beginRoute state lineNo
  else
    match splitFirst kEquals line with
    | none => .error (policyError .malformedLine lineNo "expected key=value")
    | some (key, value) => setKey state (trim key) (trim value) lineNo

def parsePolicyLines : Nat → List Bytes → ParseState → Except Error ParseState
  | _, [], state => .ok state
  | lineNo, line :: rest, state =>
    match parsePolicyLine state lineNo line with
    | .error error => .error error
    | .ok state => parsePolicyLines (lineNo + 1) rest state

def ChannelId.str (id : ChannelId) : Bytes := decimal id.number.toNat ++ [kColon] ++ decimal id.generation.toNat

/-- The loop variables of `validate_route_policy`. -/
structure ValidationState where
  diagnostics : List RoutePolicyDiagnostic := []
  names : AList (fun _ : Bytes => Nat) := ∅
  sources : AList (fun _ : Bytes => Nat) := ∅

def ValidationState.report (v : ValidationState) (code : RoutePolicyDiagnosticCode) (line : Nat)
    (detail : String) : ValidationState :=
  { v with diagnostics := v.diagnostics ++ [{ code, line, detail }] }

def ValidationState.checkChannels (v : ValidationState) (line : Nat) (route : RoutePolicyEntry) :
    ValidationState :=
  if route.source.isControl ∨ route.destination.isControl then
    v.report .invalidChannel line "source and destination must be data channels"
  else v

def ValidationState.checkFamily (v : ValidationState) (line : Nat) (route : RoutePolicyEntry) :
    ValidationState :=
  if route.familyId = 0 then v.report .invalidInteger line "family id must be nonzero" else v

def ValidationState.checkSource (v : ValidationState) (line : Nat) (route : RoutePolicyEntry) :
    ValidationState :=
  match v.sources.lookup route.source.str with
  | some entry =>
    v.report .duplicateSource line ("source channel duplicates route at entry " ++ toString entry)
  | none => { v with sources := v.sources.insert route.source.str line }

def ValidationState.checkName (v : ValidationState) (line : Nat) (route : RoutePolicyEntry) :
    ValidationState :=
  if route.name = [] then v
  else
    match v.names.lookup route.name with
    | some entry => v.report .duplicateName line ("route name duplicates entry " ++ toString entry)
    | none => { v with names := v.names.insert route.name line }

def validateRoutes : Nat → List RoutePolicyEntry → ValidationState → ValidationState
  | _, [], v => v
  | line, route :: routes, v =>
    validateRoutes (line + 1) routes
      ((((v.checkChannels line route).checkFamily line route).checkSource line route).checkName line route)

def validateRoutePolicy (document : RoutePolicyDocument) : RoutePolicyValidation :=
  let v := validateRoutes 1 document.routes {}
  { diagnostics := if document.routes = [] then
      v.diagnostics ++ [{ code := .emptyRoute, line := 0, detail := "policy contains no routes" }]
    else v.diagnostics }

def parseRoutePolicyText (text : Bytes) : Except Error RoutePolicyDocument :=
  match parsePolicyLines 1 (lines text) {} with
  | .error error => .error error
  | .ok state =>
    match finishRoute state with
    | .error error => .error error
    | .ok state =>
      if state.document.routes = [] then
        .error (policyError .emptyRoute (lines text).length "policy contains no routes")
      else
        match (validateRoutePolicy state.document).diagnostics with
        | diagnostic :: _ => .error (policyError diagnostic.code diagnostic.line diagnostic.detail)
        | [] => .ok state.document

def serializeRoute (route : RoutePolicyEntry) : Bytes :=
  ascii "[route]" ++ [kNewline] ++
    (if route.name = [] then [] else ascii "name=" ++ [kQuote] ++ route.name ++ [kQuote] ++ [kNewline]) ++
    ascii "source=" ++ route.source.str ++ [kNewline] ++
    ascii "destination=" ++ route.destination.str ++ [kNewline] ++
    ascii "family=" ++ decimal route.familyId.toNat ++ [kNewline] ++
    ascii "payload_hex=" ++ hex route.payload ++ [kNewline]

def serializeRoutePolicy (document : RoutePolicyDocument) : Except Error Bytes :=
  match (validateRoutePolicy document).diagnostics with
  | diagnostic :: _ => .error (policyError diagnostic.code diagnostic.line diagnostic.detail)
  | [] => .ok (document.routes.flatMap serializeRoute)

end LatticeGateway
