import LatticeGateway.RoutePolicy

namespace LatticeGateway

/-- What the bridge command reads from its policy file. -/
structure BridgePolicy where
  source : ChannelId := ⟨1, 1⟩
  destination : ChannelId := ⟨2, 1⟩
  familyId : UInt32 := 7
  payload : Bytes := defaultPayload
  deriving DecidableEq, Repr

def bridgePolicyError (detail : String) : Error := makeError .connection .resourceLimit .none detail

def parseDecimalLoop : Bytes → Nat → Except Error UInt32
  | [], value => .ok (UInt32.ofNat value)
  | ch :: text, value =>
    if ch < 48 ∨ ch > 57 then .error (bridgePolicyError "policy integer is not decimal")
    else
      let value := value * 10 + (ch - 48).toNat
      if value > 0xFFFFFFFF then .error (bridgePolicyError "policy integer overflows u32")
      else parseDecimalLoop text value

def parseDecimalU32 (text : Bytes) : Except Error UInt32 :=
  if text = [] then .error (bridgePolicyError "policy integer is empty") else parseDecimalLoop text 0

/-- The tool's `trim` and `unquote` are those of the library, word for word. -/
def parseChannelId (text : Bytes) : Except Error ChannelId :=
  match splitFirst kColon (unquote text) with
  | none => .error (makeError .channel .resourceLimit .none "policy channel must use number:generation")
  | some (numberText, generationText) =>
    match parseDecimalU32 numberText with
    | .error error => .error error
    | .ok number =>
      match parseDecimalU32 generationText with
      | .error error => .error error
      | .ok generation =>
        if generation > 0xFF then
          .error (makeError .channel .resourceLimit .none "policy channel generation exceeds u8")
        else .ok ⟨number, generation.toUInt8⟩

def parseHexBytes (text : Bytes) : Except Error Bytes :=
  let text := unquote text
  if text.length % 2 ≠ 0 then
    .error (makeError .message .resourceLimit .none "policy payload hex has odd length")
  else hexPairs (makeError .message .resourceLimit .none "policy payload contains non-hex byte") text

/-- What `read_bridge_policy` makes of one key. -/
def setBridgeKey (policy : BridgePolicy) (key value : Bytes) : Except Error BridgePolicy :=
  if key = ascii "source" then
    match parseChannelId value with
    | .error error => .error error
    | .ok source => .ok { policy with source }
  else if key = ascii "destination" then
    match parseChannelId value with
    | .error error => .error error
    | .ok destination => .ok { policy with destination }
  else if key = ascii "family" then
    match parseDecimalU32 (unquote value) with
    | .error error => .error error
    | .ok familyId => .ok { policy with familyId }
  else if key = ascii "payload_hex" then
    match parseHexBytes value with
    | .error error => .error error
    | .ok payload => .ok { policy with payload }
  else .error (bridgePolicyError "unknown bridge policy key")

def readBridgeLine (policy : BridgePolicy) (line : Bytes) : Except Error BridgePolicy :=
  let line := trim (line.takeWhile (· ≠ kHash))
  if line = [] ∨ line = ascii "[route]" then .ok policy
  else
    match splitFirst kEquals line with
    | none => .error (bridgePolicyError "malformed bridge policy line")
    | some (key, value) => setBridgeKey policy (trim key) (trim value)

def readBridgeLines : List Bytes → BridgePolicy → Except Error BridgePolicy
  | [], policy => .ok policy
  | line :: rest, policy =>
    match readBridgeLine policy line with
    | .error error => .error error
    | .ok policy => readBridgeLines rest policy

/-- The file is the text that stands in it, if it can be opened. -/
def readBridgePolicy : Option Bytes → Except Error BridgePolicy
  | none => .error (bridgePolicyError "cannot open bridge policy file")
  | some text => readBridgeLines (lines text) {}

/-- The key and the value that a line of a policy sets, if it sets one. -/
def setting? (line : Bytes) : Option (Bytes × Bytes) :=
  let line := trim (line.takeWhile (· ≠ kHash))
  if line = [] ∨ line = ascii "[route]" then none
  else (splitFirst kEquals line).map fun p => (trim p.1, trim p.2)

def SetsName (line : Bytes) : Prop := ∃ value, setting? line = some (ascii "name", value)

/-- The payload is given, and given as empty. -/
def BlanksPayload (line : Bytes) : Prop :=
  ∃ value, setting? line = some (ascii "payload_hex", value) ∧ unquote value = []

/-- The kinds of lines, and what the two readers make of each. -/
theorem policyLine_cases (state : ParseState) (policy : BridgePolicy) (lineNo : Nat) (line : Bytes) :
    (setting? line = none ∧ parsePolicyLine state lineNo line = .ok state ∧
      readBridgeLine policy line = .ok policy) ∨
    (setting? line = none ∧ parsePolicyLine state lineNo line = beginRoute state lineNo ∧
      readBridgeLine policy line = .ok policy) ∨
    (setting? line = none ∧ ∃ error, parsePolicyLine state lineNo line = .error error) ∨
    ∃ key value, setting? line = some (key, value) ∧
      parsePolicyLine state lineNo line = setKey state key value lineNo ∧
      readBridgeLine policy line = setBridgeKey policy key value := by
  unfold parsePolicyLine readBridgeLine setting?
  dsimp only
  generalize trim (line.takeWhile (· ≠ kHash)) = body
  by_cases hblank : body = []
  · exact .inl ⟨if_pos (.inl hblank), if_pos hblank, if_pos (.inl hblank)⟩
  · rw [if_neg hblank]
    by_cases hroute : body = ascii "[route]"
    · exact .inr (.inl ⟨if_pos (.inr hroute), if_pos hroute, if_pos (.inr hroute)⟩)
    · rw [if_neg hroute, if_neg (not_or.mpr ⟨hblank, hroute⟩), if_neg (not_or.mpr ⟨hblank, hroute⟩)]
      cases hsplit : splitFirst kEquals body with
      | none => exact .inr (.inr (.inl ⟨rfl, _, rfl⟩))
      | some p => exact .inr (.inr (.inr ⟨trim p.1, trim p.2, rfl, rfl, rfl⟩))

theorem parseDecimalLoop_of_policy {line : Nat} {text : Bytes} {value : Nat} {n : UInt32}
    (h : parseU32Loop line text value = .ok n) : parseDecimalLoop text value = .ok n := by
  induction text generalizing value with
  | nil => exact h
  | cons ch text ih =>
    unfold parseU32Loop at h
    unfold parseDecimalLoop
    dsimp only at h ⊢
    split at h
    next => cases h
    next hdigit =>
      rw [if_neg hdigit]
      split at h
      next => cases h
      next hfits =>
        rw [if_neg hfits]
        exact ih h

theorem parseDecimalU32_of_policy {line : Nat} {text : Bytes} {n : UInt32}
    (h : parseU32Text text line = .ok n) : parseDecimalU32 text = .ok n := by
  unfold parseU32Text at h
  unfold parseDecimalU32
  split at h
  next => cases h
  next hne =>
    rw [if_neg hne]
    exact parseDecimalLoop_of_policy h

/-- The tool reads every channel that the library reads, and some that it does not. -/
theorem parseChannelId_of_policy {line : Nat} {text : Bytes} {id : ChannelId}
    (h : parseChannelText text line = .ok id) : parseChannelId text = .ok id := by
  unfold parseChannelText at h
  unfold parseChannelId
  cases hsplit : splitFirst kColon (unquote text) with
  | none =>
    rw [hsplit] at h
    cases h
  | some texts =>
    rw [hsplit] at h
    dsimp only at h ⊢
    split at h
    next => cases h
    next number hnumber =>
      rw [parseDecimalU32_of_policy hnumber]
      dsimp only
      split at h
      next => cases h
      next generation hgeneration =>
        rw [parseDecimalU32_of_policy hgeneration]
        dsimp only
        split at h
        next => cases h
        next hfits =>
          rw [if_neg hfits]
          split at h
          next => cases h
          next => exact h

theorem hexPairs_of_ok {error error' : Error} {text bytes : Bytes} (h : hexPairs error text = .ok bytes) :
    hexPairs error' text = .ok bytes := by
  fun_induction hexPairs error text generalizing bytes with
  | case1 first second text high low hfirst hsecond failed hfailed ih => cases h
  | case2 first second text high low hfirst hsecond rest hrest ih =>
    unfold hexPairs
    rw [hfirst, hsecond, ih hrest]
    exact h
  | case3 first second text hnone => cases h
  | case4 text hshort =>
    cases h
    unfold hexPairs
    split
    next first second text => exact (hshort first second text rfl).elim
    next => rfl

theorem hexPairs_nil {error : Error} {text : Bytes} (heven : text.length % 2 = 0)
    (h : hexPairs error text = .ok []) : text = [] := by
  unfold hexPairs at h
  split at h
  next =>
    repeat' split at h
    all_goals cases h
  next hshort =>
    cases text with
    | nil => rfl
    | cons first text =>
      cases text with
      | nil => simp at heven
      | cons second text => exact (hshort first second text rfl).elim

theorem parseHexBytes_of_policy {line : Nat} {text bytes : Bytes} (h : parseHexText text line = .ok bytes) :
    parseHexBytes text = .ok bytes ∧ (bytes = [] ↔ unquote text = []) := by
  unfold parseHexText at h
  unfold parseHexBytes
  dsimp only at h ⊢
  split at h
  next => cases h
  next heven =>
    rw [if_neg heven]
    refine ⟨hexPairs_of_ok h, ?_, fun hempty => ?_⟩
    · rintro rfl
      exact hexPairs_nil (not_not.mp heven) h
    · rw [hempty] at h
      exact (Except.ok.inj h).symm

end LatticeGateway
