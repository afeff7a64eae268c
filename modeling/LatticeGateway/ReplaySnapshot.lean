import LatticeGateway.ReplayWindow

namespace LatticeGateway

/-- `std::string` literals, as the bytes they hold. -/
def ascii (text : String) : Bytes := text.toList.map fun c => UInt8.ofNat c.toNat

def kNewline : UInt8 := 10
def kBar : UInt8 := 124

def snapshotError (detail : String) : Error :=
  makeError .connection .resourceLimit .none detail

def hexDigit (nibble : UInt8) : UInt8 := if nibble < 10 then 48 + nibble else 87 + nibble

def hexByte (byte : UInt8) : Bytes := [hexDigit (byte >>> 4), hexDigit (byte &&& 0xF)]

def hex (bytes : Bytes) : Bytes := bytes.flatMap hexByte

def nibble? (ch : UInt8) : Option UInt8 :=
  if 48 ≤ ch ∧ ch ≤ 57 then some (ch - 48)
  else if 97 ≤ ch ∧ ch ≤ 102 then some (10 + ch - 97)
  else if 65 ≤ ch ∧ ch ≤ 70 then some (10 + ch - 65)
  else none

def parseHexLoop : Bytes → Except Error Bytes
  | first :: second :: text =>
    match nibble? first, nibble? second with
    | some high, some low =>
      match parseHexLoop text with
      | .error error => .error error
      | .ok bytes => .ok ((high <<< 4 ||| low) :: bytes)
    | _, _ => .error (snapshotError "replay snapshot hex contains non-hex byte")
  | _ => .ok []

def parseHex (text : Bytes) : Except Error Bytes :=
  if text.length % 2 ≠ 0 then .error (snapshotError "replay snapshot hex has odd length")
  else parseHexLoop text

def parseU64Loop : Bytes → UInt64 → Except Error UInt64
  | [], value => .ok value
  | ch :: text, value =>
    if ch < 48 ∨ ch > 57 then .error (snapshotError "replay snapshot integer is not decimal")
    else
      let digit := (ch - 48).toUInt64
      if value > (0xFFFFFFFFFFFFFFFF - digit) / 10 then
        .error (snapshotError "replay snapshot integer overflows")
      else parseU64Loop text (value * 10 + digit)

def parseU64 (text : Bytes) : Except Error UInt64 :=
  if text = [] then .error (snapshotError "replay snapshot integer is empty")
  else parseU64Loop text 0

/-- The decimal digits that the stream operators write. -/
def decimalLoop : Nat → Nat → Bytes → Bytes
  | 0, _, out => out
  | fuel + 1, n, out =>
    let out := UInt8.ofNat (48 + n % 10) :: out
    if n / 10 = 0 then out else decimalLoop fuel (n / 10) out

def decimal (n : Nat) : Bytes := decimalLoop (n + 1) n []

/-- The lines that `std::getline` yields: a last line without its newline still counts, an empty rest
does not. -/
def lines (text : Bytes) : List Bytes :=
  let parts := text.splitOn kNewline
  if parts.getLast? = some [] then parts.dropLast else parts

def serializeEntry (entry : ReplayEntry) : Bytes :=
  ascii "entry|" ++ decimal entry.frameSeq.toNat ++ [kBar] ++ decimal entry.retries.toNat ++ [kBar] ++
    hex entry.encoded ++ [kNewline]

def ReplayWindow.serializeRetained (w : ReplayWindow) : Bytes :=
  ascii "LTXREPLAY/1" ++ [kNewline] ++ ascii "capacity|" ++ decimal w.capacity ++ [kNewline] ++
    ascii "epoch|" ++ decimal w.epoch.toNat ++ [kNewline] ++ w.entries.flatMap serializeEntry

/-- The text before the first bar and the text behind it. -/
def splitBar (text : Bytes) : Option (Bytes × Bytes) :=
  match text.dropWhile (· ≠ kBar) with
  | [] => none
  | _ :: rest => some (text.takeWhile (· ≠ kBar), rest)

def parseEntry (epoch : UInt16) (line : Bytes) : Except Error ReplayEntry :=
  let malformed := resumeRejected "malformed replay snapshot entry"
  match splitBar line with
  | none => .error malformed
  | some (tag, rest) =>
    match splitBar rest with
    | none => .error malformed
    | some (seqText, rest) =>
      match splitBar rest with
      | none => .error malformed
      | some (retriesText, hexText) =>
        if tag ≠ ascii "entry" then .error malformed
        else
          match parseU64 seqText, parseU64 retriesText, parseHex hexText with
          | .ok seq, .ok retries, .ok encoded =>
            if seq > 0xFFFFFFFF ∨ retries > 0xFF ∨ encoded = [] then
              .error (resumeRejected "replay snapshot entry is invalid")
            else .ok { epoch, frameSeq := seq.toUInt32, encoded, retries := retries.toUInt8 }
          | _, _, _ => .error (resumeRejected "replay snapshot entry is invalid")

def restoreEntries : List Bytes → Option UInt32 → ReplayWindow → Except Error ReplayWindow
  | [], _, restored => .ok restored
  | line :: rest, previous, restored =>
    if line = [] then restoreEntries rest previous restored
    else
      match parseEntry restored.epoch line with
      | .error error => .error error
      | .ok entry =>
        if previous.any (· ≥ entry.frameSeq) then
          .error (resumeRejected "replay snapshot entries are not ordered")
        else if restored.entries.length ≥ restored.capacity then
          .error (resumeRejected "replay snapshot exceeds capacity")
        else
          restoreEntries rest (some entry.frameSeq)
            { restored with entries := restored.entries ++ [entry] }

/-- A header line: the value behind its tag. -/
def parseHeader (tag : Bytes) (line : Option Bytes) (missing invalid : String) (limit : UInt64) :
    Except Error UInt64 :=
  match line with
  | none => .error (resumeRejected missing)
  | some line =>
    if line.take tag.length ≠ tag then .error (resumeRejected missing)
    else
      match parseU64 (line.drop tag.length) with
      | .error _ => .error (resumeRejected invalid)
      | .ok value =>
        if value = 0 ∨ value > limit then .error (resumeRejected invalid) else .ok value

def ReplayWindow.restoreRetained (text : Bytes) : Except Error ReplayWindow :=
  let text := lines text
  if text.head? ≠ some (ascii "LTXREPLAY/1") then
    .error (resumeRejected "replay snapshot header mismatch")
  else
    match parseHeader (ascii "capacity|") text[1]? "replay snapshot missing capacity"
        "replay snapshot capacity is invalid" 0xFFFFFFFFFFFFFFFF with
    | .error error => .error error
    | .ok capacity =>
      match parseHeader (ascii "epoch|") text[2]? "replay snapshot missing epoch"
          "replay snapshot epoch is invalid" 0xFFFF with
      | .error error => .error error
      | .ok epoch =>
        restoreEntries (text.drop 3) none { capacity := capacity.toNat, epoch := epoch.toUInt16 }

end LatticeGateway
