import LatticeGateway.BoundedReads
import LatticeGateway.FrameCodec

namespace LatticeGateway.Checked

open BoundedReads StreamDecoder

def u16At (bytes : Bytes) (i : Nat) : Except Fault UInt16 := do
  let first ← index bytes i
  let second ← index bytes (i + 1)
  .ok ((first.toUInt16 <<< 8) ||| second.toUInt16)

def u24At (bytes : Bytes) (i : Nat) : Except Fault UInt32 := do
  let first ← index bytes i
  let second ← index bytes (i + 1)
  let third ← index bytes (i + 2)
  .ok ((first.toUInt32 <<< 16) ||| (second.toUInt32 <<< 8) ||| third.toUInt32)

def u32At (bytes : Bytes) (i : Nat) : Except Fault UInt32 := do
  let first ← index bytes i
  let second ← index bytes (i + 1)
  let third ← index bytes (i + 2)
  let fourth ← index bytes (i + 3)
  .ok ((first.toUInt32 <<< 24) ||| (second.toUInt32 <<< 16) ||| (third.toUInt32 <<< 8) |||
    fourth.toUInt32)

/-- The `for` loop of `decode_uleb128` with `remaining` rounds to go. -/
def decodeUleb128Loop (bytes : Bytes) (offset : Nat) :
    Nat → UInt32 → UInt32 → Except Fault (Except Error (UInt32 × Nat))
  | 0, _, _ =>
    .ok (.error
      (makeError .connection .varintTooLong .closeConnection "ULEB128 longer than five bytes"))
  | remaining + 1, value, shift =>
    let i := kMaxVarintBytes - (remaining + 1)
    if offset + i ≥ bytes.length then
      .ok (.error (makeError .connection .needMoreData .none "partial varint"))
    else do
      let byte ← index bytes (offset + i)
      let value := value ||| ((byte &&& 0x7F).toUInt32 <<< shift)
      if byte &&& 0x80 = 0 then
        if (i = 4 ∧ byte &&& 0xF0 ≠ 0) ∨ (i > 0 ∧ value < (1 : UInt32) <<< (7 * UInt32.ofNat i)) then
          .ok (.error
            (makeError .connection .varintNonCanonical .closeConnection "non-minimal ULEB128"))
        else .ok (.ok (value, i + 1))
      else decodeUleb128Loop bytes offset remaining value (shift + 7)

def decodeUleb128 (bytes : Bytes) (offset : Nat) : Except Fault (Except Error (UInt32 × Nat)) :=
  decodeUleb128Loop bytes offset kMaxVarintBytes 0 0

/-- The variables of `parse_extensions`. -/
structure ExtensionCursor where
  cursor : Nat := 0
  previous : Option UInt16 := none
  extensions : List Extension := []

/-- One round of the loop of `parse_extensions`. -/
def extensionRound (bytes : Bytes) (s : ExtensionCursor) :
    Except Fault (Round ExtensionCursor (Except Error (List Extension))) :=
  if s.cursor < bytes.length then do
    let available ← distance bytes.length s.cursor
    if available < 2 then
      .ok (.done (.error
        (makeError .connection .malformedTlv .closeConnection "short extension type")))
    else
      let raw ← u16At bytes s.cursor
      let length ← decodeUleb128 bytes (s.cursor + 2)
      match length with
      | .error error =>
        .ok (.done (.error { error with
          code := if error.code = .needMoreData then .malformedTlv else error.code
          action := .closeConnection }))
      | .ok (len, used) =>
        let cursor := s.cursor + 2 + used
        let available ← distance bytes.length cursor
        if len.toNat > available then
          .ok (.done (.error (makeError .connection .malformedTlv .closeConnection
            "extension length exceeds header")))
        else
          let type := raw &&& ~~~kRequiredBit
          if s.previous.any (type < ·) then
            .ok (.done (.error
              (makeError .connection .malformedTlv .closeConnection "extensions are not sorted")))
          else
            let required := raw &&& kRequiredBit != 0
            if required && !knownRequiredExtension type then
              .ok (.done (.error (makeError .connection .unknownRequiredFeature .closeConnection
                "unknown required frame extension")))
            else
              let value ← subspan bytes cursor len.toNat
              .ok (.next { cursor := cursor + len.toNat, previous := some type
                           extensions := s.extensions ++ [{ type, required, value }] })
  else .ok (.done (.ok s.extensions))

/-- Every round takes at least three bytes, so the length of the input is budget enough. -/
def parseExtensions (bytes : Bytes) : Except Fault (Except Error (List Extension)) :=
  loop (extensionRound bytes) (bytes.length + 1) {}

/-- The fixed prefix, each field read where `feed` reads it. -/
def readPrefix (limits : FrameLimits) (view : Bytes) : Except Fault (Except Error FramePrefix) := do
  let magic ← u32At view 0
  if magic ≠ kLtxMagic then
    .ok (.error (makeError .connection .badMagic .closeConnection "LTX1 magic mismatch"))
  else
    let rawType ← index view 4
    match FrameType.ofCode? rawType with
    | none =>
      .ok (.error
        (makeError .connection .unsupportedFrameType .closeConnection "unknown frame type"))
    | some type =>
      let flags ← index view 5
      if flags ≠ 0 then
        .ok (.error (makeError .connection .reservedFlags .closeConnection "reserved flags are set"))
      else
        let extLen ← u16At view 6
        if extLen.toNat > limits.maxHeader then .ok (.error headerTooLarge)
        else
          let channelNo ← u24At view 8
          let generation ← index view 11
          let frameSeq ← u32At view 12
          .ok (.ok { type, extLen, channel := ⟨channelNo, generation⟩, frameSeq })

/-- The extension block of a frame that has one. -/
def readExtensions (view : Bytes) (varintBytes : Nat) (extLen : UInt16) :
    Except Fault (Except Error (List Extension)) :=
  if extLen > 0 then do
    let block ← subspan view (16 + varintBytes) extLen.toNat
    parseExtensions block
  else .ok (.ok [])

/-- What `feed` does once all `total` bytes of the frame are there. -/
def readBody (view : Bytes) (fields : FramePrefix) (varintBytes : Nat) (payloadSize : UInt32)
    (extent : FrameExtent) : Except Fault (Except Error Frame) := do
  let expectedCrc ← u32At view extent.withoutCrc
  let covered ← subspan view 0 extent.withoutCrc
  if crc32c covered ≠ expectedCrc then
    .ok (.error (makeError .connection .crcMismatch .closeConnection "CRC32C mismatch"))
  else
    let parsed ← readExtensions view varintBytes fields.extLen
    match parsed with
    | .error error => .ok (.error error)
    | .ok extensions =>
      let payload ← subspan view extent.headerTotal payloadSize.toNat
      .ok (.ok { type := fields.type, flags := 0, channel := fields.channel
                 frameSeq := fields.frameSeq, extensions, payload })

/-- One round of the loop of `feed`, up to what it decides on the bytes behind `consumed`. -/
def decodeFrame (limits : FrameLimits) (eof : Bool) (buffer : Bytes) (consumed : Nat) :
    Except Fault (Verdict Frame Error) := do
  let remaining ← distance buffer.length consumed
  if remaining < kFixedPrefixBytes then
    if eof && remaining > 0 then
      .ok (.fail
        (makeError .connection .truncatedFrame .closeConnection "EOF before fixed prefix"))
    else .ok .needMore
  else
    let view ← subspan buffer consumed remaining
    let fields ← readPrefix limits view
    match fields with
    | .error error => .ok (.fail error)
    | .ok fields =>
      let payloadLen ← decodeUleb128 view 16
      match payloadLen with
      | .error error =>
        if error.code = .needMoreData then
          if eof then .ok (.fail { error with code := .truncatedFrame, action := .closeConnection })
          else .ok .needMore
        else .ok (.fail error)
      | .ok (payloadSize, varintBytes) =>
        match frameExtent limits varintBytes fields.extLen payloadSize with
        | .error error => .ok (.fail error)
        | .ok extent =>
          if remaining < extent.total then
            if eof then
              .ok (.fail (makeError .connection .truncatedFrame .closeConnection "EOF inside frame"))
            else .ok .needMore
          else
            let frame ← readBody view fields varintBytes payloadSize extent
            match frame with
            | .error error => .ok (.fail error)
            | .ok frame => .ok (.item frame extent.total)

/-- The variables of `feed`. -/
structure FeedCursor where
  consumed : Nat := 0
  events : List DecodeEvent := []

/-- One round of the loop of `feed`, which answers with the events and the buffer left behind. -/
def feedRound (limits : FrameLimits) (eof : Bool) (buffer : Bytes) (s : FeedCursor) :
    Except Fault (Round FeedCursor (List DecodeEvent × Bytes)) := do
  let verdict ← decodeFrame limits eof buffer s.consumed
  match verdict with
  | .needMore =>
    let events := if s.events.isEmpty then [.needMore] else s.events
    if s.consumed > 0 then
      let rest ← eraseFront buffer s.consumed
      .ok (.done (events, rest))
    else .ok (.done (events, buffer))
  | .fail error => .ok (.done (s.events ++ [.error error], []))
  | .item frame total =>
    let consumed := s.consumed + total
    let events := s.events ++ [.frame frame]
    if consumed = buffer.length then .ok (.done (events, [])) else .ok (.next { consumed, events })

/-- `feed`, with every access checked and a budget of rounds. -/
def feed (codec : FrameCodec) (budget : Nat) (bytes : Bytes) (eof : Bool) :
    Except Fault (List DecodeEvent × FrameCodec) := do
  let (events, rest) ← loop (feedRound codec.limits eof (codec.buffer ++ bytes)) budget {}
  .ok (events, { codec with buffer := rest })

end LatticeGateway.Checked
