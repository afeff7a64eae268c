import LatticeGateway.Crc32c
import LatticeGateway.Extensions
import LatticeGateway.StreamDecoder

namespace LatticeGateway

open StreamDecoder

structure Frame where
  type : FrameType := .hello
  flags : UInt8 := 0
  channel : ChannelId := {}
  frameSeq : UInt32 := 0
  extensions : List Extension := []
  payload : Bytes := []
  deriving DecidableEq, Repr

structure FrameLimits where
  maxFrame : Nat := 64 * 1024
  maxHeader : Nat := 4096
  deriving DecidableEq, Repr

/-- `DecodeEvent`, with the status that says which of its fields is set as the constructor. -/
inductive DecodeEvent
  | frame (frame : Frame)
  | needMore
  | error (error : Error)
  deriving DecidableEq, Repr

structure FrameCodec where
  limits : FrameLimits := {}
  buffer : Bytes := []
  deriving DecidableEq, Repr

def kFixedPrefixBytes : Nat := 16

def FrameType.code : FrameType → UInt8
  | .hello => 0x01
  | .open => 0x10
  | .data => 0x11
  | .ack => 0x12
  | .credit => 0x13
  | .halfClose => 0x14
  | .reset => 0x15
  | .ping => 0x20
  | .pong => 0x21
  | .goaway => 0x22
  | .resume => 0x23

/-- `known_frame_type` together with the cast that follows it. -/
def FrameType.ofCode? (raw : UInt8) : Option FrameType :=
  if raw = 0x01 then some .hello
  else if raw = 0x10 then some .open
  else if raw = 0x11 then some .data
  else if raw = 0x12 then some .ack
  else if raw = 0x13 then some .credit
  else if raw = 0x14 then some .halfClose
  else if raw = 0x15 then some .reset
  else if raw = 0x20 then some .ping
  else if raw = 0x21 then some .pong
  else if raw = 0x22 then some .goaway
  else if raw = 0x23 then some .resume
  else none

def frameTooLarge (detail : String) : Error :=
  makeError .connection .frameTooLarge .closeConnection detail

def headerTooLarge : Error :=
  makeError .connection .headerTooLarge .closeConnection "extension header exceeds limit"

def FrameCodec.encode (codec : FrameCodec) (frame : Frame) : Except Error Bytes :=
  if frame.flags ≠ 0 then
    .error (makeError .connection .reservedFlags .closeConnection "reserved frame flags are nonzero")
  else if frame.channel.number > kMaxChannelNo then
    .error (makeError .channel .resourceLimit .resetChannel "channel number exceeds 24 bits")
  else
    match writeExtensions frame.extensions with
    | .error error => .error error
    | .ok ext =>
      if ext.length > codec.limits.maxHeader then .error headerTooLarge
      else if frame.payload.length > 2 ^ 32 - 1 then
        .error (frameTooLarge "payload exceeds protocol varint range")
      else
        match encodeUleb128 (UInt32.ofNat frame.payload.length) with
        | .error error => .error error
        | .ok payloadLen =>
          let out := u32Bytes kLtxMagic ++ [frame.type.code, frame.flags] ++
            u16Bytes (UInt16.ofNat ext.length) ++ u24Bytes frame.channel.number ++
            [frame.channel.generation] ++ u32Bytes frame.frameSeq ++ payloadLen ++ ext ++ frame.payload
          match checkedAdd out.length 4 with
          | none => .error (frameTooLarge "encoded frame exceeds limit")
          | some total =>
            if total > codec.limits.maxFrame then
              .error (frameTooLarge "encoded frame exceeds limit")
            else .ok (out ++ u32Bytes (crc32c out))

/-- The fields of the fixed prefix that `feed` has validated. -/
structure FramePrefix where
  type : FrameType
  extLen : UInt16
  channel : ChannelId
  frameSeq : UInt32
  deriving DecidableEq

def readPrefix (limits : FrameLimits) (view : Bytes) : Except Error FramePrefix :=
  if u32At view 0 ≠ kLtxMagic then
    .error (makeError .connection .badMagic .closeConnection "LTX1 magic mismatch")
  else
    match FrameType.ofCode? (byteAt view 4) with
    | none =>
      .error (makeError .connection .unsupportedFrameType .closeConnection "unknown frame type")
    | some type =>
      if byteAt view 5 ≠ 0 then
        .error (makeError .connection .reservedFlags .closeConnection "reserved flags are set")
      else if (u16At view 6).toNat > limits.maxHeader then .error headerTooLarge
      else .ok { type, extLen := u16At view 6, channel := ⟨u24At view 8, byteAt view 11⟩,
                 frameSeq := u32At view 12 }

/-- `header_total`, `without_crc` and `total`, each computed with `checked_add`. -/
structure FrameExtent where
  headerTotal : Nat
  withoutCrc : Nat
  total : Nat

def frameExtent (limits : FrameLimits) (varintBytes : Nat) (extLen : UInt16) (payloadSize : UInt32) :
    Except Error FrameExtent :=
  match checkedAdd (16 + varintBytes) extLen.toNat with
  | none => .error (frameTooLarge "header size overflow")
  | some headerTotal =>
    match checkedAdd headerTotal payloadSize.toNat with
    | none => .error (frameTooLarge "frame exceeds negotiated limit")
    | some withoutCrc =>
      match checkedAdd withoutCrc 4 with
      | none => .error (frameTooLarge "frame exceeds negotiated limit")
      | some total =>
        if total > limits.maxFrame then .error (frameTooLarge "frame exceeds negotiated limit")
        else .ok { headerTotal, withoutCrc, total }

/-- What `feed` does once all `total` bytes of the frame are there. -/
def readBody (view : Bytes) (fields : FramePrefix) (varintBytes : Nat) (payloadSize : UInt32)
    (extent : FrameExtent) : Except Error Frame :=
  if crc32c (view.take extent.withoutCrc) ≠ u32At view extent.withoutCrc then
    .error (makeError .connection .crcMismatch .closeConnection "CRC32C mismatch")
  else
    match (if fields.extLen > 0 then
        parseExtensions ((view.drop (16 + varintBytes)).take fields.extLen.toNat)
      else .ok []) with
    | .error error => .error error
    | .ok extensions =>
      .ok { type := fields.type, flags := 0, channel := fields.channel, frameSeq := fields.frameSeq,
            extensions, payload := (view.drop extent.headerTotal).take payloadSize.toNat }

/-- One round of the loop of `feed` on the unconsumed bytes `view`. -/
def decodeFrame (limits : FrameLimits) (eof : Bool) (view : Bytes) : Verdict Frame Error :=
  if view.length < kFixedPrefixBytes then
    if eof && view.length > 0 then
      .fail (makeError .connection .truncatedFrame .closeConnection "EOF before fixed prefix")
    else .needMore
  else
    match readPrefix limits view with
    | .error error => .fail error
    | .ok fields =>
      match decodeUleb128 view 16 with
      | .error error =>
        if error.code = .needMoreData then
          if eof then .fail { error with code := .truncatedFrame, action := .closeConnection }
          else .needMore
        else .fail error
      | .ok (payloadSize, varintBytes) =>
        match frameExtent limits varintBytes fields.extLen payloadSize with
        | .error error => .fail error
        | .ok extent =>
          if view.length < extent.total then
            if eof then
              .fail (makeError .connection .truncatedFrame .closeConnection "EOF inside frame")
            else .needMore
          else
            match readBody view fields varintBytes payloadSize extent with
            | .error error => .fail error
            | .ok frame => .item frame extent.total

/-- The loop of `feed`: the events so far, and the buffer the loop leaves behind. -/
def feedLoop (limits : FrameLimits) (eof : Bool) :
    Nat → Bytes → List DecodeEvent → List DecodeEvent × Bytes
  | 0, view, events => (events, view)
  | fuel + 1, view, events =>
    match decodeFrame limits eof view with
    | .needMore => (if events.isEmpty then [.needMore] else events, view)
    | .fail error => (events ++ [.error error], [])
    | .item frame total =>
      if view.drop total = [] then (events ++ [.frame frame], [])
      else feedLoop limits eof fuel (view.drop total) (events ++ [.frame frame])

/-- Every frame takes at least one byte, so the buffered bytes are budget enough. -/
def FrameCodec.feed (codec : FrameCodec) (bytes : Bytes) (eof : Bool) :
    List DecodeEvent × FrameCodec :=
  let buffer := codec.buffer ++ bytes
  let (events, rest) := feedLoop codec.limits eof (buffer.length + 1) buffer []
  (events, { codec with buffer := rest })

end LatticeGateway
