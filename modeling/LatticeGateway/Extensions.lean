import LatticeGateway.Uleb128
import Mathlib.Data.List.Sort

namespace LatticeGateway

structure Extension where
  type : UInt16 := 0
  required : Bool := false
  value : Bytes := []
  deriving DecidableEq, Repr

def kRequiredBit : UInt16 := 0x8000

def knownRequiredExtension (type : UInt16) : Bool :=
  type == 1 || type == 2 || type == 3 || type == 4

/-- The loop of `parse_extensions` on the bytes from its cursor on. Every round
takes at least three bytes, so the length of the input is budget enough. -/
def parseExtensionsLoop : Nat → Bytes → Option UInt16 → Except Error (List Extension)
  | _, [], _ => .ok []
  | 0, _ :: _, _ => .ok []
  | fuel + 1, bytes@(_ :: _), previous =>
    if bytes.length < 2 then
      .error (makeError .connection .malformedTlv .closeConnection "short extension type")
    else
      let raw := u16At bytes 0
      match decodeUleb128 bytes 2 with
      | .error error =>
        .error { error with
          code := if error.code = .needMoreData then .malformedTlv else error.code
          action := .closeConnection }
      | .ok (len, used) =>
        if len.toNat > bytes.length - (2 + used) then
          .error (makeError .connection .malformedTlv .closeConnection
            "extension length exceeds header")
        else
          let type := raw &&& ~~~kRequiredBit
          if previous.any (type < ·) then
            .error (makeError .connection .malformedTlv .closeConnection "extensions are not sorted")
          else
            let required := raw &&& kRequiredBit != 0
            if required && !knownRequiredExtension type then
              .error (makeError .connection .unknownRequiredFeature .closeConnection
                "unknown required frame extension")
            else
              let value := (bytes.drop (2 + used)).take len.toNat
              match parseExtensionsLoop fuel (bytes.drop (2 + used + len.toNat)) (some type) with
              | .error error => .error error
              | .ok extensions => .ok ({ type, required, value } :: extensions)

def parseExtensions (bytes : Bytes) : Except Error (List Extension) :=
  parseExtensionsLoop bytes.length bytes none

/-- The comparator of `write_extensions`. -/
def extensionLess (a b : Extension) : Bool :=
  if a.type = b.type then a.required && !b.required else a.type < b.type

/-- `std::stable_sort` by `extensionLess`. -/
def sortExtensions (extensions : List Extension) : List Extension :=
  extensions.insertionSort (fun a b => extensionLess b a = false)

def writeSortedExtensions : List Extension → Except Error Bytes
  | [] => .ok []
  | extension :: extensions =>
    if extension.type > 0x7FFF then
      .error (makeError .connection .malformedTlv .closeConnection
        "extension type exceeds canonical range")
    else
      let raw := extension.type ||| (if extension.required then kRequiredBit else 0)
      match encodeUleb128 (UInt32.ofNat extension.value.length) with
      | .error error => .error error
      | .ok encodedLen =>
        match writeSortedExtensions extensions with
        | .error error => .error error
        | .ok out => .ok (u16Bytes raw ++ encodedLen ++ extension.value ++ out)

def writeExtensions (extensions : List Extension) : Except Error Bytes :=
  writeSortedExtensions (sortExtensions extensions)

end LatticeGateway
