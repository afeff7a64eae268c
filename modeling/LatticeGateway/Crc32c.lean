import LatticeGateway.Wire

namespace LatticeGateway

/-- One bit of the table generator: `(crc >> 1) ^ (0x82F63B78 & -(crc & 1))`. -/
def crcBit (crc : UInt32) : UInt32 := (crc >>> 1) ^^^ (0x82F63B78 &&& (0 - (crc &&& 1)))

/-- `table[slice][i]`, an entry of the generated slicing-by-8 tables. -/
def crcTable : Nat → UInt32 → UInt32
  | 0, i => crcBit (crcBit (crcBit (crcBit (crcBit (crcBit (crcBit (crcBit i)))))))
  | slice + 1, i =>
    let previous := crcTable slice i
    crcTable 0 (previous &&& 0xFF) ^^^ (previous >>> 8)

/-- `memcpy` of eight bytes into a little-endian `std::uint64_t`. -/
def loadBlock (b0 b1 b2 b3 b4 b5 b6 b7 : UInt8) : UInt64 :=
  b0.toUInt64 ||| (b1.toUInt64 <<< 8) ||| (b2.toUInt64 <<< 16) ||| (b3.toUInt64 <<< 24) |||
    (b4.toUInt64 <<< 32) ||| (b5.toUInt64 <<< 40) ||| (b6.toUInt64 <<< 48) ||| (b7.toUInt64 <<< 56)

def crcBlock (crc : UInt32) (block : UInt64) : UInt32 :=
  let crc := crc ^^^ (block &&& 0xFFFFFFFF).toUInt32
  let high := (block >>> 32).toUInt32
  crcTable 7 (crc &&& 0xFF) ^^^ crcTable 6 ((crc >>> 8) &&& 0xFF) ^^^
    crcTable 5 ((crc >>> 16) &&& 0xFF) ^^^ crcTable 4 ((crc >>> 24) &&& 0xFF) ^^^
    crcTable 3 (high &&& 0xFF) ^^^ crcTable 2 ((high >>> 8) &&& 0xFF) ^^^
    crcTable 1 ((high >>> 16) &&& 0xFF) ^^^ crcTable 0 ((high >>> 24) &&& 0xFF)

def crcByte (crc : UInt32) (byte : UInt8) : UInt32 :=
  crcTable 0 ((crc ^^^ byte.toUInt32) &&& 0xFF) ^^^ (crc >>> 8)

/-- The portable loops: whole blocks first, then the bytes left over. -/
def crcLoop : UInt32 → Bytes → UInt32
  | crc, b0 :: b1 :: b2 :: b3 :: b4 :: b5 :: b6 :: b7 :: rest =>
    crcLoop (crcBlock crc (loadBlock b0 b1 b2 b3 b4 b5 b6 b7)) rest
  | crc, byte :: rest => crcLoop (crcByte crc byte) rest
  | crc, [] => crc

def crc32c (bytes : Bytes) : UInt32 := ~~~ crcLoop 0xFFFFFFFF bytes

example : crc32c [0x31, 0x32, 0x33, 0x34, 0x35, 0x36, 0x37, 0x38, 0x39] = 0xE3069283 := by
  decide +kernel

end LatticeGateway
