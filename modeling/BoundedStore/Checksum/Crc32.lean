import BoundedStore.Bytes

/-!
# CRC-32

The checksum of IEEE 802.3 with reflected bits: the register starts with all bits set, takes one byte after the
other (`feed`), and is complemented at the end (`crc32`).
-/

namespace BoundedStore.Crc32

/-- The generator polynomial, its lowest power in the highest bit. -/
def polynomial : UInt32 := 0xEDB88320

/-- One bit leaves the register; if it is set the polynomial is added. -/
def shift (register : UInt32) : UInt32 :=
  if register &&& 1 = 1 then (register >>> 1) ^^^ polynomial else register >>> 1

/-- The register after one more byte. -/
def feed (register : UInt32) (byte : UInt8) : UInt32 :=
  shift (shift (shift (shift (shift (shift (shift (shift (register ^^^ byte.toUInt32))))))))

end BoundedStore.Crc32

namespace BoundedStore

/-- The CRC-32 of a byte string. -/
def crc32 (data : Bytes) : UInt32 := data.foldl Crc32.feed 0xFFFFFFFF ^^^ 0xFFFFFFFF

end BoundedStore
