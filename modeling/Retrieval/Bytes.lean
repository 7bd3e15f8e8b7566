/-!
# Numbers in bytes

A number of 32 bits takes four bytes, the least significant first.
-/

namespace Retrieval.Bytes

/-- The four bytes of a number. -/
def littleEndian (n : UInt32) : List UInt8 :=
  [n.toUInt8, (n >>> 8).toUInt8, (n >>> 16).toUInt8, (n >>> 24).toUInt8]

/-- The number that four bytes write. -/
def ofLittleEndian (a b c d : UInt8) : Nat :=
  a.toNat + 256 * b.toNat + 65536 * c.toNat + 16777216 * d.toNat

end Retrieval.Bytes
