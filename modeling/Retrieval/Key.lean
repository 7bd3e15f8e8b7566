import Retrieval.Bytes
import Retrieval.Json.Fields
import Retrieval.Text.Utf8

/-!
# Document keys

A document is known by a key: a number, or a string of bytes.
-/

namespace Retrieval

/-- The key of a document. Numbers come before bytes, and bytes are in lexicographic order. -/
inductive Key where
  | number (n : UInt32)
  | bytes (bytes : List UInt8)
deriving DecidableEq, Ord, Repr, Inhabited

namespace Key

/-- The key whose bytes write a text. -/
def ofString (s : String) : Key :=
  bytes (Text.encode s)

/-- The bytes of a key, a number in four bytes. -/
def toBytes : Key → List UInt8
  | number n => Bytes.littleEndian n
  | bytes b => b

/-- The number of bytes of a key. -/
def size : Key → Nat
  | number _ => 4
  | bytes b => b.length

/-- The number that a key is, if it is one. -/
def number? : Key → Option UInt32
  | number n => some n
  | bytes _ => none

/-- The key as text for people. -/
def display : Key → String
  | number n => s!"{n.toNat}"
  | bytes b => Text.decodeLossy b

/-- The key as JSON: a numeral, or an array of bytes. -/
def toJson : Key → Json
  | number n => Json.natural n.toNat
  | bytes b => .array (b.map fun x => Json.natural x.toNat)

/-- The key that a value writes. -/
def ofJson? (j : Json) : Option Key :=
  match j.uint32? with
  | some n => some (number n)
  | none => (j.list? Json.uint8?).map bytes

end Key

end Retrieval
