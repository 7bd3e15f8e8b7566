import Retrieval.Bytes
import Retrieval.Error

/-!
# Frames

Messages travel as frames: the length of a message in four bytes, and the bytes of the message.
`Frame.read` takes a frame from the start of a stream of bytes.
-/

namespace Retrieval.Frame

/-- The length of the longest message that is read, in bytes. -/
def maxSize : Nat := 104857600

/-- The frame of a message. A message must have a length that four bytes can write. -/
def write (message : List UInt8) : Except Error (List UInt8) :=
  if message.length < UInt32.size then
    .ok (Bytes.littleEndian (UInt32.ofNat message.length) ++ message)
  else .error .oversizedMessage

/-- Reads a message of a given length. A stream that ends too early is used up. -/
def readBody (length : Nat) (l : List UInt8) : Except Error (List UInt8) × List UInt8 :=
  if maxSize < length then (.error .oversizedMessage, l)
  else if l.length < length then (.error .endOfStream, [])
  else (.ok (l.take length), l.drop length)

/-- Reads a frame. After a length that is too large the stream goes on behind that length. -/
def read : List UInt8 → Except Error (List UInt8) × List UInt8
  | a :: b :: c :: d :: l => readBody (Bytes.ofLittleEndian a b c d) l
  | _ => (.error .endOfStream, [])

/-- Whether nothing was read because the stream ended. -/
def isEnd {α : Type} : Except Error α → Bool
  | .error e => e = .endOfStream
  | .ok _ => false

theorem length_readBody_le (length : Nat) (l : List UInt8) :
  (readBody length l).2.length ≤ l.length
  := by
  unfold readBody
  split
  · exact Nat.le_refl _
  · split
    · exact Nat.zero_le _
    · exact (List.drop_suffix _ _).length_le

/-- A frame takes up some of the stream, unless the stream ends in it. -/
theorem length_read_lt {l : List UInt8} (h : (read l).1 ≠ .error .endOfStream) :
  (read l).2.length < l.length
  := by
  match l, h with
  | a :: b :: c :: d :: l, _ =>
    have := length_readBody_le (Bytes.ofLittleEndian a b c d) l
    simp only [read, List.length_cons]
    omega
  | [], h | [_], h | [_, _], h | [_, _, _], h => exact absurd rfl h

end Retrieval.Frame
