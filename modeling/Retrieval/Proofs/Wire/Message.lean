import Retrieval.Proofs.Json.Held
import Retrieval.Proofs.Wire.Boundary

/-!
# Reading messages back

Each request and each reply is read back from the JSON value that writes it, and from the frame of
that value, whatever follows the frame. Nothing that a message holds is too deep or too large for
a reader that sets the fields aside until it has seen of which kind the message is.
-/

namespace Retrieval

/-! ### Requests and replies -/

@[simp]
theorem Flags.plain (f : Flags) :
  Json.Plain f.toJson
  := Json.plain_uint8 f.bits

@[simp]
theorem Flags.ofJson?_toJson (f : Flags) :
  ofJson? f.toJson = some f
  := by
  rw [ofJson?, toJson, Json.uint8?_natural]
  rfl

namespace Request

theorem written (r : Request) :
  Json.Written r.toJson
  := by
  cases r <;>
  · apply Json.written_record
    simp

/-- A request is read back. -/
theorem ofJson?_toJson (r : Request) :
  ofJson? r.toJson = some r
  := by
  cases r with
  | send fragment flags =>
    obtain ⟨hholdable, t, ht, htag, hfields⟩ := Json.tagged?_record "Send"
      [("fragment", Json.text fragment), ("flags", flags.toJson)] (by simp) (by simp)
    simp [ofJson?, toJson, hholdable, ht, ofTagged?, htag, Json.kind?, hfields]
  | recv =>
    obtain ⟨hholdable, t, ht, htag, hfields⟩ := Json.tagged?_record "Recv" [] (by simp) (by simp)
    simp [ofJson?, toJson, hholdable, ht, ofTagged?, htag, Json.kind?, hfields]

end Request

namespace Reply

theorem written (r : Reply) :
  Json.Written r.toJson
  := by
  cases r <;>
  · apply Json.written_record
    simp

/-- A reply is read back. -/
theorem ofJson?_toJson (r : Reply) :
  ofJson? r.toJson = some r
  := by
  cases r with
  | sent ready =>
    obtain ⟨hholdable, t, ht, htag, hfields⟩ := Json.tagged?_record "Sent"
      [("ready", .bool ready)] (by simp) (by simp)
    simp [ofJson?, toJson, hholdable, ht, ofTagged?, htag, Json.kind?, hfields, Json.bool?]
  | value r =>
    obtain ⟨hholdable, t, ht, htag, hfields⟩ := Json.tagged?_record "Value"
      [("body", Json.text r.body), ("flags", r.flags.toJson)] (by simp) (by simp)
    simp [ofJson?, toJson, hholdable, ht, ofTagged?, htag, Json.kind?, hfields]
  | error code message =>
    obtain ⟨hholdable, t, ht, htag, hfields⟩ := Json.tagged?_record "Error"
      [("code", Json.integer code.toInt), ("message", Json.text message)]
      (by simp) (by simp)
    simp [ofJson?, toJson, hholdable, ht, ofTagged?, htag, Json.kind?, hfields]

end Reply

/-! ### Frames of messages -/

namespace Frame

variable {α : Type} {read? : Json → Option α} {j : Json} {a : α}

/-- The text of a value that can be written says what the value says. -/
theorem meaning?_compact (hwritten : j.Written) (hread : read? j = some a) :
  meaning? read? (Text.encode j.compact) = some a
  := by
  rw [meaning?, Text.decode?_encode, Option.bind_eq_bind, Option.bind_some, Json.compact,
    String.toList_ofList, hwritten.parse?_compactChars, Option.bind_eq_bind, Option.bind_some,
    hread]

/-- The frame of a value. -/
def ofValue (j : Json) : List UInt8 :=
  bytes (Text.encode j.compact)

theorem ofJson_eq (h : (Text.encode j.compact).length ≤ maxSize) :
  ofJson j = .ok (ofValue j)
  := write_eq_bytes (Nat.lt_of_le_of_lt h (by decide))

/-- A message is read back from its frame, and the stream goes on behind it. -/
theorem readMessage_ofValue (hwritten : j.Written) (hread : read? j = some a)
    (hsize : (Text.encode j.compact).length ≤ maxSize) (rest : List UInt8) :
  readMessage read? (ofValue j ++ rest) = (.ok a, rest)
  := by
  rw [ofValue, readMessage_bytes hsize, meaning?_compact hwritten hread]
  rfl

end Frame

end Retrieval
