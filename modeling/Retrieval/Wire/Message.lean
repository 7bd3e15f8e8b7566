import Retrieval.Json.Depth
import Retrieval.Query.Json
import Retrieval.Session.Response
import Retrieval.Wire.Frame

/-!
# Messages

A client sends requests, and the server answers each of them with a reply. Messages are
written as JSON, and each says of which kind it is.
-/

namespace Retrieval

/-- What a client asks for. -/
inductive Request where
  | send (fragment : String) (flags : Flags)
  | recv
deriving DecidableEq, Repr

/-- What a server answers. -/
inductive Reply where
  /-- Whether a statement is complete. -/
  | sent (ready : Bool)
  | value (r : Response)
  | error (code : Int32) (message : String)
deriving DecidableEq, Repr

/-- The flags as JSON: the number of their bits. -/
def Flags.toJson (f : Flags) : Json :=
  Json.natural f.bits.toNat

/-- The flags that a value writes. -/
def Flags.ofJson? (j : Json) : Option Flags :=
  j.uint8?.map Flags.mk

namespace Request

/-- The request as JSON. -/
def toJson : Request → Json
  | send fragment flags =>
    Json.record [("type", Json.text "Send"), ("fragment", Json.text fragment),
      ("flags", flags.toJson)]
  | recv => Json.record [("type", Json.text "Recv")]

/-- The request that a tagged record writes. -/
def ofTagged? (record : Json.Tagged Json) : Option Request := do
  match ← Json.kind? ["Send", "Recv"] false record.tag with
  | "Send" => do
    let fields ← record.fields? ["fragment", "flags"]
    return send (← fields.required "fragment" Json.text?)
      (← fields.required "flags" Flags.ofJson?)
  | _ => do
    let _ ← record.fields? []
    return recv

/-- The request that a value writes. -/
def ofJson? (j : Json) : Option Request := do
  if j.holdable Json.maxLevels then ofTagged? (← j.tagged?) else none

end Request

namespace Reply

/-- The reply as JSON. -/
def toJson : Reply → Json
  | sent ready => Json.record [("type", Json.text "Sent"), ("ready", .bool ready)]
  | value r =>
    Json.record [("type", Json.text "Value"), ("body", Json.text r.body),
      ("flags", r.flags.toJson)]
  | error code message =>
    Json.record [("type", Json.text "Error"), ("code", Json.integer code.toInt),
      ("message", Json.text message)]

/-- The reply that a tagged record writes. -/
def ofTagged? (record : Json.Tagged Json) : Option Reply := do
  match ← Json.kind? ["Sent", "Value", "Error"] false record.tag with
  | "Sent" => do
    let fields ← record.fields? ["ready"]
    return sent (← fields.required "ready" Json.bool?)
  | "Value" => do
    let fields ← record.fields? ["body", "flags"]
    return value
      ⟨← fields.required "body" Json.text?, ← fields.required "flags" Flags.ofJson?⟩
  | _ => do
    let fields ← record.fields? ["code", "message"]
    return error (← fields.required "code" Json.int32?)
      (← fields.required "message" Json.text?)

/-- The reply that a value writes. -/
def ofJson? (j : Json) : Option Reply := do
  if j.holdable Json.maxLevels then ofTagged? (← j.tagged?) else none

/-- The reply as text for people. -/
def describe : Reply → String
  | sent ready => s!"Sent \x7b ready: {ready} \x7d"
  | value r =>
    s!"Value(Response \x7b body: {Text.quoted r.body}, flags: CtxFlags({r.flags.bits.toNat}) \x7d)"
  | error code message =>
    s!"Error \x7b code: {code.toInt}, message: {Text.quoted message} \x7d"

end Reply

namespace Frame

/-- The frame of a message that is written as JSON. -/
def ofJson (j : Json) : Except Error (List UInt8) :=
  write (Text.encode j.compact)

/-- Reads a frame whose message writes a value that `read?` reads. -/
def readMessage {α : Type} (read? : Json → Option α) (l : List UInt8) :
    Except Error α × List UInt8 :=
  let frame := read l
  match frame.1 with
  | .error e => (.error e, frame.2)
  | .ok message =>
    match (do read? (← Json.parse? (← Text.decode? message).toList)) with
    | some a => (.ok a, frame.2)
    | none => (.error .unreadableMessage, frame.2)

/-- A message takes up some of the stream, unless the stream ends in it. -/
theorem length_readMessage_lt {α : Type} {read? : Json → Option α} {l : List UInt8}
    (h : (readMessage read? l).1 ≠ .error .endOfStream) :
  (readMessage read? l).2.length < l.length
  := by
  have hsnd : (readMessage read? l).2 = (read l).2 := by
    unfold readMessage
    dsimp only
    split
    · rfl
    · split <;> rfl
  rw [hsnd]
  apply length_read_lt
  intro hread
  apply h
  simp [readMessage, hread]

end Frame

end Retrieval
