import Retrieval.Json.Printer
import Retrieval.Json.Reader
import Retrieval.RecordSet.Basic

/-!
# Responses

A session answers a statement with a block of responses, one for each query. The body of a
response is the result of its query as JSON text, or nothing, and its flags say where in the
block it stands.
-/

namespace Retrieval

/-- Flags of a response or of a piece of a statement, one in each bit. -/
structure Flags where
  bits : UInt8
deriving DecidableEq, Repr

namespace Flags

/-- No flags. -/
def none : Flags := ⟨0⟩

/-- More responses of the statement follow, or more text of it. -/
def more : Flags := ⟨0x01⟩

/-- The last response of a statement. -/
def tail : Flags := ⟨0x02⟩

/-- The first response of a statement. -/
def head : Flags := ⟨0x04⟩

/-- The statement is to give no results. -/
def quiet : Flags := ⟨0x08⟩

/-- The session has ended. -/
def quit : Flags := ⟨0x10⟩

/-- The flags of both. -/
def union (f g : Flags) : Flags :=
  ⟨f.bits ||| g.bits⟩

/-- Whether a flag is among others. -/
def has (f flag : Flags) : Bool :=
  f.bits &&& flag.bits != 0

end Flags

/-- What a query finds, as a session tells it. -/
structure QueryResult where
  count : Nat
  records : List Record
deriving DecidableEq, Repr

namespace QueryResult

/-- The result that a record set holds. -/
def ofRecords (s : RecordSet) : QueryResult :=
  ⟨s.size, s.records⟩

/-- The result as JSON. -/
def toJson (r : QueryResult) : Json :=
  Json.record [("nhits", Json.natural r.count), ("records", .array (r.records.map Record.toJson))]

/-- The result that a value writes. -/
def ofJson? (j : Json) : Option QueryResult := do
  let fields ← j.fields? ["nhits", "records"]
  return {
    count := ← fields.required "nhits" (Json.natural? UInt64.size)
    records := ← fields.required "records" (Json.list? Record.ofJson?) }

end QueryResult

/-- One answer of a session. -/
structure Response where
  body : String
  flags : Flags
deriving DecidableEq, Repr

namespace Response

/-- The result in the body of a response, if the body is not empty. -/
def value (r : Response) : Except Error (Option QueryResult) :=
  if r.body.isEmpty then .ok none
  else match (Json.parse? r.body.toList).bind QueryResult.ofJson? with
    | some result => .ok (some result)
    | none => .error .malformed

/-- The responses after the first one of a block. The last of them ends the session if `quit`
is set. -/
def following (quit : Bool) : List String → List Response
  | [] => []
  | [body] => [⟨body, if quit then Flags.tail.union .quit else .tail⟩]
  | body :: bodies => ⟨body, .more⟩ :: following quit bodies

/-- The responses with the given bodies, as one block. -/
def block (quit : Bool) (bodies : List String) : List Response :=
  match following quit bodies with
  | [] => []
  | first :: rest => { first with flags := first.flags.union .head } :: rest

end Response

end Retrieval
