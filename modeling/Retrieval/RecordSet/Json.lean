import Retrieval.RecordSet.Basic

/-!
# Record sets in JSON

A record set is written as its shape and its records. The cursor is not written: a set that is
read has its cursor before the first record.
-/

namespace Retrieval.RecordSet

/-- The record set as JSON. -/
def toJson (s : RecordSet) : Json :=
  Json.record [("config", s.shape.toJson), ("records", .array (s.records.map Record.toJson))]

/-- The record set that a value writes. Its shape need not be valid. -/
def ofJson? (j : Json) : Option RecordSet := do
  let fields ← j.fields? ["config", "records"]
  return ofRecords (← fields.required "config" Shape.ofJson?)
    (← fields.required "records" (Json.list? Record.ofJson?))

end Retrieval.RecordSet
