import Retrieval.Error
import Retrieval.Record.Json

/-!
# Shapes of record sets

The shape of a record set says at which granularity its records are kept apart, and how many
finer hits each record keeps as parts.
-/

namespace Retrieval

/-- How a record set collects hits. -/
structure Shape where
  /-- The granularity of the records. -/
  unit : Granularity
  /-- The granularity of the parts of a record. -/
  partUnit : Granularity
  /-- The number of parts that a record has room for. -/
  room : UInt32
deriving DecidableEq, Repr

namespace Shape

/-- Records by document, without parts. -/
def documents : Shape :=
  ⟨.perDocument, .nothing, 0⟩

/-- Whether parts may lie in the records: they are finer, or both are groups of a user. -/
def nests (shape : Shape) : Bool :=
  (shape.unit == .userDefined && shape.partUnit == .userDefined)
    || shape.partUnit.isFiner shape.unit

/-- Fails unless sets of the shape can hold records. -/
def validate (shape : Shape) : Except Error Unit :=
  if shape.unit = .nothing then .error .unitHoldsNothing
  else if 0 < shape.room ∧ !shape.nests then .error (.partsNotFiner shape.partUnit shape.unit)
  else .ok ()

/-- The shape as JSON. -/
def toJson (shape : Shape) : Json :=
  Json.record [("record_unit", Enumeration.toJson shape.unit),
    ("subrec_unit", Enumeration.toJson shape.partUnit),
    ("max_n_subrecs", Json.natural shape.room.toNat)]

/-- The shape that a value writes, valid or not. -/
def ofJson? (j : Json) : Option Shape := do
  let fields ← j.fields? ["record_unit", "subrec_unit", "max_n_subrecs"]
  return {
    unit := ← fields.required "record_unit" Enumeration.ofJson?
    partUnit := ← fields.required "subrec_unit" Enumeration.ofJson?
    room := ← fields.required "max_n_subrecs" Json.uint32? }

end Shape

end Retrieval
