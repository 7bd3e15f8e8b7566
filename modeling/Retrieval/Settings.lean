import Retrieval.Json.Printer
import Retrieval.Query.Json
import Retrieval.Query.Reader
import Retrieval.RecordSet.Shape
import Retrieval.Scoring

/-!
# Settings

Settings govern how queries are read and run. They are kept in a file in JSON, in which every
field may be left out.
-/

namespace Retrieval

/-- How queries are read and run. -/
structure Settings where
  defaultOperator : Operator
  /-- How many expressions are read at once. -/
  budget : UInt32
  encoding : Encoding
  /-- The escalation of queries that give none. -/
  escalation : Option Escalation
  scoring : Scoring
  /-- The shape of results. -/
  shape : Shape
  /-- How many queries a session keeps after it has read them. -/
  cacheSize : UInt64
deriving DecidableEq, Repr

namespace Settings

/-- The settings if nothing else is said. -/
def standard : Settings :=
  ⟨.or, defaultBudget, .unspecified, none, .standard, .documents, 64⟩

/-- Fails unless queries can be read and run. -/
def validate (settings : Settings) : Except Error Unit :=
  if settings.budget = 0 then .error .noBudget else settings.shape.validate

/-- How queries are read. -/
def readOptions (settings : Settings) : ReadOptions :=
  ⟨settings.defaultOperator, settings.budget, settings.encoding, settings.scoring.termWeight⟩

/-- The settings as JSON, every field written. -/
def toJson (settings : Settings) : Json :=
  Json.record [("default_op", Enumeration.toJson settings.defaultOperator),
    ("max_exprs", Json.natural settings.budget.toNat),
    ("encoding", Enumeration.toJson settings.encoding),
    ("escalation", Json.ofOption Escalation.toJson settings.escalation),
    ("scoring", settings.scoring.toJson), ("records", settings.shape.toJson),
    ("cache_size", Json.natural settings.cacheSize.toNat)]

/-- The settings that a value writes, whether queries can be run with them or not. -/
def ofJson? (j : Json) : Option Settings := do
  let fields ← j.fields? ["default_op", "max_exprs", "encoding", "escalation", "scoring",
    "records", "cache_size"]
  return {
    defaultOperator :=
      ← fields.withDefault "default_op" Enumeration.ofJson? standard.defaultOperator
    budget := ← fields.withDefault "max_exprs" Json.uint32? standard.budget
    encoding := ← fields.withDefault "encoding" Enumeration.ofJson? standard.encoding
    escalation :=
      ← fields.withDefault "escalation" (Json.nullable? Escalation.ofJson?) standard.escalation
    scoring := ← fields.withDefault "scoring" Scoring.ofJson? standard.scoring
    shape := ← fields.withDefault "records" Shape.ofJson? standard.shape
    cacheSize := ← fields.withDefault "cache_size" Json.uint64? standard.cacheSize }

/-- The text of a file that keeps the settings. -/
def save (settings : Settings) : String :=
  settings.toJson.pretty

/-- The settings that the text of a file gives. -/
def ofText (text : String) : Except Error Settings := do
  match (Json.parse? text.toList).bind ofJson? with
  | none => throw .malformed
  | some settings =>
    settings.validate
    return settings

/-- The settings that the content of a file gives. -/
def ofBytes (bytes : List UInt8) : Except Error Settings :=
  match Text.decode? bytes with
  | some text => ofText text
  | none => .error .unreadableFile

end Settings

end Retrieval
