import Retrieval.Record.Basic

/-!
# Records in JSON

A record names its address, its score, the number of its hits and, if there are any, its parts.
-/

namespace Retrieval

/-- The part as JSON. -/
def Part.toJson (p : Part) : Json :=
  Json.record [("section", Json.natural p.sectionNo.toNat),
    ("position", Json.natural p.position.toNat), ("score", p.score.toJson)]

/-- The part that a value writes. -/
def Part.ofJson? (j : Json) : Option Part := do
  let fields ← j.fields? ["section", "position", "score"]
  return {
    sectionNo := ← fields.required "section" Json.uint32?
    position := ← fields.required "position" Json.uint32?
    score := ← fields.required "score" Json.int32? }

/-- The record as JSON. -/
def Record.toJson (r : Record) : Json :=
  Json.record ([("key", r.key.toJson), ("section", Json.natural r.sectionNo.toNat),
    ("position", Json.natural r.position.toNat), ("score", r.score.toJson),
    ("n_subrecs", Json.natural r.hits.toNat)]
    ++ if r.parts.isEmpty then [] else [("subrecs", .array (r.parts.map Part.toJson))])

/-- The record that a value writes. -/
def Record.ofJson? (j : Json) : Option Record := do
  let fields ← j.fields? ["key", "section", "position", "score", "n_subrecs", "subrecs"]
  return {
    key := ← fields.required "key" Key.ofJson?
    sectionNo := ← fields.required "section" Json.uint32?
    position := ← fields.required "position" Json.uint32?
    score := ← fields.required "score" Json.int32?
    hits := ← fields.required "n_subrecs" Json.uint32?
    parts := ← fields.withDefault "subrecs" (Json.list? Part.ofJson?) [] }

end Retrieval
