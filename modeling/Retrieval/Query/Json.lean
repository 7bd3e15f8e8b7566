import Retrieval.Json.Depth
import Retrieval.Json.Reader
import Retrieval.Query.Basic

/-!
# Queries in JSON

An expression is a tagged record, and a query names its expression, its directives and what
was not read. A reader holds an expression before it reads it, so what it holds is subject to
the limits of `Json.holdable`.
-/

namespace Retrieval

/-! ### Writing -/

/-- The way of matching as JSON. -/
def ModeChoice.toJson (m : ModeChoice) : Json :=
  Json.record [("mode", Enumeration.toJson m.mode), ("option", Json.integer m.option.toInt)]

/-- The term as JSON. A way of matching is written only if there is one. -/
def Term.toJson (t : Term) : Json :=
  Json.record ([("type", Json.text "term"), ("text", Json.text t.text),
    ("is_prefix", .bool t.isPrefix), ("is_phrase", .bool t.isPhrase),
    ("weight", t.weight.toJson)]
    ++ match t.mode with
      | none => []
      | some m => [("mode", m.toJson)])

/-- The expression as JSON. -/
def Expr.toJson : Expr → Json
  | .empty => Json.record [("type", Json.text "empty")]
  | .term t => t.toJson
  | .group child => Json.record [("type", Json.text "group"), ("child", child.toJson)]
  | .join connective left right =>
    Json.record [("type", Json.text "binary_op"), ("kind", Enumeration.toJson connective),
      ("left", left.toJson), ("right", right.toJson)]

/-- The escalation as JSON. -/
def Escalation.toJson (e : Escalation) : Json :=
  Json.record [("threshold", Json.integer e.threshold.toInt),
    ("secondary", Json.ofOption (fun n => Json.integer n.toInt) e.secondary)]

/-- The weights as JSON: a choice, with the table of listed sections. -/
def SectionWeights.toJson : SectionWeights → Json
  | .uniform => Json.text "uniform"
  | .listed table =>
    Json.record [("listed", .object (table.entries.map fun (sectionNo, weight) =>
      (Text.decimal sectionNo.toNat, weight.toJson)))]

/-- The directives as JSON. -/
def Directives.toJson (d : Directives) : Json :=
  Json.record [("escalation", Json.ofOption Escalation.toJson d.escalation),
    ("default_op", Enumeration.toJson d.defaultOperator),
    ("section_weights", d.sectionWeights.toJson)]

/-- The query as JSON. What was not read is written only if it is not empty. -/
def Query.toJson (q : Query) : Json :=
  Json.record ([("root", q.root.toJson), ("pragmas", q.directives.toJson)]
    ++ if q.rest.isEmpty then [] else [("rest", Json.text q.rest)])

/-! ### Reading -/

/-- The way of matching that a held value writes. -/
def ModeChoice.ofJson? (j : Json) : Option ModeChoice := do
  let fields ← j.fields? ["mode", "option"]
  return {
    mode := ← fields.required "mode" Enumeration.ofHeld?
    option := ← fields.required "option" Json.int32? }

namespace Expr

/-- A part of a held expression, with the expression it writes, if it writes one. -/
abbrev Held := Json × Option Expr

/-- The fields of a term. -/
def termFields : List String :=
  ["text", "is_prefix", "is_phrase", "weight", "mode"]

/-- The term that the given fields make up. -/
def term? (fields : Json.Fields Held) : Option Term := do
  return {
    text := ← fields.required "text" (·.1.text?)
    isPrefix := ← fields.required "is_prefix" (·.1.bool?)
    isPhrase := ← fields.required "is_phrase" (·.1.bool?)
    weight := ← fields.required "weight" (·.1.int32?)
    mode := ← fields.withDefault "mode" (·.1.nullable? ModeChoice.ofJson?) none }

/-- The expression that a tagged record writes, given the expressions that its parts write. -/
def ofTagged? (held : Bool) (record : Json.Tagged Held) : Option Expr := do
  match ← Json.kind? ["empty", "term", "group", "binary_op"] held record.tag.1 with
  | "empty" => do
    let _ ← record.fields? []
    return empty
  | "term" => do
    return term (← term? (← record.fields? termFields))
  | "group" => do
    let fields ← record.fields? ["child"]
    return group (← fields.required "child" Prod.snd)
  | _ => do
    let fields ← record.fields? ["kind", "left", "right"]
    return join (← fields.required "kind" fun part => Enumeration.ofHeld? part.1)
      (← fields.required "left" Prod.snd) (← fields.required "right" Prod.snd)

mutual

/-- The expression that a value writes. Only the tag of the outermost expression is read
before it is held. -/
def read? (held : Bool) : Json → Option Expr
  | .array items => do ofTagged? held (← Json.Tagged.ofListed? (readItems items))
  | .object fields => do ofTagged? held (← Json.Tagged.ofNamed? (readFields fields))
  | _ => none

/-- The items of an array, each with the expression it writes. -/
def readItems : List Json → List Held
  | [] => []
  | j :: items => (j, read? true j) :: readItems items

/-- The fields of an object, each with the expression its value writes. -/
def readFields : List (List Char × Json) → List (List Char × Held)
  | [] => []
  | (n, j) :: fields => (n, (j, read? true j)) :: readFields fields

end

/-- The expression that a value writes, where `levels` more levels may nest. -/
def ofJson? (levels : Nat) (j : Json) : Option Expr :=
  if j.holdable levels then read? false j else none

end Expr

/-- The escalation that a value writes. -/
def Escalation.ofJson? (j : Json) : Option Escalation := do
  let fields ← j.fields? ["threshold", "secondary"]
  return {
    threshold := ← fields.required "threshold" Json.int32?
    secondary := ← fields.nullable "secondary" Json.int32? }

/-- The table that an object from sections to weights writes. A section is a numeral. -/
def WeightTable.ofJson? : Json → Option WeightTable
  | .object fields => do
    let entries ← fields.mapM fun (n, j) => do
      return (← (Json.ofBare? n).bind Json.uint32?, ← j.int32?)
    return ofList entries
  | _ => none

/-- The weights that a value writes. -/
def SectionWeights.ofJson? (j : Json) : Option SectionWeights := do
  match ← j.choice? with
  | ("uniform", payload) => if Json.saysNothing false payload then some .uniform else none
  | ("listed", some table) => return .listed (← WeightTable.ofJson? table)
  | _ => none

/-- The directives that a value writes. -/
def Directives.ofJson? (j : Json) : Option Directives := do
  let fields ← j.fields? ["escalation", "default_op", "section_weights"]
  return {
    escalation := ← fields.nullable "escalation" Escalation.ofJson?
    defaultOperator := ← fields.required "default_op" Enumeration.ofJson?
    sectionWeights := ← fields.required "section_weights" SectionWeights.ofJson? }

/-- The query that a value writes. -/
def Query.ofJson? (j : Json) : Option Query := do
  let fields ← j.fields? ["root", "pragmas", "rest"]
  return {
    root := ← fields.required "root" (Expr.ofJson? (Json.maxLevels - 1))
    directives := ← fields.required "pragmas" Directives.ofJson?
    rest := ← fields.withDefault "rest" Json.text? "" }

end Retrieval
