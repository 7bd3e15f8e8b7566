import Retrieval.Encoding
import Retrieval.Record.Basic

/-!
# Lookups

An index answers lookups of single terms. A lookup says how the term is matched against the
texts that are indexed, and its answer is a list of postings.
-/

namespace Retrieval

/-- How a term is matched against indexed text. -/
inductive MatchMode where
  /-- The words of the term follow one another. -/
  | exact
  /-- The words of the term are contained in words that follow one another. -/
  | within
  /-- The term occurs in the text, no matter where words begin. -/
  | unsplit
  /-- The words of the term come in their order, near each other. -/
  | near
  /-- The words of the term come in any order, near each other. -/
  | nearAny
  /-- The text shares words with the term. -/
  | similar
  /-- The term contains words of the text. -/
  | extract
  /-- Like an exact match, but the last word of the term need only begin a word. -/
  | leading
  /-- Like an exact match, but the first word of the term need only end a word. -/
  | trailing
deriving DecidableEq, Repr

instance : Enumeration MatchMode where
  values :=
    [.exact, .within, .unsplit, .near, .nearAny, .similar, .extract, .leading, .trailing]
  name
    | .exact => "exact"
    | .within => "partial"
    | .unsplit => "unsplit"
    | .near => "near"
    | .nearAny => "near2"
    | .similar => "similar"
    | .extract => "term_extract"
    | .leading => "prefix"
    | .trailing => "suffix"

/-- How wide a near match may be if nothing is said about it. -/
def defaultWindow : Int32 := 10

/-- How many words of a term take part in a similar match if nothing is said about it. -/
def defaultSimilarity : Int32 := 10

/-- A question to an index. -/
structure Lookup where
  term : String
  mode : MatchMode
  /-- The window of a near match, or the number of words that take part in a similar match. -/
  option : Int32
  encoding : Encoding
deriving DecidableEq, Repr

/-- A place where a term matches. -/
structure Posting extends Address where
  score : Score
deriving DecidableEq, Repr

/-- What answers lookups: a function, so a lookup always has the same answer. -/
abbrev Index := Lookup → List Posting

/-- The posting as JSON. -/
def Posting.toJson (p : Posting) : Json :=
  Json.record [("key", p.key.toJson), ("section", Json.natural p.sectionNo.toNat),
    ("position", Json.natural p.position.toNat), ("score", p.score.toJson)]

/-- The posting that a value writes. -/
def Posting.ofJson? (j : Json) : Option Posting := do
  let fields ← j.fields? ["key", "section", "position", "score"]
  return {
    key := ← fields.required "key" Key.ofJson?
    sectionNo := ← fields.required "section" Json.uint32?
    position := ← fields.required "position" Json.uint32?
    score := ← fields.required "score" Json.int32? }

end Retrieval
