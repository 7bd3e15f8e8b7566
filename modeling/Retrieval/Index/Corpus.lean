import Retrieval.Index.Match
import Retrieval.Text.Lowercase

/-!
# Indexes in memory

A corpus holds the sections of documents as text, and answers a lookup by matching the term
against each of them in turn.
-/

namespace Retrieval

/-- A section of a document. -/
structure Passage where
  key : Key
  number : UInt32
  text : String
  tokens : List Text.Token
deriving DecidableEq, Repr

/-- The section with its words and the places in bytes where they start. -/
def Passage.toJson (p : Passage) : Json :=
  Json.record [("key", p.key.toJson), ("section", Json.natural p.number.toNat),
    ("text", Json.text p.text),
    ("tokens", .array (p.tokens.map fun t => Json.text (String.ofList t.chars))),
    ("starts", .array (p.tokens.map fun t => Json.natural t.start))]

/-- The sections that are indexed. -/
structure Corpus where
  passages : List Passage
  /-- The encoding of the sections. -/
  encoding : Encoding
  /-- Whether upper and lower case are the same. -/
  foldsCase : Bool
deriving DecidableEq, Repr

namespace Corpus

/-- A corpus without sections. -/
def empty : Corpus :=
  ⟨[], .utf8, true⟩

/-- The text of a section or of a term as the corpus compares it. -/
def fold (corpus : Corpus) (text : String) : String :=
  if corpus.foldsCase then Text.lowercase text else text

/-- The corpus with one more section. -/
def add (key : Key) (number : UInt32) (text : String) (corpus : Corpus) : Corpus :=
  let text := corpus.fold text
  let tokens := Text.tokens corpus.encoding.isSpace text.toList
  { corpus with passages := corpus.passages ++ [⟨key, number, text, tokens⟩] }

/-- The corpus with one more document, whose sections are numbered from one. -/
def addDocument (key : Key) (sections : List String) (corpus : Corpus) : Corpus :=
  sections.zipIdx.foldl (fun corpus (text, i) => corpus.add key (UInt32.ofNat (i + 1)) text) corpus

/-- The number of sections. -/
def size (corpus : Corpus) : Nat :=
  corpus.passages.length

/-- The posting of a section, given the places where a term matches it. -/
def posting? (passage : Passage) (places : List Nat) : Option Posting :=
  places.min?.map fun first =>
    { key := passage.key
      sectionNo := passage.number
      position := UInt32.ofNat first
      score := Score.saturate places.length }

/-- The answer to a lookup: at most one posting for each section. A term without words matches
nothing. -/
def lookup (corpus : Corpus) : Index := fun request =>
  let term := (corpus.fold request.term).toList
  let terms := (Text.tokens request.encoding.isSpace term).map Text.Token.chars
  if terms.isEmpty then []
  else corpus.passages.filterMap fun passage =>
    posting? passage
      (Match.places request.mode request.option term terms passage.text.toList passage.tokens)

/-- The corpus as JSON. -/
def toJson (corpus : Corpus) : Json :=
  Json.record [("sections", .array (corpus.passages.map Passage.toJson)),
    ("encoding", Enumeration.toJson corpus.encoding), ("normalize", .bool corpus.foldsCase)]

end Corpus

end Retrieval
