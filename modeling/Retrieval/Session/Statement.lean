import Retrieval.Text.Blank

/-!
# Statements

A statement is a text of queries separated by semicolons. It is put together from fragments,
in which a question mark outside quotes stands for a value that is still to come; a value is
quoted when it is put in, so that it is read as a phrase and as nothing else.
-/

namespace Retrieval

/-! ### Templates -/

/-- A text with places for values: the text before the first place, and the text after each
place. -/
structure Template where
  start : List Char
  afterPlaces : List (List Char)
deriving DecidableEq, Repr

namespace Template

/-- The template with a character in front. -/
def cons (c : Char) (t : Template) : Template :=
  { t with start := c :: t.start }

/-- The template with a place in front. -/
def consPlace (t : Template) : Template :=
  ⟨[], t.start :: t.afterPlaces⟩

/-- The template that a fragment writes, and whether the fragment ends between quotes. A
backslash outside quotes keeps a question mark from being a place, and is left out then. -/
def ofChars (inQuotes : Bool) : List Char → Template × Bool
  | [] => (⟨[], []⟩, inQuotes)
  | ['\\'] => (⟨['\\'], []⟩, inQuotes)
  | '\\' :: c :: l =>
    let (t, quoted) := ofChars inQuotes l
    if c = '?' ∧ !inQuotes then (t.cons '?', quoted) else ((t.cons c).cons '\\', quoted)
  | c :: l =>
    if c = '"' then
      let (t, quoted) := ofChars (!inQuotes) l
      (t.cons c, quoted)
    else
      let (t, quoted) := ofChars inQuotes l
      if c = '?' ∧ !inQuotes then (t.consPlace, quoted) else (t.cons c, quoted)

/-- The template with another one behind it. -/
def append (s t : Template) : Template :=
  match s.afterPlaces with
  | [] => ⟨s.start ++ t.start, t.afterPlaces⟩
  | texts => ⟨s.start, texts.dropLast ++ (texts.getLastD [] ++ t.start) :: t.afterPlaces⟩

end Template

/-- A value as a phrase: between quotes, with a backslash before each quote and backslash. -/
def quoteValue (value : List Char) : List Char :=
  '"' :: value.flatMap (fun c => if c = '"' ∨ c = '\\' then ['\\', c] else [c]) ++ ['"']

/-- The template with a value in its first place. Without a place the value is dropped. -/
def Template.fill (value : List Char) (t : Template) : Template :=
  match t.afterPlaces with
  | [] => t
  | text :: texts => ⟨t.start ++ quoteValue value ++ text, texts⟩

/-! ### Completed statements -/

/-- A statement that is complete. -/
structure Statement where
  text : List Char
  /-- Whether the statement is to give no results. -/
  quiet : Bool
deriving DecidableEq, Repr

namespace Statement

/-- Adds characters to the first of several parts. -/
def prepend (l : List Char) : List (List Char) → List (List Char)
  | [] => [l]
  | part :: parts => (l ++ part) :: parts

/-- The parts of a text between semicolons that are not quoted. The character after a
backslash counts as quoted. -/
def parts (inQuotes : Bool) : List Char → List (List Char)
  | [] => [[]]
  | ['\\'] => [['\\']]
  | '\\' :: c :: l => prepend ['\\', c] (parts inQuotes l)
  | c :: l =>
    if c = ';' ∧ !inQuotes then [] :: parts inQuotes l
    else prepend [c] (parts (if c = '"' then !inQuotes else inQuotes) l)

/-- The queries of a statement: its parts without the blanks around them, the blank ones
dropped. -/
def queries (text : List Char) : List String :=
  ((parts false text).map fun part => Text.trim (String.ofList part)).filter fun q => !q.isEmpty

end Statement

end Retrieval
