import Retrieval.Index.Lookup
import Retrieval.Text.Token

/-!
# Matching terms

Where the words of a term match a text. A word is a list of characters, and each mode of
matching gives the list of the places it finds, a place being the number of words before it.
-/

namespace Retrieval.Match

/-- A word of a text or of a term. -/
abbrev Word := List Char

/-! ### Searching lists -/

/-- The places, counted from `i`, at which the rest of a list satisfies `p`. -/
def placesFrom {α : Type} (p : List α → Bool) (i : Nat) : List α → List Nat
  | [] => []
  | a :: l => if p (a :: l) then i :: placesFrom p (i + 1) l else placesFrom p (i + 1) l

/-- Whether a list begins with elements that satisfy the given tests, one for each. -/
def beginsWith {α : Type} : List (α → Bool) → List α → Bool
  | [], _ => true
  | test :: tests, a :: l => test a && beginsWith tests l
  | _ :: _, [] => false

/-- Whether a word occurs in another one. -/
def contains (part : Word) : Word → Bool
  | [] => part.isEmpty
  | c :: l => part.isPrefixOf (c :: l) || contains part l

/-- The places in bytes, counted from `start`, at which `part` occurs in a text. After an
occurrence the search goes on behind it; `skip` characters still belong to the last one. -/
def occurrences (part : List Char) (start skip : Nat) : List Char → List Nat
  | [] => []
  | c :: l =>
    match skip with
    | skip + 1 => occurrences part (start + c.utf8Size) skip l
    | 0 =>
      if part.isPrefixOf (c :: l) then
        start :: occurrences part (start + c.utf8Size) (part.length - 1) l
      else occurrences part (start + c.utf8Size) 0 l

/-! ### Modes -/

/-- Where words satisfy the given tests one after another. -/
def runs (tests : List (Word → Bool)) (words : List Word) : List Nat :=
  placesFrom (beginsWith tests) 0 words

/-- The tests of an exact match whose last word need only begin a word. -/
def leadingTests : List Word → List (Word → Bool)
  | [] => []
  | [term] => [term.isPrefixOf]
  | term :: terms => (· == term) :: leadingTests terms

/-- The tests of an exact match whose first word need only end a word. -/
def trailingTests : List Word → List (Word → Bool)
  | [] => []
  | term :: terms => term.isSuffixOf :: terms.map fun t => (· == t)

/-- Where the first word of a term is followed by the others in order, all of them among the
next `window` words. -/
def inOrder (terms : List Word) (window : Nat) (words : List Word) : List Nat :=
  placesFrom
    (fun l => l.head? == terms.head? && terms.isSublist (l.take window)) 0 words

/-- Where a word of a term stands, and all words of the term are among the next `window`
words. -/
def inAnyOrder (terms : List Word) (window : Nat) (words : List Word) : List Nat :=
  placesFrom
    (fun l => l.head?.any terms.contains && terms.all (l.take window).contains) 0 words

/-- Where the first `threshold` words of a term come first in a text. With a threshold that is
not positive all words of the term take part. -/
def shared (terms : List Word) (threshold : Int32) (words : List Word) : List Nat :=
  let distinct := terms.eraseDups
  let asked := if 0 < threshold then distinct.take threshold.toNatClampNeg else distinct
  asked.filterMap fun term => words.idxOf? term

/-- Where the words that occur in a term come first in a text. -/
def extracted (term : List Char) (words : List Word) : List Nat :=
  (words.eraseDups.filter fun word => contains word term).map words.idxOf

/-- The word in which a place in bytes lies, given the places where words start. Before the
first word it is the first one. -/
def wordAt (starts : List Nat) (place : Nat) : Nat :=
  (starts.filter (· ≤ place)).length - 1

/-- The words in which the occurrences of a term in a text begin. -/
def unsplit (term text : List Char) (starts : List Nat) : List Nat :=
  (occurrences term 0 0 text).map (wordAt starts)

/-- How many words a near match may take. -/
def window (option : Int32) : Nat :=
  if 0 < option then option.toNatClampNeg else defaultWindow.toNatClampNeg

/-- Where a term matches a text in a mode. The term is given as it is written and as its
words, and the text likewise. -/
def places (mode : MatchMode) (option : Int32) (term : List Char) (terms : List Word)
    (text : List Char) (tokens : List Text.Token) : List Nat :=
  let words := tokens.map Text.Token.chars
  match mode with
  | .exact => runs (terms.map fun t => (· == t)) words
  | .within => runs (terms.map contains) words
  | .leading => runs (leadingTests terms) words
  | .trailing => runs (trailingTests terms) words
  | .unsplit => unsplit term text (tokens.map Text.Token.start)
  | .near => inOrder terms (window option) words
  | .nearAny => inAnyOrder terms (window option) words
  | .similar => shared terms option words
  | .extract => extracted term words

end Retrieval.Match
