import Retrieval.Text.Utf8

/-!
# Tokens

The tokens of a text are its longest runs of characters that are not blanks, each with the
place in bytes where it starts. A run that takes too many bytes is no token: it is no word
that anyone searches for.
-/

namespace Retrieval.Text

/-- A run of characters, and the number of bytes before it. -/
structure Token where
  start : Nat
  chars : List Char
deriving DecidableEq, Repr

namespace Token

/-- The length of the longest token, in bytes. -/
def maxLength : Nat := 128

/-- The runs after a character has been put in front of the text, at the place `start`. The
character joins the first run if that run follows at once. -/
def cons (start : Nat) (c : Char) : List Token → List Token
  | [] => [⟨start, [c]⟩]
  | run :: runs =>
    if run.start = start + c.utf8Size then ⟨start, c :: run.chars⟩ :: runs
    else ⟨start, [c]⟩ :: run :: runs

/-- The longest runs without blanks in a text that starts at the place `start`. -/
def runs (isSpace : Char → Bool) (start : Nat) : List Char → List Token
  | [] => []
  | c :: l =>
    let rest := runs isSpace (start + c.utf8Size) l
    if isSpace c then rest else cons start c rest

end Token

/-- The tokens of a text. -/
def tokens (isSpace : Char → Bool) (l : List Char) : List Token :=
  (Token.runs isSpace 0 l).filter fun t => byteLength t.chars ≤ Token.maxLength

end Retrieval.Text
