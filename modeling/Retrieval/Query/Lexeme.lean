import Retrieval.Query.Directive

/-!
# Lexemes of a query

After its directives a query is a sequence of lexemes between blanks: brackets, connectives,
ways of matching, phrases in quotes and bare words. What a lexeme is does not depend on those
before it, so `lexemes` cuts the whole text up front, and keeps with each lexeme the text from
it on and the text after it.
-/

namespace Retrieval

/-- A piece of a query. -/
inductive Lexeme where
  | mode (choice : ModeChoice)
  | opening
  | closing
  | connective (c : Connective)
  /-- A phrase, its end quote present or not, with a mark that it need only begin words. -/
  | phrase (text : List Char) (closed isPrefix : Bool)
  | word (text : List Char) (isPrefix : Bool)
deriving DecidableEq, Repr

namespace Lexeme

/-- The way of matching that a letter after a star stands for. -/
def modeLetter? (c : Char) : Option ModeChoice :=
  match c with
  | 'S' => some ⟨.similar, defaultSimilarity⟩
  | 'N' => some ⟨.near, defaultWindow⟩
  | 'n' => some ⟨.nearAny, defaultWindow⟩
  | 'T' => some ⟨.extract, 0⟩
  | _ => none

/-- The connective that a sign stands for. -/
def connectiveSign? (c : Char) : Option Connective :=
  match c with
  | '+' => some .and
  | '-' => some .but
  | '~' => some .adjust
  | '<' => some .below
  | '>' => some .above
  | _ => none

/-- Reads the option that may follow the letter of a way of matching. -/
def readMode (choice : ModeChoice) (l : List Char) : Lexeme × List Char :=
  let (option, rest) := Text.readInteger l
  if rest.length = l.length then (mode choice, l) else (mode { choice with option }, rest)

/-- Reads a phrase after its first quote: its text, whether it has an end quote, and what
comes after it. A backslash makes the next character part of the text. -/
def readPhrase : List Char → List Char × Bool × List Char
  | [] => ([], false, [])
  | '"' :: l => ([], true, l)
  | ['\\'] => (['\\'], false, [])
  | '\\' :: c :: l =>
    let (text, closed, rest) := readPhrase l
    (c :: text, closed, rest)
  | c :: l =>
    let (text, closed, rest) := readPhrase l
    (c :: text, closed, rest)

/-- Reads the star that marks a phrase. A blank, a closing bracket or nothing comes after
it. -/
def readMark (isSpace : Char → Bool) : List Char → Bool × List Char
  | '*' :: l => if l.head?.all fun c => isSpace c || c == ')' then (true, l) else (false, '*' :: l)
  | l => (false, l)

/-- Reads a phrase after its first quote. Only a phrase that has a text and an end may bear a
mark. -/
def phraseAfterQuote (isSpace : Char → Bool) (l : List Char) : Lexeme × List Char :=
  let (text, closed, rest) := readPhrase l
  if closed ∧ text ≠ [] then
    let (isPrefix, rest) := readMark isSpace rest
    (phrase text closed isPrefix, rest)
  else (phrase text closed false, rest)

/-- Whether a character ends a bare word. -/
def endsWord (isSpace : Char → Bool) (c : Char) : Bool :=
  isSpace c || c == ')' || c == '*'

/-- Reads a star that may come after a bare word. The word `OR` without a star is a
connective. -/
def finishWord (text : List Char) : List Char → Lexeme × List Char
  | '*' :: l => (word text true, l)
  | l => (if text = ['O', 'R'] then connective .or else word text false, l)

/-- Reads a bare word, of which the first character may be a star. -/
def readWord (isSpace : Char → Bool) (c : Char) (l : List Char) : Lexeme × List Char :=
  finishWord (c :: l.takeWhile fun c => !endsWord isSpace c)
    (l.dropWhile fun c => !endsWord isSpace c)

/-- Reads the lexeme at the start of a text that does not begin with a blank. -/
def read (isSpace : Char → Bool) (c : Char) (l : List Char) : Lexeme × List Char :=
  match c, l with
  | ')', l => (closing, l)
  | '(', l => (opening, l)
  | '"', l => phraseAfterQuote isSpace l
  | '*', letter :: rest =>
    match modeLetter? letter with
    | some choice => readMode choice rest
    | none => readWord isSpace '*' l
  | c, l =>
    match connectiveSign? c with
    | some sign => (connective sign, l)
    | none => readWord isSpace c l

/-! ### What is left is no longer -/

theorem length_readMode_le (choice : ModeChoice) (l : List Char) :
  (readMode choice l).2.length ≤ l.length
  := by
  unfold readMode
  dsimp only
  split
  · exact Nat.le_refl _
  · exact Text.length_readInteger_le l

theorem length_readPhrase_le (l : List Char) :
  (readPhrase l).2.2.length ≤ l.length
  := by
  fun_induction readPhrase l with
  | case1 => exact Nat.le_refl _
  | case2 => exact Nat.le_succ _
  | case3 => exact Nat.zero_le _
  | case4 c l text closed rest h ih =>
    rw [h] at ih
    exact Nat.le_succ_of_le (Nat.le_succ_of_le ih)
  | case5 c l _ _ _ text closed rest h ih =>
    rw [h] at ih
    exact Nat.le_succ_of_le ih

theorem length_readMark_le (isSpace : Char → Bool) (l : List Char) :
  (readMark isSpace l).2.length ≤ l.length
  := by
  unfold readMark
  split
  · split
    · exact Nat.le_succ _
    · exact Nat.le_refl _
  · exact Nat.le_refl _

theorem length_phraseAfterQuote_le (isSpace : Char → Bool) (l : List Char) :
  (phraseAfterQuote isSpace l).2.length ≤ l.length
  := by
  unfold phraseAfterQuote
  dsimp only
  split
  · exact Nat.le_trans (length_readMark_le _ _) (length_readPhrase_le l)
  · exact length_readPhrase_le l

theorem length_finishWord_le (text l : List Char) :
  (finishWord text l).2.length ≤ l.length
  := by
  unfold finishWord
  split
  · exact Nat.le_succ _
  · exact Nat.le_refl _

theorem length_readWord_le (isSpace : Char → Bool) (c : Char) (l : List Char) :
  (readWord isSpace c l).2.length ≤ l.length
  := Nat.le_trans (length_finishWord_le _ _) (List.dropWhile_suffix _).length_le

theorem length_read_le (isSpace : Char → Bool) (c : Char) (l : List Char) :
  (read isSpace c l).2.length ≤ l.length
  := by
  unfold read
  split
  · exact Nat.le_refl _
  · exact Nat.le_refl _
  · exact length_phraseAfterQuote_le _ _
  · split
    · exact Nat.le_succ_of_le (length_readMode_le _ _)
    · exact length_readWord_le _ _ _
  · split
    · exact Nat.le_refl _
    · exact length_readWord_le _ _ _

end Lexeme

/-- A lexeme where it stands. -/
structure PlacedLexeme where
  lexeme : Lexeme
  /-- The text from the lexeme on. -/
  source : List Char
  /-- The text after the lexeme. -/
  rest : List Char
deriving DecidableEq, Repr

/-- The lexemes of a text. -/
def lexemes (isSpace : Char → Bool) (l : List Char) : List PlacedLexeme :=
  match h : l.dropWhile isSpace with
  | [] => []
  | c :: l' =>
    have : (Lexeme.read isSpace c l').2.length < l.length := by
      have h₁ := (List.dropWhile_suffix isSpace (l := l)).length_le
      have h₂ := Lexeme.length_read_le isSpace c l'
      rw [h, List.length_cons] at h₁
      omega
    let read := Lexeme.read isSpace c l'
    ⟨read.1, c :: l', read.2⟩ :: lexemes isSpace read.2
termination_by l.length

end Retrieval
