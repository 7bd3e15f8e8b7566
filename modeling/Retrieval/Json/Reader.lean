import Retrieval.Json.Basic

/-!
# Reading JSON

A text is read one character at a time. `Lexer` gathers characters into tokens, and `Builder`
puts tokens together into a value, keeping the arrays and objects that are still open on a
stack; `Reader` joins the two. Each of their steps either goes on or refuses, so reading a text
is a fold over its characters.
-/

namespace Retrieval.Json

/-! ### Building values from tokens -/

/-- A bracket, a separator, or a value that is written without brackets. -/
inductive Token where
  | openArray
  | closeArray
  | openObject
  | closeObject
  | comma
  | colon
  | scalar (value : Json)
deriving Repr

/-- An array or object whose end has not been read, with what it holds so far, the last part
first. -/
inductive Container where
  | array (items : List Json)
  | object (fields : List (List Char × Json))
  /-- An object, after the name of a field and the colon. -/
  | field (fields : List (List Char × Json)) (name : List Char)
deriving Repr

/-- What may be read next. -/
inductive Awaiting where
  | value
  /-- A value, or the end of an array. -/
  | firstItem
  | name
  /-- The name of a field, or the end of an object. -/
  | firstName
  | colon (name : List Char)
  /-- A comma, or the end of the innermost array or object. -/
  | separator
  /-- Nothing: this is the value. -/
  | nothing (value : Json)
deriving Repr

/-- A value of which a part has been read: the open arrays and objects, the innermost first. -/
structure Builder where
  stack : List Container
  awaiting : Awaiting
deriving Repr

namespace Builder

/-- Before the first token. -/
def start : Builder := ⟨[], .value⟩

/-- Adds a complete value. -/
def accept (stack : List Container) (j : Json) : Option Builder :=
  match stack with
  | [] => some ⟨[], .nothing j⟩
  | .array items :: stack => some ⟨.array (j :: items) :: stack, .separator⟩
  | .field fields name :: stack => some ⟨.object ((name, j) :: fields) :: stack, .separator⟩
  | .object _ :: _ => none

/-- Reads a token where a value may stand. -/
def beginValue (stack : List Container) : Token → Option Builder
  | .openArray => some ⟨.array [] :: stack, .firstItem⟩
  | .openObject => some ⟨.object [] :: stack, .firstName⟩
  | .scalar j => accept stack j
  | _ => none

/-- Reads one token. -/
def step (b : Builder) (t : Token) : Option Builder :=
  match b.awaiting, b.stack, t with
  | .firstItem, .array items :: stack, .closeArray => accept stack (.array items.reverse)
  | .firstItem, stack, t => beginValue stack t
  | .value, stack, t => beginValue stack t
  | .firstName, .object fields :: stack, .closeObject => accept stack (.object fields.reverse)
  | .firstName, stack, .scalar (.string l) => some ⟨stack, .colon l⟩
  | .name, stack, .scalar (.string l) => some ⟨stack, .colon l⟩
  | .colon l, .object fields :: stack, .colon => some ⟨.field fields l :: stack, .value⟩
  | .separator, .array items :: stack, .comma => some ⟨.array items :: stack, .value⟩
  | .separator, .array items :: stack, .closeArray => accept stack (.array items.reverse)
  | .separator, .object fields :: stack, .comma => some ⟨.object fields :: stack, .name⟩
  | .separator, .object fields :: stack, .closeObject => accept stack (.object fields.reverse)
  | _, _, _ => none

end Builder

/-! ### Gathering characters into tokens -/

/-- The blanks that may stand between tokens. -/
def isGap (c : Char) : Bool :=
  c == ' ' || c == '\t' || c == '\n' || c == '\r'

/-- The token that is a single character. -/
def mark? (c : Char) : Option Token :=
  match c with
  | '[' => some .openArray
  | ']' => some .closeArray
  | '\x7b' => some .openObject
  | '\x7d' => some .closeObject
  | ',' => some .comma
  | ':' => some .colon
  | _ => none

/-- Whether the rest of a numeral is an exponent or nothing. -/
def isExponent : List Char → Bool
  | [] => true
  | c :: l =>
    let digits := match l with
      | '+' :: digits => digits
      | '-' :: digits => digits
      | digits => digits
    (c == 'e' || c == 'E') && !digits.isEmpty && digits.all Char.isDigit

/-- Whether the rest of a numeral is a fraction and an exponent, either of which may be absent. -/
def isFraction : List Char → Bool
  | '.' :: c :: l => c.isDigit && isExponent (l.dropWhile Char.isDigit)
  | l => isExponent l

/-- Whether the characters are a numeral: digits without a leading zero, after an optional
minus sign and before an optional fraction and an optional exponent. -/
def isNumeral (l : List Char) : Bool :=
  let unsigned := match l with
    | '-' :: l => l
    | l => l
  match unsigned with
  | '0' :: l => isFraction l
  | c :: l => c.isDigit && isFraction (l.dropWhile Char.isDigit)
  | [] => false

/-- The value that a run of characters without marks, quotes and blanks writes. -/
def ofBare? (l : List Char) : Option Json :=
  if l = "null".toList then some .null
  else if l = "true".toList then some (.bool true)
  else if l = "false".toList then some (.bool false)
  else if isNumeral l then some (.numeral l)
  else none

/-- The part of a token that has been read, the last character first. -/
inductive Lexer where
  | between
  | bare (chars : List Char)
  | string (chars : List Char)
  /-- In a string, after a backslash. -/
  | escape (chars : List Char)
  /-- In a string, where so many hexadecimal digits must follow. -/
  | digits (missing : Nat) (chars : List Char)
deriving Repr

/-- A text of which a part has been read. -/
structure Reader where
  lexer : Lexer
  builder : Builder
deriving Repr

namespace Reader

/-- Before the first character. -/
def start : Reader := ⟨.between, Builder.start⟩

/-- Reads a character between tokens. -/
def fresh (b : Builder) (c : Char) : Option Reader :=
  if isGap c then some ⟨.between, b⟩
  else match mark? c with
    | some t => (b.step t).map (⟨.between, ·⟩)
    | none => some ⟨if c = '"' then .string [] else .bare [c], b⟩

/-- Ends the run of bare characters that was being read. -/
def settle (b : Builder) (chars : List Char) : Option Builder := do
  b.step (.scalar (← ofBare? chars.reverse))

/-- Whether a character ends a run of bare characters. -/
def endsBare (c : Char) : Bool :=
  isGap c || (mark? c).isSome || c == '"'

/-- Reads one character. -/
def step (r : Reader) (c : Char) : Option Reader :=
  match r.lexer with
  | .between => fresh r.builder c
  | .bare chars =>
    if endsBare c then do fresh (← settle r.builder chars) c
    else some ⟨.bare (c :: chars), r.builder⟩
  | .string chars =>
    if c = '"' then (r.builder.step (.scalar (.string chars.reverse))).map (⟨.between, ·⟩)
    else if c = '\\' then some ⟨.escape (c :: chars), r.builder⟩
    else if c.toNat < 0x20 then none
    else some ⟨.string (c :: chars), r.builder⟩
  | .escape chars =>
    if c = 'u' then some ⟨.digits 4 (c :: chars), r.builder⟩
    else if (escapeLetter? c).isSome then some ⟨.string (c :: chars), r.builder⟩
    else none
  | .digits missing chars =>
    if (hexValue? c).isNone then none
    else if missing ≤ 1 then some ⟨.string (c :: chars), r.builder⟩
    else some ⟨.digits (missing - 1) (c :: chars), r.builder⟩

/-- The value that has been read, at the end of the text. -/
def finish (r : Reader) : Option Json := do
  let b ← match r.lexer with
    | .between => some r.builder
    | .bare chars => settle r.builder chars
    | _ => none
  match b.awaiting with
  | .nothing j => some j
  | _ => none

/-- Reads characters in order. -/
def run (r : Reader) (l : List Char) : Option Reader :=
  l.foldlM step r

end Reader

/-- The value that a text writes, if it writes one and nothing more. -/
def parse? (l : List Char) : Option Json := do
  (← Reader.start.run l).finish

end Retrieval.Json
