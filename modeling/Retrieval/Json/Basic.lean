import Retrieval.Text.Decimal

/-!
# JSON values

A JSON value as it is written: the text of a string keeps its escapes and a number keeps its
digits, so that each reader of a value decides what it accepts. `Json.text` and `Json.integer`
are the values that write a given text or integer, and `Json.text?` and `Json.integer?` read
them.
-/

namespace Retrieval

/-- A JSON value. A numeral holds its characters, and a string the characters between its
quotes, escapes included. The fields of an object are named in the same way. -/
inductive Json where
  | null
  | bool (b : Bool)
  | numeral (chars : List Char)
  | string (chars : List Char)
  | array (items : List Json)
  | object (fields : List (List Char × Json))
deriving Repr, Inhabited

namespace Json

/-! ### Strings -/

/-- The hexadecimal digit of a number below sixteen. -/
def hexDigit (n : Nat) : Char :=
  if n < 10 then Char.ofNat (48 + n) else Char.ofNat (87 + n)

/-- The number a hexadecimal digit stands for. -/
def hexValue? (c : Char) : Option Nat :=
  if c.isDigit then some (c.toNat - 48)
  else if 'a' ≤ c ∧ c ≤ 'f' then some (c.toNat - 87)
  else if 'A' ≤ c ∧ c ≤ 'F' then some (c.toNat - 55)
  else none

/-- A character as it is written in a string: quotes, backslashes and controls are escaped. -/
def escapeChar (c : Char) : List Char :=
  if c = '"' then ['\\', '"']
  else if c = '\\' then ['\\', '\\']
  else if c = '\x08' then ['\\', 'b']
  else if c = '\t' then ['\\', 't']
  else if c = '\n' then ['\\', 'n']
  else if c = '\x0c' then ['\\', 'f']
  else if c = '\r' then ['\\', 'r']
  else if c.toNat < 0x20 then
    ['\\', 'u', '0', '0', hexDigit (c.toNat / 16), hexDigit (c.toNat % 16)]
  else [c]

/-- The characters of a string as they are written between its quotes. -/
def escape (l : List Char) : List Char :=
  l.flatMap escapeChar

/-- The character that a letter after a backslash stands for. -/
def escapeLetter? (c : Char) : Option Char :=
  match c with
  | '"' => some '"'
  | '\\' => some '\\'
  | '/' => some '/'
  | 'b' => some '\x08'
  | 'f' => some '\x0c'
  | 'n' => some '\n'
  | 'r' => some '\r'
  | 't' => some '\t'
  | _ => none

/-- The code unit that four hexadecimal digits write. -/
def codeUnit? (a b c d : Char) : Option Nat := do
  return 4096 * (← hexValue? a) + 256 * (← hexValue? b) + 16 * (← hexValue? c) + (← hexValue? d)

/-- The characters that the written form of a string stands for. A code unit above the basic
plane's characters must be the first or second half of a pair. -/
def unescape? : List Char → Option (List Char)
  | [] => some []
  | '\\' :: 'u' :: a :: b :: c :: d :: rest => do
    let unit ← codeUnit? a b c d
    if unit < 0xd800 ∨ 0xe000 ≤ unit then
      return Char.ofNat unit :: (← unescape? rest)
    else if unit < 0xdc00 then
      match rest with
      | '\\' :: 'u' :: a' :: b' :: c' :: d' :: rest' =>
        let low ← codeUnit? a' b' c' d'
        if 0xdc00 ≤ low ∧ low < 0xe000 then
          return Char.ofNat (0x10000 + (unit - 0xd800) * 0x400 + (low - 0xdc00))
            :: (← unescape? rest')
        else none
      | _ => none
    else none
  | '\\' :: c :: rest => do
    return (← escapeLetter? c) :: (← unescape? rest)
  | c :: rest => do
    if c = '\\' then none else return c :: (← unescape? rest)

/-- The string that writes a text. -/
def text (s : String) : Json :=
  .string (escape s.toList)

/-- The text a string writes. -/
def text? : Json → Option String
  | .string l => (unescape? l).map String.ofList
  | _ => none

/-- The name of a field, as it is written. -/
def name (s : String) : List Char :=
  escape s.toList

/-! ### Numbers -/

/-- The numeral that writes an integer. -/
def integer (i : Int) : Json :=
  .numeral (Text.decimalInt i)

/-- The numeral that writes a number. -/
def natural (n : Nat) : Json :=
  .numeral (Text.decimal n)

/-- The integer a numeral writes. A numeral with a fraction or an exponent writes none, and
neither does a negative zero. -/
def integer? : Json → Option Int
  | .numeral ('-' :: digits) =>
    if digits.all Char.isDigit ∧ Text.valueOf digits ≠ 0 then some (-(Text.valueOf digits : Int))
    else none
  | .numeral digits => if digits.all Char.isDigit then some (Text.valueOf digits) else none
  | _ => none

/-- The number below `bound` a numeral writes. -/
def natural? (bound : Nat) (j : Json) : Option Nat :=
  match j.integer? with
  | some (.ofNat n) => if n < bound then some n else none
  | _ => none

/-- The number of 8 bits a numeral writes. -/
def uint8? (j : Json) : Option UInt8 :=
  (j.natural? UInt8.size).map UInt8.ofNat

/-- The number of 32 bits a numeral writes. -/
def uint32? (j : Json) : Option UInt32 :=
  (j.natural? UInt32.size).map UInt32.ofNat

/-- The number of 64 bits a numeral writes. -/
def uint64? (j : Json) : Option UInt64 :=
  (j.natural? UInt64.size).map UInt64.ofNat

/-- The integer of 32 bits a numeral writes. -/
def int32? (j : Json) : Option Int32 :=
  match j.integer? with
  | some i =>
    if Int32.minValue.toInt ≤ i ∧ i ≤ Int32.maxValue.toInt then some (Int32.ofInt i) else none
  | none => none

/-! ### Other values -/

/-- The truth value that is written. -/
def bool? : Json → Option Bool
  | .bool b => some b
  | _ => none

/-- The items of an array. -/
def items? : Json → Option (List Json)
  | .array items => some items
  | _ => none

/-- The items of an array, each read by `read`. -/
def list? {α : Type} (read : Json → Option α) (j : Json) : Option (List α) := do
  (← j.items?).mapM read

/-- Nothing for `null`, and otherwise what `read` reads. -/
def nullable? {α : Type} (read : Json → Option α) : Json → Option (Option α)
  | .null => some none
  | j => (read j).map some

/-- The value, or `null` for nothing. -/
def ofOption {α : Type} (write : α → Json) : Option α → Json
  | some a => write a
  | none => .null

end Json

end Retrieval
