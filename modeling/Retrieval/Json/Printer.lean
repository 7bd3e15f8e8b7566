import Retrieval.Json.Basic

/-!
# Writing JSON

A value is written without blanks by `compact`, and by `pretty` with every item and field on a
line of its own, indented by two spaces for each array or object around it.
-/

namespace Retrieval.Json

/-- A string or a name between its quotes. -/
def inQuotes (l : List Char) : List Char :=
  '"' :: l ++ ['"']

/-- A value that is written without brackets. -/
def scalarChars : Json → List Char
  | .bool true => "true".toList
  | .bool false => "false".toList
  | .numeral l => l
  | .string l => inQuotes l
  | _ => "null".toList

mutual

/-- The characters of a value, without blanks. -/
def compactChars : Json → List Char
  | .array items => '[' :: compactItems true items ++ [']']
  | .object fields => '\x7b' :: compactFields true fields ++ ['\x7d']
  | j => scalarChars j

/-- The items of an array, each but the first after a comma. -/
def compactItems (first : Bool) : List Json → List Char
  | [] => []
  | j :: items => (if first then [] else [',']) ++ compactChars j ++ compactItems false items

/-- The fields of an object, each but the first after a comma. -/
def compactFields (first : Bool) : List (List Char × Json) → List Char
  | [] => []
  | (n, j) :: fields =>
    (if first then [] else [',']) ++ inQuotes n ++ ':' :: compactChars j
      ++ compactFields false fields

end

/-- The value as text without blanks. -/
def compact (j : Json) : String :=
  String.ofList (compactChars j)

/-- The end of a line, and the indentation of the next one. -/
def newLine (indent : Nat) : List Char :=
  '\n' :: List.replicate (2 * indent) ' '

mutual

/-- The characters of a value that stands `indent` levels deep, on lines. -/
def prettyChars (indent : Nat) : Json → List Char
  | .array [] => ['[', ']']
  | .array items => '[' :: prettyItems (indent + 1) true items ++ newLine indent ++ [']']
  | .object [] => ['\x7b', '\x7d']
  | .object fields =>
    '\x7b' :: prettyFields (indent + 1) true fields ++ newLine indent ++ ['\x7d']
  | j => scalarChars j

/-- The items of an array, each on a line. -/
def prettyItems (indent : Nat) (first : Bool) : List Json → List Char
  | [] => []
  | j :: items =>
    (if first then [] else [',']) ++ newLine indent ++ prettyChars indent j
      ++ prettyItems indent false items

/-- The fields of an object, each on a line. -/
def prettyFields (indent : Nat) (first : Bool) : List (List Char × Json) → List Char
  | [] => []
  | (n, j) :: fields =>
    (if first then [] else [',']) ++ newLine indent ++ inQuotes n ++ ':' :: ' '
      :: prettyChars indent j ++ prettyFields indent false fields

end

/-- The value as text on lines. -/
def pretty (j : Json) : String :=
  String.ofList (prettyChars 0 j)

end Retrieval.Json
