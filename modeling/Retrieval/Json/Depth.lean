import Retrieval.Json.Magnitude

/-!
# Values that can be held

A reader that has to set a value aside before it knows what the value is for holds it whole.
Such a value nests at most so many levels deep, each of its strings writes a text, and no
number in it is too large for a floating-point number of 64 bits.
-/

namespace Retrieval.Json

/-- How many levels of arrays and objects a text may nest. -/
def maxLevels : Nat := 127

mutual

/-- How many arrays and objects lie around the innermost part of the value. -/
def depth : Json → Nat
  | .array items => depthItems items + 1
  | .object fields => depthFields fields + 1
  | _ => 0

/-- The greatest depth of the items. -/
def depthItems : List Json → Nat
  | [] => 0
  | j :: items => max (depth j) (depthItems items)

/-- The greatest depth of the values of the fields. -/
def depthFields : List (List Char × Json) → Nat
  | [] => 0
  | (_, j) :: fields => max (depth j) (depthFields fields)

end

mutual

/-- Whether every string in the value writes a text and no number is too large. -/
def sound : Json → Bool
  | .numeral l => !exceedsDouble l
  | .string l => (unescape? l).isSome
  | .array items => soundItems items
  | .object fields => soundFields fields
  | _ => true

/-- Whether all items are sound. -/
def soundItems : List Json → Bool
  | [] => true
  | j :: items => sound j && soundItems items

/-- Whether all names write texts and all values are sound. -/
def soundFields : List (List Char × Json) → Bool
  | [] => true
  | (n, j) :: fields => (unescape? n).isSome && sound j && soundFields fields

end

/-- Whether a reader can hold the value in so many levels. -/
def holdable (levels : Nat) (j : Json) : Bool :=
  depth j ≤ levels && sound j

end Retrieval.Json
