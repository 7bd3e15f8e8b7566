import Retrieval.Json.Fields

/-!
# Enumerations

An enumeration has finitely many values, each with a name by which files and messages refer to
it. The code of a value is its place in the list of values.
-/

namespace Retrieval

/-- A type of finitely many values, each with a name. -/
class Enumeration (α : Type) where
  /-- The values, in the order of their codes. -/
  values : List α
  name : α → String

namespace Enumeration

variable {α : Type} [Enumeration α]

/-- The value with a name. -/
def ofName? (s : String) : Option α :=
  values.find? fun a => name a == s

/-- The value with a code. -/
def ofCode? (code : Int) : Option α :=
  match code with
  | .ofNat n => values[n]?
  | .negSucc _ => none

/-- The code of a value. -/
def code [DecidableEq α] (a : α) : Nat :=
  values.idxOf a

/-- The value as JSON. -/
def toJson (a : α) : Json :=
  Json.text (name a)

/-- The value that JSON names. -/
def ofJson? (j : Json) : Option α := do
  ofName? (← j.plainChoice? false)

/-- The value that JSON names where it was held before it was read. -/
def ofHeld? (j : Json) : Option α := do
  ofName? (← j.plainChoice? true)

end Enumeration

end Retrieval
