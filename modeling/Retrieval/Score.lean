import Retrieval.Json.Fields

/-!
# Scores

Scores, weights and options are integers of 32 bits. A sum, difference or product that would
leave their range stops at its end.
-/

namespace Retrieval

/-- A score, a weight or an option. -/
abbrev Score := Int32

namespace Score

/-- The score nearest to an integer. -/
def saturate (i : Int) : Score :=
  Int32.ofIntClamp i

/-- The sum of two scores. -/
def plus (a b : Score) : Score :=
  saturate (a.toInt + b.toInt)

/-- The difference of two scores. -/
def minus (a b : Score) : Score :=
  saturate (a.toInt - b.toInt)

/-- The product of two scores. -/
def times (a b : Score) : Score :=
  saturate (a.toInt * b.toInt)

/-- The score as a numeral. -/
def toJson (s : Score) : Json :=
  Json.integer s.toInt

end Score

end Retrieval
