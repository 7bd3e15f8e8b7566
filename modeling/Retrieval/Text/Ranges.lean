/-!
# Sets of characters given by ranges

A property of characters is given by the ranges of code points that have it, in ascending
order.
-/

namespace Retrieval.Text

/-- A set of characters, as the ranges of code points it consists of, ends included. -/
abbrev Ranges := List (Nat × Nat)

/-- Whether a character lies in one of the ranges. -/
def Ranges.contains (ranges : Ranges) (c : Char) : Bool :=
  ranges.any fun (first, last) => first ≤ c.toNat && c.toNat ≤ last

end Retrieval.Text
