/-!
# Decimal numerals

The digits of a number in base ten, and the number that digits write. Reading the digits of a
number gives the number back.
-/

namespace Retrieval.Text

/-- The digits of a number, the most significant first, without leading zeros. -/
def decimal (n : Nat) : List Char :=
  if n < 10 then [Char.ofNat (48 + n)] else decimal (n / 10) ++ [Char.ofNat (48 + n % 10)]

/-- An integer as a minus sign, if it is negative, and the digits of its size. -/
def decimalInt (i : Int) : List Char :=
  if i < 0 then '-' :: decimal i.natAbs else decimal i.natAbs

/-- The number a digit stands for. -/
def digitValue (c : Char) : Nat :=
  c.toNat - 48

/-- The number that digits write. -/
def valueOf (digits : List Char) : Nat :=
  digits.foldl (fun n c => 10 * n + digitValue c) 0

private theorem digitValue_ofNat :
  ∀ d < 10, digitValue (Char.ofNat (48 + d)) = d ∧ (Char.ofNat (48 + d)).isDigit = true
  := by
  decide

theorem valueOf_append_singleton (l : List Char) (c : Char) :
  valueOf (l ++ [c]) = 10 * valueOf l + digitValue c
  := by
  simp [valueOf]

/-- The digits of a number write it. -/
theorem valueOf_decimal (n : Nat) :
  valueOf (decimal n) = n
  := by
  fun_induction decimal n with
  | case1 n h => simp [valueOf, (digitValue_ofNat n h).1]
  | case2 n h ih =>
    rw [valueOf_append_singleton, ih, (digitValue_ofNat (n % 10) (by omega)).1]
    omega

/-- A numeral holds digits only. -/
theorem isDigit_of_mem_decimal {n : Nat} {c : Char} (hc : c ∈ decimal n) :
  c.isDigit = true
  := by
  fun_induction decimal n with
  | case1 n h =>
    obtain rfl := List.mem_singleton.mp hc
    apply (digitValue_ofNat n h).2
  | case2 n h ih =>
    rcases List.mem_append.mp hc with hc | hc
    · apply ih hc
    · obtain rfl := List.mem_singleton.mp hc
      apply (digitValue_ofNat (n % 10) (by omega)).2

theorem decimal_ne_nil (n : Nat) :
  decimal n ≠ []
  := by
  fun_induction decimal n <;> simp

end Retrieval.Text
