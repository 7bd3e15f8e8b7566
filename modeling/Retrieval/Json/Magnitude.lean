import Retrieval.Json.Basic

/-!
# The size of a numeral

A numeral stands for a floating-point number of 64 bits. Its leading digits, as many as fit a
word of 64 bits, and the power of ten that they are multiplied by are each rounded to such a
number, and the numeral is too large when the product is. `exceedsDouble` tells the numerals
that are too large.
-/

namespace Retrieval.Json

/-- The number of 53 significant bits that is nearest to a whole number. Of two numbers equally
near, it is the one that is even in its last bit. -/
def nearestDouble (n : Nat) : Nat :=
  let unit := Nat.pow 2 (n.log2 - 52)
  let low := n / unit
  let rest := n % unit
  if 2 * rest < unit ∨ (2 * rest = unit ∧ low % 2 = 0) then low * unit else (low + 1) * unit

/-- The number `m` continued by the digits as long as it is below `2 ^ 64`, and how many digits
are left. -/
def leadingDigits (m : Nat) : List Char → Nat × Nat
  | [] => (m, 0)
  | c :: digits =>
    let n := 10 * m + Text.digitValue c
    if n < UInt64.size then leadingDigits n digits else (m, digits.length + 1)

/-- The leading digits of a numeral as one number, and the power of ten by which that number is
multiplied. Digits that do not fit before the point count for the power, and after the point
for nothing. -/
def scientific (chars : List Char) : Nat × Int :=
  let isMark := fun c : Char => c == 'e' || c == 'E'
  let mantissa := chars.takeWhile fun c => !isMark c
  let exponent := (chars.dropWhile fun c => !isMark c).drop 1
  let fraction := (mantissa.dropWhile (· ≠ '.')).filter Char.isDigit
  let (m, places) := leadingDigits 0 ((mantissa.takeWhile (· ≠ '.')).filter Char.isDigit)
  let (m, left) := leadingDigits m fraction
  let size : Int := Text.valueOf (exponent.filter Char.isDigit)
  (m, places - (fraction.length - left : Nat)
    + if exponent.head? = some '-' then -size else size)

/-- The least number that no floating-point number of 64 bits is close to. -/
def doubleLimit : Nat :=
  Nat.pow 2 1024 - Nat.pow 2 970

/-- Whether a numeral is too large for a floating-point number of 64 bits. -/
def exceedsDouble (chars : List Char) : Bool :=
  let (m, e) := scientific chars
  if m = 0 ∨ e < 0 then false
  else if 308 < e then true
  else doubleLimit ≤ nearestDouble m * nearestDouble (Nat.pow 10 e.toNat)

/-! ### What rounding and reading keep -/

/-- A number of at most 53 bits is its own nearest. -/
theorem nearestDouble_eq_self {n : Nat} (h : n < Nat.pow 2 53) :
  nearestDouble n = n
  := by
  have hlog : n.log2 - 52 = 0 := by
    by_cases hn : n = 0
    · simp [hn]
    · have := (Nat.log2_lt hn).mpr h
      omega
  simp [nearestDouble, hlog, Nat.mod_one]

private theorem le_foldl_digitValue (m : Nat) (digits : List Char) :
  m ≤ digits.foldl (fun n c => 10 * n + Text.digitValue c) m
  := by
  induction digits generalizing m with
  | nil => apply Nat.le_refl
  | cons c digits ih => exact Nat.le_trans (by omega) (ih (10 * m + Text.digitValue c))

private theorem leadingDigits_of_foldl_lt (m : Nat) (digits : List Char)
    (h : digits.foldl (fun n c => 10 * n + Text.digitValue c) m < UInt64.size) :
  leadingDigits m digits = (digits.foldl (fun n c => 10 * n + Text.digitValue c) m, 0)
  := by
  induction digits generalizing m with
  | nil => rfl
  | cons c digits ih =>
    have hn := Nat.lt_of_le_of_lt (le_foldl_digitValue (10 * m + Text.digitValue c) digits) h
    simp only [leadingDigits, hn, ↓reduceIte]
    apply ih _ h

/-- Digits that write a number below `2 ^ 64` are all kept. -/
theorem leadingDigits_of_valueOf_lt {digits : List Char} (h : Text.valueOf digits < UInt64.size) :
  leadingDigits 0 digits = (Text.valueOf digits, 0)
  := leadingDigits_of_foldl_lt 0 digits h

end Retrieval.Json
