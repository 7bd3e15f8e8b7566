import Retrieval.Remark
import Retrieval.Text.Blank
import Retrieval.Text.Decimal

/-!
# Directives

A query may begin with directives, each of which starts with a star and a letter: `*E` gives
the escalation, `*D` the operator between terms that stand side by side, and `*W` the weights
of sections. `Directive.read?` reads one of them, and `Directives.read` as many as there are.
Each reader gives back what it did not read, which is no longer than what it was given.
-/

namespace Retrieval

/-! ### Numbers -/

namespace Text

/-- The number that the digits at the start of a text write, zero if there are none, and what
comes after them. -/
def readNumber (l : List Char) : Nat × List Char :=
  (valueOf (l.takeWhile Char.isDigit), l.dropWhile Char.isDigit)

/-- The integer of 32 bits nearest to the one at the start of a text, and what comes after it.
The sign and the digits may each be absent. -/
def readInteger : List Char → Int32 × List Char
  | '-' :: l => (Int32.ofIntClamp (-((readNumber l).1 : Int)), (readNumber l).2)
  | '+' :: l => (Int32.ofIntClamp (readNumber l).1, (readNumber l).2)
  | l => (Int32.ofIntClamp (readNumber l).1, (readNumber l).2)

theorem length_readNumber_le (l : List Char) :
  (readNumber l).2.length ≤ l.length
  := (List.dropWhile_suffix _).length_le

theorem length_readInteger_le (l : List Char) :
  (readInteger l).2.length ≤ l.length
  := by
  unfold readInteger
  split <;> simp only [List.length_cons]
  · exact Nat.le_succ_of_le (length_readNumber_le _)
  · exact Nat.le_succ_of_le (length_readNumber_le _)
  · exact length_readNumber_le _

end Text

/-- A directive of a query. -/
inductive Directive where
  | escalate (escalation : Escalation)
  /-- Sets the operator that a sign names, if it names one. -/
  | defaultOperator (sign : List Char)
  | weigh (weights : List (UInt32 × Score))
deriving DecidableEq, Repr

namespace Directive

/-! ### Reading one directive -/

/-- Reads a threshold and, after a comma, a secondary bound. -/
def readEscalation (l : List Char) : Escalation × List Char :=
  let (threshold, rest) := Text.readInteger l
  match rest with
  | ',' :: rest =>
    let (secondary, rest) := Text.readInteger rest
    (⟨threshold, some secondary⟩, rest)
  | rest => (⟨threshold, none⟩, rest)

/-- Whether a character ends the sign of an operator. -/
def endsSign (c : Char) : Bool :=
  c == '*' || Text.isAsciiBlank c

/-- Reads the weight that may follow a section after a colon. It is one if none is given. -/
def readWeight : List Char → Score × List Char
  | ':' :: l => Text.readInteger l
  | l => (1, l)

theorem length_readWeight_le (l : List Char) :
  (readWeight l).2.length ≤ l.length
  := by
  unfold readWeight
  split
  · exact Nat.le_succ_of_le (Text.length_readInteger_le _)
  · exact Nat.le_refl _

/-- The section nearest to a number. -/
def clampSection (n : Nat) : UInt32 :=
  UInt32.ofNat (min n (UInt32.size - 1))

private theorem length_lt_of_readWeight_eq {l rest : List Char}
    (h : (readWeight (Text.readNumber l).2).2 = ',' :: rest) :
  rest.length < l.length
  := by
  have h₁ := length_readWeight_le (Text.readNumber l).2
  have h₂ := Text.length_readNumber_le l
  rw [h, List.length_cons] at h₁
  omega

/-- Reads sections with their weights, separated by commas. A section is not zero. -/
def readWeights (l : List Char) : List (UInt32 × Score) × List Char :=
  if (Text.readNumber l).1 = 0 then ([], l)
  else
    let entry := (clampSection (Text.readNumber l).1, (readWeight (Text.readNumber l).2).1)
    match h : (readWeight (Text.readNumber l).2).2 with
    | ',' :: rest =>
      have := length_lt_of_readWeight_eq h
      let (more, rest) := readWeights rest
      (entry :: more, rest)
    | rest => ([entry], rest)
termination_by l.length

/-- Reads a directive, if one stands at the start of a text. -/
def read? : List Char → Option (Directive × List Char)
  | '*' :: 'E' :: l =>
    let (escalation, rest) := readEscalation l
    some (escalate escalation, rest)
  | '*' :: 'D' :: l =>
    some (defaultOperator (l.takeWhile fun c => !endsSign c), l.dropWhile fun c => !endsSign c)
  | '*' :: 'W' :: l =>
    let (weights, rest) := readWeights l
    some (weigh weights, rest)
  | _ => none

theorem length_readEscalation_le (l : List Char) :
  (readEscalation l).2.length ≤ l.length
  := by
  have h := Text.length_readInteger_le l
  unfold readEscalation
  dsimp only
  split
  · rename_i rest heq
    have h' := Text.length_readInteger_le rest
    rw [heq, List.length_cons] at h
    exact Nat.le_trans h' (Nat.le_of_succ_le h)
  · exact h

theorem length_readWeights_le (l : List Char) :
  (readWeights l).2.length ≤ l.length
  := by
  fun_induction readWeights l with
  | case1 => exact Nat.le_refl _
  | case2 l _ _ rest _ hlt more rest' hmore ih =>
    rw [hmore] at ih
    exact Nat.le_of_lt (Nat.lt_of_le_of_lt ih hlt)
  | case3 l =>
    exact Nat.le_trans (length_readWeight_le _) (Text.length_readNumber_le l)

/-- A directive takes up some of the text. -/
theorem length_lt_of_read? {l rest : List Char} {d : Directive} (h : read? l = some (d, rest)) :
  rest.length < l.length
  := by
  unfold read? at h
  split at h
  · obtain ⟨-, rfl⟩ := Prod.mk.inj (Option.some.inj h)
    exact Nat.lt_succ_of_le (Nat.le_succ_of_le (length_readEscalation_le _))
  · obtain ⟨-, rfl⟩ := Prod.mk.inj (Option.some.inj h)
    exact Nat.lt_succ_of_le (Nat.le_succ_of_le (List.dropWhile_suffix _).length_le)
  · obtain ⟨-, rfl⟩ := Prod.mk.inj (Option.some.inj h)
    exact Nat.lt_succ_of_le (Nat.le_succ_of_le (length_readWeights_le _))
  · cases h

/-! ### What directives say -/

/-- The operator that a sign names. -/
def operator? (sign : List Char) : Option Operator :=
  if sign = ['O', 'R'] then some .or
  else if sign = ['+'] then some .and
  else if sign = ['-'] then some .but
  else if sign = ['>'] then some .adjust
  else none

/-- The directives with one more, which replaces any of its kind. -/
def apply (directives : Directives) : Directive → Directives
  | escalate escalation => { directives with escalation := some escalation }
  | defaultOperator sign =>
    { directives with defaultOperator := (operator? sign).getD directives.defaultOperator }
  | weigh weights => { directives with sectionWeights := .listed (.ofList weights) }

/-- What is remarked about a directive. -/
def remarks : Directive → List Remark
  | defaultOperator sign =>
    if (operator? sign).isNone then [.unknownOperator (String.ofList sign)] else []
  | _ => []

end Directive

/-- Reads the directives at the start of a text. -/
def Directive.readAll (l : List Char) : List Directive × List Char :=
  match h : read? l with
  | none => ([], l)
  | some (directive, rest) =>
    have := length_lt_of_read? h
    let (more, rest) := readAll rest
    (directive :: more, rest)
termination_by l.length

/-- The directives at the start of a text, and what comes after them. -/
def Directives.read (operator : Operator) (l : List Char) : Noted (Directives × List Char) :=
  let (directives, rest) := Directive.readAll l
  { remarks := directives.flatMap Directive.remarks
    value := (directives.foldl Directive.apply (.ofOperator operator), rest) }

end Retrieval
