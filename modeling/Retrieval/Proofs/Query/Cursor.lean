import Retrieval.Proofs.Query.Rest
import Retrieval.Proofs.Text.Place

/-!
# Reading with a cursor

A query can also be read with a cursor, which is a place in its text, a number of bytes from the
start. Directives and ways of matching are read byte by byte and the rest is read character by
character. Such a reader gives nothing if it cuts the text where it cannot be cut, if it takes
from a budget that is spent, or if it goes on for more rounds than the text has characters.
`Follows` says that it does give something, namely what the reader of the characters after the
place gives. Every reader follows one, so a query is read safely from any text, and what is read is
`Query.read`.
-/

namespace Retrieval.Cursor

open Text (At byteAt? dropBytes? sliceBytes? bytesOf charOfByte)

/-- The greatest number that digits are counted up to. -/
def digitLimit : Nat := 2 ^ 63 - 1

/-! ### Numbers -/

section Readers

variable (text : List Char)

/-- How many rounds a reader may go on: one for each character, and one to find the end. -/
def rounds : Nat :=
  text.length + 1

/-- Reads digits after those that have written a number so far. -/
def readDigits : Nat → Nat → Nat → Option (Nat × Nat)
  | 0, _, _ => none
  | k + 1, value, n =>
    match (byteAt? text n).bind fun b => if b.isDigit then some b else none with
    | some b =>
      readDigits k (min (min (10 * value) digitLimit + Text.digitValue b) digitLimit) (n + 1)
    | none => some (value, n)

/-- Reads an integer of 32 bits. -/
def readInteger (n : Nat) : Option (Int32 × Nat) :=
  if byteAt? text n = some '-' then do
    let (magnitude, n) ← readDigits text (rounds text) 0 (n + 1)
    return (Int32.ofIntClamp (-(magnitude : Int)), n)
  else do
    let (magnitude, n) ←
      readDigits text (rounds text) 0 (if byteAt? text n = some '+' then n + 1 else n)
    return (Int32.ofIntClamp magnitude, n)

/-! ### Directives -/

/-- Reads a threshold and, after a comma, a secondary bound. -/
def readEscalation (n : Nat) : Option (Escalation × Nat) := do
  let (threshold, n) ← readInteger text n
  if byteAt? text n = some ',' then
    let (secondary, n) ← readInteger text (n + 1)
    return (⟨threshold, some secondary⟩, n)
  else return (⟨threshold, none⟩, n)

/-- Reads the sign of an operator, up to the byte that ends it. -/
def readSign (n : Nat) : Option (List Char × Nat) := do
  let stop := n + ((bytesOf text).drop n).findIdx fun b => Directive.endsSign (charOfByte b)
  let sign ← sliceBytes? text n stop
  return (sign, stop)

/-- Reads the weight that may follow a section after a colon. -/
def readWeight (n : Nat) : Option (Score × Nat) :=
  if byteAt? text n = some ':' then readInteger text (n + 1) else some (1, n)

/-- Reads sections with their weights. -/
def readWeights : Nat → Nat → Option (List (UInt32 × Score) × Nat)
  | 0, _ => none
  | k + 1, n => do
    let (number, next) ← readDigits text (rounds text) 0 n
    if number = 0 then return ([], n)
    else
      let (weight, next) ← readWeight text next
      let entry := (Directive.clampSection number, weight)
      if byteAt? text next = some ',' then
        let (more, next) ← readWeights k (next + 1)
        return (entry :: more, next)
      else return ([entry], next)

/-- Reads a directive, if one stands at a place. -/
def readDirective? (n : Nat) : Option (Option Directive × Nat) :=
  if byteAt? text n ≠ some '*' then some (none, n)
  else if byteAt? text (n + 1) = some 'E' then do
    let (escalation, n) ← readEscalation text (n + 2)
    return (some (.escalate escalation), n)
  else if byteAt? text (n + 1) = some 'D' then do
    let (sign, n) ← readSign text (n + 2)
    return (some (.defaultOperator sign), n)
  else if byteAt? text (n + 1) = some 'W' then do
    let (weights, n) ← readWeights text (rounds text) (n + 2)
    return (some (.weigh weights), n)
  else some (none, n)

/-- Reads as many directives as there are. -/
def readDirectives : Nat → Nat → Option (List Directive × Nat)
  | 0, _ => none
  | k + 1, n => do
    let (found, n) ← readDirective? text n
    match found with
    | none => return ([], n)
    | some directive =>
      let (more, n) ← readDirectives k n
      return (directive :: more, n)

/-! ### Lexemes -/

/-- Goes on as long as characters are of some kind. -/
def skipWhile (p : Char → Bool) : Nat → Nat → Option Nat
  | 0, _ => none
  | k + 1, n => do
    match ← dropBytes? text n with
    | [] => return n
    | c :: _ => if p c then skipWhile p k (n + c.utf8Size) else return n

/-- Reads the option that may follow the letter of a way of matching. -/
def readMode (choice : ModeChoice) (n : Nat) : Option (Lexeme × Nat) := do
  let (option, next) ← readInteger text n
  if next = n then return (.mode choice, n) else return (.mode { choice with option }, next)

/-- Reads a phrase after its first quote: its text, and whether it has an end quote. -/
def readPhrase : Nat → Nat → Option ((List Char × Bool) × Nat)
  | 0, _ => none
  | k + 1, n => do
    match ← dropBytes? text n with
    | [] => return (([], false), n)
    | c :: _ =>
      let n := n + c.utf8Size
      if c = '"' then return (([], true), n)
      else if c = '\\' then
        match ← dropBytes? text n with
        | [] => return ((['\\'], false), n)
        | d :: _ =>
          let ((phrase, closed), n) ← readPhrase k (n + d.utf8Size)
          return ((d :: phrase, closed), n)
      else
        let ((phrase, closed), n) ← readPhrase k n
        return ((c :: phrase, closed), n)

variable (isSpace : Char → Bool)

/-- Reads the star that marks a phrase. -/
def readMark (n : Nat) : Option (Bool × Nat) := do
  match ← dropBytes? text n with
  | '*' :: l =>
    return if l.head?.all fun c => isSpace c || c == ')' then (true, n + 1) else (false, n)
  | _ => return (false, n)

/-- Reads a phrase and its mark after its first quote. -/
def phraseAfterQuote (n : Nat) : Option (Lexeme × Nat) := do
  let ((phrase, closed), n) ← readPhrase text (rounds text) n
  if closed ∧ phrase ≠ [] then
    let (isPrefix, n) ← readMark text isSpace n
    return (.phrase phrase closed isPrefix, n)
  else return (.phrase phrase closed false, n)

/-- Reads a bare word, of which the first character may be a star. -/
def readWord (n : Nat) : Option (Lexeme × Nat) := do
  let first ← dropBytes? text n
  let stop ← skipWhile text (fun c => !Lexeme.endsWord isSpace c) (rounds text)
    (if first.head? = some '*' then n + 1 else n)
  let word ← sliceBytes? text n stop
  let rest ← dropBytes? text stop
  if rest.head? = some '*' then return (.word word true, stop + 1)
  else if word = ['O', 'R'] then return (.connective .or, stop)
  else return (.word word false, stop)

/-- Reads the lexeme at a place, at which the given character stands. -/
def readLexeme (c : Char) (n : Nat) : Option (Lexeme × Nat) :=
  if c = '*' then
    match (byteAt? text (n + 1)).bind Lexeme.modeLetter? with
    | some choice => readMode text choice (n + 2)
    | none => readWord text isSpace n
  else if c = ')' then some (.closing, n + c.utf8Size)
  else if c = '(' then some (.opening, n + c.utf8Size)
  else if c = '"' then phraseAfterQuote text isSpace (n + c.utf8Size)
  else match Lexeme.connectiveSign? c with
    | some sign => some (.connective sign, n + c.utf8Size)
    | none => readWord text isSpace n

/-! ### Queries -/

/-- What is read between two brackets: the expression, the place after it, the budget that is
left, and whether the query ends there. -/
structure Reading where
  expr : Expr
  place : Nat
  budget : Nat
  halted : Bool

/-- The budget less one, unless it is spent. -/
def spend : Nat → Option Nat
  | 0 => none
  | budget + 1 => some budget

variable (setting : Assembly.Setting)

/-- Reads what comes up to the end of the innermost of so many brackets that are open. -/
def readLevel : Nat → Nat → Level → Nat → Nat → Option (Except Error Reading)
  | 0, _, _, _, _ => none
  | k + 1, depth, level, n, budget => do
    let n ← skipWhile text isSpace (rounds text) n
    let close (n : Nat) (halted : Bool) : Option (Except Error Reading) :=
      return .ok ⟨Operand.fold setting.standard level.operands, n, budget, halted⟩
    let addTerm (word : List Char) (isPrefix isPhrase : Bool) : Level :=
      level.push (.term ⟨String.ofList word, isPrefix, isPhrase, setting.termWeight, level.mode⟩)
    match ← dropBytes? text n with
    | [] => close n false
    | c :: _ =>
      if budget = 0 then close n true
      else
        let (x, n) ← readLexeme text isSpace c n
        match x with
        | .mode choice => readLevel k depth { level with mode := some choice } n budget
        | .connective c => readLevel k depth { level with connective := some c } n budget
        | .closing => close n (depth = 0)
        | .opening =>
          let budget ← spend budget
          match ← readLevel k (depth + 1) .start n budget with
          | .error e => return .error e
          | .ok r =>
            let level := { level with mode := none }.push (.group r.expr)
            if r.halted then
              return .ok { r with expr := Operand.fold setting.standard level.operands }
            else readLevel k depth level r.place r.budget
        | .phrase phrase closed isPrefix =>
          if phrase.isEmpty then readLevel k depth { level with mode := none } n budget
          else
            let budget ← spend budget
            if !closed ∧ budget = 0 then return .error .phraseBeyondBudget
            else readLevel k depth (addTerm phrase isPrefix true) n budget
        | .word word isPrefix =>
          let budget ← spend budget
          readLevel k depth (addTerm word isPrefix false) n budget

end Readers

/-- Reads a text as a query, and gives what was not read beside it. -/
def read (options : ReadOptions) (s : String) : Option (Except Error (Query × String)) :=
  if options.budget = 0 then return .error .noBudget
  else do
    let text := s.toList
    let isSpace := options.encoding.isSpace
    let n ← skipWhile text isSpace (rounds text) 0
    let rest ← dropBytes? text n
    let (found, consumed) ← readDirectives rest (rounds rest) 0
    let directives := found.foldl Directive.apply (.ofOperator options.defaultOperator)
    let setting : Assembly.Setting :=
      { standard := directives.defaultOperator.connective
        termWeight := options.termWeight
        size := Text.byteLength text }
    match ← readLevel text isSpace setting (rounds text) 0 .start (n + consumed)
      options.budget.toNat with
    | .error e => return .error e
    | .ok r =>
      let rest ← dropBytes? text r.place
      return .ok (⟨r.expr, directives, String.ofList rest⟩, String.ofList rest)

/-! ### Readers of characters are followed -/

/-- A reader with a cursor gives what a reader of characters gives: the same value, and the place
at which the characters that are left begin. -/
def Follows {α : Type} (text : List Char) (r : Option (α × Nat)) (v : α × List Char) : Prop :=
  ∃ n, r = some (v.1, n) ∧ At text n v.2

section Proofs

variable {text l rest : List Char} {n : Nat} {α β : Type}

theorem Follows.some {a : α} (h : At text n l) :
  Follows text (some (a, n)) (a, l)
  := ⟨n, rfl, h⟩

/-- Readers one after another follow if each of them does. -/
theorem Follows.bind {r : Option (α × Nat)} {v : α × List Char} {f : α × Nat → Option (β × Nat)}
    {w : β × List Char} (hr : Follows text r v)
    (hf : ∀ n, At text n v.2 → Follows text (f (v.1, n)) w) :
  Follows text (r >>= f) w
  := by
  obtain ⟨n, rfl, hn⟩ := hr
  exact hf n hn

/-- What comes after a place has fewer characters than there may be rounds. -/
theorem length_lt_rounds (h : At text n l) :
  l.length < rounds text
  := by
  apply h.rec_cons (p := fun text _ => l.length < rounds text)
  · apply Nat.lt_succ_self
  · intro c l' k _ ih
    exact Nat.lt_succ_of_lt ih

theorem toNat_lt_of_isDigit {c : Char} (h : c.isDigit = true) :
  c.toNat < 128
  := by
  have hc : c.val.toNat = c.toNat := rfl
  simp only [Char.isDigit, Bool.and_eq_true, decide_eq_true_eq, UInt32.le_iff_toNat_le, hc] at h
  exact Nat.lt_of_le_of_lt h.2 (by decide)

/-- Digits write the number that they do to a reader of characters, or the greatest one. -/
theorem readDigits_follows {k : Nat} (h : At text n l) (hk : l.length < k) (value : Nat) :
  Follows text (readDigits text k (min value digitLimit) n)
    (min ((l.takeWhile Char.isDigit).foldl (fun n c => 10 * n + Text.digitValue c) value)
      digitLimit, l.dropWhile Char.isDigit)
  := by
  have hdigit (c : Char) (hc : 128 ≤ c.toNat) :
      (if c.isDigit then some c else none : Option Char) = none := by
    rw [if_neg]
    intro hdigit
    exact absurd (toNat_lt_of_isDigit hdigit) (Nat.not_lt.mpr hc)
  induction k generalizing l n value with
  | zero => exact absurd hk (Nat.not_lt_zero _)
  | succ k ih =>
    rw [readDigits, h.bind_byteAt? hdigit]
    cases l with
    | nil => exact .some h
    | cons c l =>
      rw [List.head?_cons, Option.bind_some]
      cases hc : c.isDigit with
      | false =>
        simp only [Bool.false_eq_true, if_false, List.takeWhile_cons, List.dropWhile_cons, hc]
        exact .some h
      | true =>
        have hsize := Text.utf8Size_eq_one (toNat_lt_of_isDigit hc)
        have hnext := ih (hsize ▸ h.tail) (Nat.lt_of_succ_lt_succ hk)
          (10 * value + Text.digitValue c)
        have hstep : min (min (10 * min value digitLimit) digitLimit + Text.digitValue c) digitLimit
            = min (10 * value + Text.digitValue c) digitLimit := by omega
        simp only [if_true, List.takeWhile_cons, List.dropWhile_cons, hc, List.foldl_cons, hstep]
        exact hnext

theorem readNumber_follows (h : At text n l) :
  Follows text (readDigits text (rounds text) 0 n)
    (min (Text.readNumber l).1 digitLimit, (Text.readNumber l).2)
  := readDigits_follows h (length_lt_rounds h) 0

/-- The limit of digits lies beyond every integer of 32 bits. -/
theorem ofIntClamp_min (m : Nat) :
  Int32.ofIntClamp (min m digitLimit : Nat) = Int32.ofIntClamp m
    ∧ Int32.ofIntClamp (-(min m digitLimit : Nat) : Int) = Int32.ofIntClamp (-m)
  := by
  by_cases hm : m ≤ digitLimit
  · rw [Nat.min_eq_left hm]
    exact ⟨rfl, rfl⟩
  · rw [Nat.min_eq_right (Nat.le_of_not_le hm)]
    have hlarge : Int32.maxValue.toInt < m := by
      have : Int32.maxValue.toInt < digitLimit := by decide
      omega
    have hsmall : (-m : Int) < Int32.minValue.toInt := by
      have : (-digitLimit : Int) < Int32.minValue.toInt := by decide
      omega
    have hmin : Int32.minValue.toInt < Int32.maxValue.toInt := by decide
    constructor
    · unfold Int32.ofIntClamp
      rw [dif_pos (by decide), dif_neg (by decide), dif_pos (by omega), dif_neg (by omega)]
    · unfold Int32.ofIntClamp
      rw [dif_neg (by decide), dif_neg (by omega)]

theorem head?_ne_of_ne {c : Char} (h : ∀ l', l = c :: l' → False) :
  l.head? ≠ some c
  := by
  intro heq
  obtain ⟨l', hl⟩ := List.head?_eq_some_iff.mp heq
  exact h l' hl

theorem readInteger_follows (h : At text n l) :
  Follows text (readInteger text n) (Text.readInteger l)
  := by
  have hminus := h.byteAt?_eq_iff (b := '-') (by decide)
  have hplus := h.byteAt?_eq_iff (b := '+') (by decide)
  rw [readInteger]
  fun_cases Text.readInteger l with
  | case1 l =>
    rw [if_pos (hminus.mpr rfl)]
    apply (readNumber_follows h.tail).bind
    intro n hn
    rw [← (ofIntClamp_min _).2]
    exact .some hn
  | case2 l =>
    rw [if_neg (mt hminus.mp (by simp)), if_pos (hplus.mpr rfl)]
    apply (readNumber_follows h.tail).bind
    intro n hn
    rw [← (ofIntClamp_min _).1]
    exact .some hn
  | case3 l hnotMinus hnotPlus =>
    rw [if_neg (mt hminus.mp (head?_ne_of_ne hnotMinus)),
      if_neg (mt hplus.mp (head?_ne_of_ne hnotPlus))]
    apply (readNumber_follows h).bind
    intro n hn
    rw [← (ofIntClamp_min _).1]
    exact .some hn

theorem readEscalation_follows (h : At text n l) :
  Follows text (readEscalation text n) (Directive.readEscalation l)
  := by
  rw [readEscalation]
  apply (readInteger_follows h).bind
  intro n hn
  dsimp only
  have hcomma := hn.byteAt?_eq_iff (b := ',') (by decide)
  fun_cases Directive.readEscalation l with
  | case1 threshold rest secondary rest' hafter hread =>
    rw [hread] at hn hcomma ⊢
    rw [if_pos (hcomma.mpr rfl)]
    apply (readInteger_follows hn.tail).bind
    intro n hn
    rw [hafter] at hn ⊢
    exact .some hn
  | case2 threshold rest hnotComma hread =>
    rw [hread] at hn hcomma ⊢
    rw [if_neg (mt hcomma.mp (head?_ne_of_ne hnotComma))]
    exact .some hn

theorem readSign_follows (h : At text n l) :
  Follows text (readSign text n)
    (l.takeWhile fun c => !Directive.endsSign c, l.dropWhile fun c => !Directive.endsSign c)
  := by
  have hends (c : Char) (hc : Directive.endsSign c = true) : c.toNat < 128 := by
    simp only [Directive.endsSign, Text.isAsciiBlank, Bool.or_eq_true, beq_iff_eq] at hc
    rcases hc with rfl | (((rfl | rfl) | rfl) | rfl) | rfl <;> decide
  have hstop := Text.findIdx_bytesOf hends l
  have hl := List.takeWhile_append_dropWhile (p := fun c => !Directive.endsSign c) (l := l)
  rw [← hl] at h
  rw [readSign, h.drop_bytesOf, hl, hstop, Text.sliceBytes?_append h]
  exact .some h.append

theorem readWeight_follows (h : At text n l) :
  Follows text (readWeight text n) (Directive.readWeight l)
  := by
  have hcolon := h.byteAt?_eq_iff (b := ':') (by decide)
  rw [readWeight]
  fun_cases Directive.readWeight l with
  | case1 l =>
    rw [if_pos (hcolon.mpr rfl)]
    exact readInteger_follows h.tail
  | case2 l hnotColon =>
    rw [if_neg (mt hcolon.mp (head?_ne_of_ne hnotColon))]
    exact .some h

/-- The limit of digits lies beyond every section. -/
theorem clampSection_min (m : Nat) :
  Directive.clampSection (min m digitLimit) = Directive.clampSection m
  := by
  have hlimit : UInt32.size - 1 ≤ digitLimit := by decide
  rw [Directive.clampSection, Directive.clampSection, Nat.min_assoc, Nat.min_eq_right hlimit]

theorem readWeights_follows {k : Nat} (h : At text n l) (hk : l.length < k) :
  Follows text (readWeights text k n) (Directive.readWeights l)
  := by
  have hpositive : digitLimit ≠ 0 := by decide
  induction k generalizing l n with
  | zero => exact absurd hk (Nat.not_lt_zero _)
  | succ k ih =>
    rw [readWeights]
    apply (readNumber_follows h).bind
    intro m hm
    dsimp only
    fun_cases Directive.readWeights l with
    | case1 hzero =>
      rw [if_pos (by omega)]
      exact .some h
    | case2 hzero entry rest heq hlt more rest' hmore =>
      rw [if_neg (by omega), clampSection_min]
      apply (readWeight_follows hm).bind
      intro m hm
      rw [heq] at hm
      have hcomma := hm.byteAt?_eq_iff (b := ',') (by decide)
      dsimp only
      rw [if_pos (hcomma.mpr rfl)]
      apply (ih hm.tail (Nat.lt_of_lt_of_le hlt (Nat.le_of_lt_succ hk))).bind
      intro m hm
      rw [hmore] at hm ⊢
      exact .some hm
    | case3 hzero entry hnotComma =>
      rw [if_neg (by omega), clampSection_min]
      apply (readWeight_follows hm).bind
      intro m hm
      have hcomma := hm.byteAt?_eq_iff (b := ',') (by decide)
      dsimp only
      rw [if_neg (mt hcomma.mp (head?_ne_of_ne hnotComma))]
      exact .some hm

/-- A directive is read if one stands at a place, and the place is kept otherwise. -/
theorem readDirective?_follows (h : At text n l) :
  Follows text (readDirective? text n)
    (((Directive.read? l).map fun (d, rest) => (some d, rest)).getD (none, l))
  := by
  have hstar := h.byteAt?_eq_iff (b := '*') (by decide)
  rw [readDirective?]
  fun_cases Directive.read? l with
  | case1 l escalation rest hread =>
    have h₁ : At text (n + 1) ('E' :: l) := h.tail
    have hE := h₁.byteAt?_eq_iff (b := 'E') (by decide)
    rw [if_neg (not_not_intro (hstar.mpr rfl)), if_pos (hE.mpr rfl)]
    apply (readEscalation_follows h₁.tail).bind
    intro n hn
    rw [hread] at hn ⊢
    exact .some hn
  | case2 l =>
    have h₁ : At text (n + 1) ('D' :: l) := h.tail
    have hE := h₁.byteAt?_eq_iff (b := 'E') (by decide)
    have hD := h₁.byteAt?_eq_iff (b := 'D') (by decide)
    rw [if_neg (not_not_intro (hstar.mpr rfl)), if_neg (mt hE.mp (by simp)), if_pos (hD.mpr rfl)]
    exact (readSign_follows h₁.tail).bind fun n hn => .some hn
  | case3 l weights rest hread =>
    have h₁ : At text (n + 1) ('W' :: l) := h.tail
    have hE := h₁.byteAt?_eq_iff (b := 'E') (by decide)
    have hD := h₁.byteAt?_eq_iff (b := 'D') (by decide)
    have hW := h₁.byteAt?_eq_iff (b := 'W') (by decide)
    rw [if_neg (not_not_intro (hstar.mpr rfl)), if_neg (mt hE.mp (by simp)),
      if_neg (mt hD.mp (by simp)), if_pos (hW.mpr rfl)]
    apply (readWeights_follows h₁.tail (length_lt_rounds h₁.tail)).bind
    intro n hn
    rw [hread] at hn ⊢
    exact .some hn
  | case4 l hnotE hnotD hnotW =>
    by_cases hl : l.head? = some '*'
    · obtain ⟨l, rfl⟩ := List.head?_eq_some_iff.mp hl
      have h₁ : At text (n + 1) l := h.tail
      have hne {c : Char} (hc : ∀ l', '*' :: l = '*' :: c :: l' → False) (hb : c.toNat < 128) :
          byteAt? text (n + 1) ≠ some c := by
        refine mt (h₁.byteAt?_eq_iff hb).mp (head?_ne_of_ne fun l' heq => ?_)
        exact hc l' (heq ▸ rfl)
      rw [if_neg (not_not_intro (hstar.mpr rfl)), if_neg (hne hnotE (by decide)),
        if_neg (hne hnotD (by decide)), if_neg (hne hnotW (by decide))]
      exact .some h
    · rw [if_pos (mt hstar.mp hl)]
      exact .some h

theorem readDirectives_follows {k : Nat} (h : At text n l) (hk : l.length < k) :
  Follows text (readDirectives text k n) (Directive.readAll l)
  := by
  induction k generalizing l n with
  | zero => exact absurd hk (Nat.not_lt_zero _)
  | succ k ih =>
    have hfirst := readDirective?_follows h
    rw [readDirectives]
    fun_cases Directive.readAll l with
    | case1 hnone =>
      rw [hnone] at hfirst
      exact hfirst.bind fun n hn => .some hn
    | case2 d rest hread hlt more rest' hmore =>
      rw [hread, Option.map_some, Option.getD_some] at hfirst
      apply hfirst.bind
      intro n hn
      apply (ih hn (Nat.lt_of_lt_of_le hlt (Nat.le_of_lt_succ hk))).bind
      intro n hn
      rw [hmore] at hn ⊢
      exact .some hn

/-- Where a text can be cut, a reader goes on with what comes after the place. -/
theorem bind_dropBytes? (h : At text n l) (f : List Char → Option β) :
  (dropBytes? text n >>= f) = f l
  := by
  rw [h]
  rfl

theorem skipWhile_eq {k : Nat} (p : Char → Bool) (h : At text n l) (hk : l.length < k) :
  skipWhile text p k n = some (n + Text.byteLength (l.takeWhile p))
  := by
  induction k generalizing l n with
  | zero => exact absurd hk (Nat.not_lt_zero _)
  | succ k ih =>
    rw [skipWhile, bind_dropBytes? h]
    cases l with
    | nil => rfl
    | cons c l =>
      rw [List.takeWhile_cons]
      dsimp only
      cases hc : p c with
      | false => rfl
      | true =>
        rw [if_pos rfl, if_pos rfl, ih h.tail (Nat.lt_of_succ_lt_succ hk), Text.byteLength_cons,
          Nat.add_assoc]

theorem at_dropWhile (p : Char → Bool) (h : At text n l) :
  At text (n + Text.byteLength (l.takeWhile p)) (l.dropWhile p)
  := by
  rw [← List.takeWhile_append_dropWhile (p := p) (l := l)] at h
  exact h.append

/-- The cursor goes on exactly if the characters become fewer. -/
theorem place_eq_iff {m : Nat} (h : At text n l) (h' : At text m rest) (hsuffix : rest <:+ l) :
  m = n ↔ rest.length = l.length
  := by
  have hn := h.place
  have hm := h'.place
  constructor
  · rintro rfl
    rw [At, h] at h'
    rw [Option.some.inj h']
  · intro hlength
    rw [hsuffix.eq_of_length hlength] at hm
    omega

theorem readMode_follows (choice : ModeChoice) (h : At text n l) :
  Follows text (readMode text choice n) (Lexeme.readMode choice l)
  := by
  rw [readMode]
  apply (readInteger_follows h).bind
  intro m hm
  have hstays := place_eq_iff h hm (Text.readInteger_suffix l)
  dsimp only
  rw [Lexeme.readMode]
  dsimp only
  by_cases hm' : m = n
  · rw [if_pos hm', if_pos (hstays.mp hm')]
    exact .some h
  · rw [if_neg hm', if_neg (mt hstays.mpr hm')]
    exact .some hm

theorem readPhrase_follows {k : Nat} (h : At text n l) (hk : l.length < k) :
  Follows text (readPhrase text k n)
    (((Lexeme.readPhrase l).1, (Lexeme.readPhrase l).2.1), (Lexeme.readPhrase l).2.2)
  := by
  induction k generalizing l n with
  | zero => exact absurd hk (Nat.not_lt_zero _)
  | succ k ih =>
    rw [readPhrase, bind_dropBytes? h]
    fun_cases Lexeme.readPhrase l with
    | case1 => exact .some h
    | case2 l => exact .some h.tail
    | case3 =>
      dsimp only
      rw [if_neg (by decide), if_pos rfl, bind_dropBytes? h.tail]
      exact .some h.tail
    | case4 c l phrase closed rest hread =>
      dsimp only
      rw [if_neg (by decide), if_pos rfl, bind_dropBytes? h.tail]
      apply (ih h.tail.tail (Nat.lt_of_succ_lt (Nat.lt_of_succ_lt_succ hk))).bind
      intro n hn
      rw [hread] at hn ⊢
      exact .some hn
    | case5 c l hquote hlast hescape phrase closed rest hread =>
      have hbackslash : c ≠ '\\' := by
        rintro rfl
        cases l with
        | nil => exact hlast rfl rfl
        | cons d l => exact hescape d l rfl rfl
      dsimp only
      rw [if_neg hquote, if_neg hbackslash]
      apply (ih h.tail (Nat.lt_of_succ_lt_succ hk)).bind
      intro n hn
      rw [hread] at hn ⊢
      exact .some hn

variable (isSpace : Char → Bool)

theorem readMark_follows (h : At text n l) :
  Follows text (readMark text isSpace n) (Lexeme.readMark isSpace l)
  := by
  rw [readMark, bind_dropBytes? h]
  fun_cases Lexeme.readMark isSpace l with
  | case1 l hends =>
    simp only [if_pos hends]
    exact .some h.tail
  | case2 l hends =>
    simp only [if_neg hends]
    exact .some h
  | case3 l hnotStar =>
    split
    · exact absurd rfl (hnotStar _)
    · exact .some h

theorem phraseAfterQuote_follows (h : At text n l) :
  Follows text (phraseAfterQuote text isSpace n) (Lexeme.phraseAfterQuote isSpace l)
  := by
  rw [phraseAfterQuote]
  apply (readPhrase_follows h (length_lt_rounds h)).bind
  intro n hn
  dsimp only
  rw [Lexeme.phraseAfterQuote]
  dsimp only
  split
  · exact (readMark_follows isSpace hn).bind fun n hn => .some hn
  · exact .some hn

theorem readWord_follows {c : Char} (h : At text n (c :: l))
    (hc : c = '*' ∨ Lexeme.endsWord isSpace c = false) :
  Follows text (readWord text isSpace n) (Lexeme.readWord isSpace c l)
  := by
  obtain ⟨word, hw⟩ : ∃ word, word = l.takeWhile fun c => !Lexeme.endsWord isSpace c := ⟨_, rfl⟩
  obtain ⟨after, ha⟩ : ∃ after, after = l.dropWhile fun c => !Lexeme.endsWord isSpace c := ⟨_, rfl⟩
  have hword : At text n ((c :: word) ++ after) := by
    rwa [hw, ha, List.cons_append, List.takeWhile_append_dropWhile]
  have hskip : skipWhile text (fun c => !Lexeme.endsWord isSpace c) (rounds text)
      (if (c :: l).head? = some '*' then n + 1 else n)
      = some (n + Text.byteLength (c :: word)) := by
    by_cases hstar : c = '*'
    · subst hstar
      have htail : At text (n + 1) l := h.tail
      rw [List.head?_cons, if_pos rfl, skipWhile_eq _ htail (length_lt_rounds htail), hw,
        Text.byteLength_cons, ← Nat.add_assoc]
      rfl
    · rw [List.head?_cons, if_neg (by simpa using hstar), skipWhile_eq _ h (length_lt_rounds h),
        List.takeWhile_cons,
        hc.resolve_left hstar, hw]
      rfl
  rw [readWord, bind_dropBytes? h, hskip]
  simp only [Option.bind_eq_bind, Option.bind_some, Text.sliceBytes?_append hword]
  rw [← Option.bind_eq_bind, bind_dropBytes? hword.append, Lexeme.readWord, ← hw, ← ha]
  by_cases hstar : after.head? = some '*'
  · obtain ⟨rest, rfl⟩ := List.head?_eq_some_iff.mp hstar
    rw [if_pos hstar]
    exact .some hword.append.tail
  · have hfinish : Lexeme.finishWord (c :: word) after
        = (if c :: word = ['O', 'R'] then .connective .or else .word (c :: word) false, after) := by
      unfold Lexeme.finishWord
      split
      · exact absurd rfl hstar
      · rfl
    rw [if_neg hstar, hfinish]
    split
    · exact .some hword.append
    · exact .some hword.append

/-- The letters of ways of matching are in ASCII. -/
theorem modeLetter?_of_le {c : Char} (hc : 128 ≤ c.toNat) :
  Lexeme.modeLetter? c = none
  := by
  unfold Lexeme.modeLetter?
  split
  · exact absurd hc (by decide)
  · exact absurd hc (by decide)
  · exact absurd hc (by decide)
  · exact absurd hc (by decide)
  · rfl

theorem readLexeme_follows {c : Char} (h : At text n (c :: l)) (hc : isSpace c = false) :
  Follows text (readLexeme text isSpace c n) (Lexeme.read isSpace c l)
  := by
  rw [readLexeme]
  fun_cases Lexeme.read isSpace c l with
  | case1 l =>
    rw [if_neg (by decide), if_pos rfl]
    exact .some h.tail
  | case2 l =>
    rw [if_neg (by decide), if_neg (by decide), if_pos rfl]
    exact .some h.tail
  | case3 l =>
    rw [if_neg (by decide), if_neg (by decide), if_neg (by decide), if_pos rfl]
    exact phraseAfterQuote_follows isSpace h.tail
  | case4 letter rest choice hchoice =>
    have hletter : At text (n + 1) (letter :: rest) := h.tail
    have hsize : letter.utf8Size = 1 := by
      apply Text.utf8Size_eq_one
      rw [← Nat.not_le]
      intro hwide
      rw [modeLetter?_of_le hwide] at hchoice
      cases hchoice
    rw [if_pos rfl, hletter.bind_byteAt? fun _ => modeLetter?_of_le, List.head?_cons,
      Option.bind_some, hchoice]
    apply readMode_follows
    have hrest := hletter.tail
    rwa [hsize] at hrest
  | case5 letter rest hchoice =>
    have hletter : At text (n + 1) (letter :: rest) := h.tail
    rw [if_pos rfl, hletter.bind_byteAt? fun _ => modeLetter?_of_le, List.head?_cons,
      Option.bind_some, hchoice]
    exact readWord_follows isSpace h (.inl rfl)
  | case6 c l hclosing hopening hquote _ sign hsign =>
    have hstar : c ≠ '*' := by
      rintro rfl
      cases hsign
    rw [if_neg hstar, if_neg hclosing, if_neg hopening, if_neg hquote, hsign]
    exact .some h.tail
  | case7 c l hclosing hopening hquote hmode hsign =>
    by_cases hstar : c = '*'
    · subst hstar
      have hend : l = [] := by
        cases l with
        | nil => rfl
        | cons letter rest => exact (hmode letter rest rfl rfl).elim
      subst hend
      have hnext : At text (n + 1) [] := h.tail
      rw [if_pos rfl, hnext.bind_byteAt? fun _ => modeLetter?_of_le]
      exact readWord_follows isSpace h (.inl rfl)
    · rw [if_neg hstar, if_neg hclosing, if_neg hopening, if_neg hquote, hsign]
      apply readWord_follows isSpace h
      right
      rw [Lexeme.endsWord, hc, beq_eq_false_iff_ne.mpr hclosing, beq_eq_false_iff_ne.mpr hstar]
      rfl

/-! ### Levels -/

variable (setting : Assembly.Setting)

/-- What a query comes to once a level in it has been read: the levels around it go on after it,
or are closed where the query ends. -/
def resume (outer : List Level) (r : Reading) (rest : List Char) :
    Except Error (Expr × List Char) :=
  match outer with
  | [] => .ok (r.expr, rest)
  | level :: outer =>
    let level := level.push (.group r.expr)
    if r.halted then .ok ((Assembly.collapse setting.standard level outer).value, rest)
    else ((⟨level, outer, r.budget⟩ : Assembly).run setting (lexemes isSpace rest)).value

/-- A level that is read from a text with the cursor agrees with what a run over its lexemes comes
to. -/
def Agrees (text l : List Char) (outer : List Level) (r : Option (Except Error Reading))
    (v : Except Error (Expr × List Char)) : Prop :=
  (∃ e, r = some (.error e) ∧ v = .error e)
    ∨ ∃ reading rest, r = some (.ok reading) ∧ At text reading.place rest
      ∧ rest.length ≤ l.length ∧ v = resume isSpace setting outer reading rest

theorem Agrees.mono {l' : List Char} {outer : List Level} {r : Option (Except Error Reading)}
    {v : Except Error (Expr × List Char)} (h : Agrees isSpace setting text l outer r v)
    (hl : l.length ≤ l'.length) :
  Agrees isSpace setting text l' outer r v
  := by
  rcases h with h | ⟨reading, rest, hr, hat, hlength, hv⟩
  · exact .inl h
  · exact .inr ⟨reading, rest, hr, hat, Nat.le_trans hlength hl, hv⟩

/-- Where a query ends all its levels are closed. -/
theorem finish_eq_resume (level : Level) (outer : List Level) (budget place : Nat)
    (rest : List Char) :
  (.ok (((⟨level, outer, budget⟩ : Assembly).finish setting).value, rest) :
      Except Error (Expr × List Char))
    = resume isSpace setting outer
      ⟨Operand.fold setting.standard level.operands, place, budget, true⟩ rest
  := by
  cases outer <;> rfl

theorem lexemes_nil :
  lexemes isSpace [] = []
  := by
  rw [lexemes_eq]
  rfl

/-- Every level is read as the lexemes in it tell. A bracket that opens takes two steps: to the
level inside, and from where that one ends on with the level around it. -/
theorem readLevel_agrees {k : Nat} {level : Level} {outer : List Level} {budget : Nat}
    (h : At text n l) (hk : l.length < k) :
  Agrees isSpace setting text l outer
    (readLevel text isSpace setting k outer.length level n budget)
    ((⟨level, outer, budget⟩ : Assembly).run setting (lexemes isSpace l)).value
  := by
  induction k generalizing l n level outer budget with
  | zero => exact absurd hk (Nat.not_lt_zero _)
  | succ k ih =>
    have hat := at_dropWhile isSpace h
    rw [readLevel, skipWhile_eq isSpace h (length_lt_rounds h)]
    simp only [Option.bind_eq_bind, Option.bind_some]
    rw [← Option.bind_eq_bind, bind_dropBytes? hat]
    cases hl : l.dropWhile isSpace with
    | nil =>
      rw [hl] at hat
      rw [lexemes_eq, hl]
      refine .inr ⟨_, [], rfl, hat, Nat.zero_le _, ?_⟩
      cases outer with
      | nil => rfl
      | cons level' outer =>
        rw [resume, if_neg Bool.false_ne_true, lexemes_nil]
        rfl
    | cons c l' =>
      have hc : isSpace c = false := by
        have hhead := List.head?_dropWhile_not isSpace l
        rwa [hl] at hhead
      have hsource : (c :: l').length ≤ l.length := by
        rw [← hl]
        exact (List.dropWhile_suffix isSpace).length_le
      have hread := Lexeme.length_read_le isSpace c l'
      rw [hl] at hat
      obtain ⟨m, hm, hrest⟩ := readLexeme_follows isSpace hat hc
      rw [lexemes_of_dropWhile hl, Assembly.value_run_cons]
      dsimp only
      by_cases hbudget : budget = 0
      · rw [if_pos hbudget, if_pos hbudget]
        exact .inr ⟨_, c :: l', rfl, hat, hsource, finish_eq_resume ..⟩
      · rw [if_neg hbudget, if_neg hbudget, hm]
        generalize hx : Lexeme.read isSpace c l' = x at *
        obtain ⟨x, rest⟩ := x
        have hlt : rest.length < l.length := Nat.lt_of_lt_of_le (Nat.lt_succ_of_le hread) hsource
        have hrounds : rest.length < k := Nat.lt_of_lt_of_le hlt (Nat.le_of_lt_succ hk)
        have next (level : Level) (budget : Nat) : Agrees isSpace setting text l outer
            (readLevel text isSpace setting k outer.length level m budget)
            ((⟨level, outer, budget⟩ : Assembly).run setting (lexemes isSpace rest)).value :=
          (ih hrest hrounds).mono isSpace setting (Nat.le_of_lt hlt)
        simp only [Option.bind_some]
        cases x with
        | mode choice => exact next _ _
        | connective sign => exact next _ _
        | closing =>
          cases outer with
          | nil => exact .inr ⟨_, rest, rfl, hrest, Nat.le_of_lt hlt, rfl⟩
          | cons level' outer => exact .inr ⟨_, rest, rfl, hrest, Nat.le_of_lt hlt, rfl⟩
        | opening =>
          obtain ⟨b, rfl⟩ := Nat.exists_eq_succ_of_ne_zero hbudget
          have hinner : Agrees isSpace setting text rest ({ level with mode := none } :: outer)
              (readLevel text isSpace setting k (outer.length + 1) .start m b)
              ((⟨.start, { level with mode := none } :: outer, b⟩ : Assembly).run setting
                (lexemes isSpace rest)).value := ih hrest hrounds
          simp only [spend, Option.bind_some, Assembly.step, Assembly.openLevel, Nat.succ_sub_one]
          rcases hinner with ⟨e, hr, hv⟩ | ⟨⟨e, place, b', halted⟩, rest', hr, hat', hle, hv⟩
          · rw [hr]
            exact .inl ⟨e, rfl, hv⟩
          · rw [hr, hv]
            cases halted with
            | true =>
              exact .inr ⟨_, rest', rfl, hat', Nat.le_trans hle (Nat.le_of_lt hlt),
                finish_eq_resume ..⟩
            | false =>
              exact (ih hat' (Nat.lt_of_le_of_lt hle hrounds)).mono isSpace setting
                (Nat.le_trans hle (Nat.le_of_lt hlt))
        | phrase phrase closed isPrefix =>
          obtain ⟨b, rfl⟩ := Nat.exists_eq_succ_of_ne_zero hbudget
          simp only [spend, Option.bind_some, Assembly.step, Assembly.addPhrase]
          by_cases hphrase : phrase.isEmpty = true
          · rw [if_pos hphrase, if_pos hphrase]
            exact next _ _
          rw [if_neg hphrase, if_neg hphrase]
          cases closed with
          | true => exact next _ _
          | false =>
            cases b with
            | zero => exact .inl ⟨_, rfl, rfl⟩
            | succ b => exact next _ _
        | word word isPrefix =>
          obtain ⟨b, rfl⟩ := Nat.exists_eq_succ_of_ne_zero hbudget
          exact next _ _

end Proofs

/-! ### Queries -/

/-- A query is read with a cursor from every text, and is the query that is read from its
characters. -/
theorem read_eq (options : ReadOptions) (s : String) :
  read options s = some ((Query.read options s).value.map fun q => (q, q.rest))
  := by
  rw [read, Query.read, Query.readChars]
  split
  · rfl
  · dsimp only
    generalize options.encoding.isSpace = isSpace
    have hblank := at_dropWhile isSpace (At.start s.toList)
    have hdirectives := At.start (s.toList.dropWhile isSpace)
    obtain ⟨m, hm, hbody⟩ :=
      readDirectives_follows hdirectives (length_lt_rounds hdirectives)
    have hstart := At.start s.toList
    rw [skipWhile_eq _ hstart (length_lt_rounds hstart), Option.bind_eq_bind, Option.bind_some,
      bind_dropBytes? hblank, hm, Option.bind_eq_bind, Option.bind_some, Directives.read]
    dsimp only
    generalize hdirectives : List.foldl Directive.apply _ _ = directives
    generalize hsetting : Assembly.Setting.mk _ _ _ = setting
    have hlevel : Agrees isSpace setting s.toList _ []
        (readLevel s.toList isSpace setting (rounds s.toList) 0 .start _ options.budget.toNat)
        ((Assembly.start options.budget.toNat).run setting (lexemes isSpace _)).value :=
      readLevel_agrees isSpace setting (hblank.trans hbody)
        (length_lt_rounds (hblank.trans hbody))
    rcases hlevel with ⟨e, hr, hv⟩ | ⟨reading, rest, hr, hat, -, hv⟩
    · rw [hr, hv]
      rfl
    · rw [hr, hv, Option.bind_eq_bind, Option.bind_some]
      dsimp only
      rw [bind_dropBytes? hat]
      rfl

/-- From every text a query is read without cutting the text where it cannot be cut, without taking
from a budget that is spent, and in no more rounds than there are characters, unless the text or the
options are at fault. What was not read is the end of the text, and the query holds no more terms
and groups than it may. -/
theorem read_safe (options : ReadOptions) (s : String) :
  ∃ result, read options s = some result
    ∧ (Query.read options s).value = result.map Prod.fst
    ∧ match result with
      | .error e => e.category = .invalidArgument
      | .ok (q, rest) =>
        rest = q.rest ∧ rest.toList <:+ s.toList ∧ q.root.size ≤ options.budget.toNat
  := by
  refine ⟨_, read_eq options s, ?_⟩
  cases hread : (Query.read options s).value with
  | error e => exact ⟨rfl, Query.category_of_read hread⟩
  | ok q => exact ⟨rfl, rfl, (Query.rest_read hread).1, Query.size_root_le hread⟩

end Retrieval.Cursor
