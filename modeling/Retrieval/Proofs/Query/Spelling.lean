import Retrieval.Proofs.Query.Directives

/-!
# How directives are spelled

What a directive is read from is spelled by a grammar: numbers may lack their digits, a list of
weights may end with a comma, and the sign of an operator may be anything up to a star or a blank.
Each reader takes up the longest text that its part of the grammar spells, and so do all of them
together. Since stars stand at the beginning of directives only, there is one way to split what was
taken up into directives. It is made of directives that mean something just if every sign names an
operator. What any other sign takes up is lost.
-/

namespace Retrieval

/-- A reader takes up a text that spells what it reads, and no less than any such text that stands
there. -/
structure ReadsLongest {α : Type} (Spells : α → List Char → Prop)
    (f : List Char → α × List Char) : Prop where
  spelled : ∀ l, ∃ span, l = span ++ (f l).2 ∧ Spells (f l).1 span
  longest : ∀ {x span}, Spells x span → ∀ rest, (f (span ++ rest)).2 <:+ rest

/-! ### Numbers -/

namespace Text

/-- Digits, which may be absent, after a sign, which may be absent, spell the nearest integer of
32 bits. -/
inductive SpellsInteger : Int32 → List Char → Prop where
  | plain {digits : List Char} (h : ∀ c ∈ digits, c.isDigit = true) :
    SpellsInteger (Int32.ofIntClamp (valueOf digits)) digits
  | plus {digits : List Char} (h : ∀ c ∈ digits, c.isDigit = true) :
    SpellsInteger (Int32.ofIntClamp (valueOf digits)) ('+' :: digits)
  | minus {digits : List Char} (h : ∀ c ∈ digits, c.isDigit = true) :
    SpellsInteger (Int32.ofIntClamp (-(valueOf digits : Int))) ('-' :: digits)

/-- The digits at the start of a text. -/
theorem eq_append_readNumber (l : List Char) :
  ∃ digits, l = digits ++ (readNumber l).2 ∧ (∀ c ∈ digits, c.isDigit = true)
    ∧ (readNumber l).1 = valueOf digits
  := by
  use l.takeWhile Char.isDigit
  constructor
  · exact List.takeWhile_append_dropWhile.symm
  · use fun c hc => List.mem_takeWhile_imp hc
    rfl

variable {digits : List Char} (h : ∀ c ∈ digits, c.isDigit = true)

include h

theorem readNumber_append_suffix (rest : List Char) :
  (readNumber (digits ++ rest)).2 <:+ rest
  := by
  rw [readNumber, List.dropWhile_append_of_pos h]
  apply List.dropWhile_suffix

/-- More digits write a number that is no smaller. -/
theorem valueOf_le_readNumber_append (rest : List Char) :
  valueOf digits ≤ (readNumber (digits ++ rest)).1
  := by
  rw [readNumber, List.takeWhile_append_of_pos h]
  apply valueOf_le_append

theorem readNumber_append_cons {c : Char} (hc : c.isDigit = false) (rest : List Char) :
  (readNumber (digits ++ c :: rest)).2 = c :: rest
  := (takeWhile_append_of_stops h (by simpa using hc)).2

omit h

theorem readsLongest_readInteger :
  ReadsLongest SpellsInteger readInteger
  := by
  constructor
  · intro l
    rw [readInteger.eq_def]
    split
    · rename_i l
      obtain ⟨digits, hl, hdigits, hvalue⟩ := eq_append_readNumber l
      use '-' :: digits
      rw [hvalue, List.cons_append, ← hl]
      use rfl, .minus hdigits
    · rename_i l
      obtain ⟨digits, hl, hdigits, hvalue⟩ := eq_append_readNumber l
      use '+' :: digits
      rw [hvalue, List.cons_append, ← hl]
      use rfl, .plus hdigits
    · obtain ⟨digits, hl, hdigits, hvalue⟩ := eq_append_readNumber l
      use digits, hl
      rw [hvalue]
      exact .plain hdigits
  · intro n span hspan rest
    cases hspan with
    | plain h =>
      cases span with
      | nil => apply readInteger_suffix
      | cons c digits =>
        have hc : c.isDigit = true := h c List.mem_cons_self
        rw [List.cons_append, readInteger_of_isDigit hc]
        apply readNumber_append_suffix h
    | plus h => apply readNumber_append_suffix h
    | minus h => apply readNumber_append_suffix h

/-- An integer ends at a comma. -/
theorem SpellsInteger.readInteger_comma {n : Int32} {span : List Char} (h : SpellsInteger n span)
    (rest : List Char) :
  (readInteger (span ++ ',' :: rest)).2 = ',' :: rest
  := by
  have hcomma : (',').isDigit = false := rfl
  cases h with
  | plain h =>
    cases span with
    | nil =>
      rw [List.nil_append, readInteger_of_ne (by decide) (by decide)]
      exact readNumber_append_cons h hcomma rest
    | cons c digits =>
      have hc : c.isDigit = true := h c List.mem_cons_self
      rw [List.cons_append, readInteger_of_isDigit hc]
      apply readNumber_append_cons h hcomma
  | plus h => apply readNumber_append_cons h hcomma
  | minus h => apply readNumber_append_cons h hcomma

theorem SpellsInteger.star_notMem {n : Int32} {span : List Char} (h : SpellsInteger n span) :
  '*' ∉ span
  := by
  have hdigits {digits : List Char} (h : ∀ c ∈ digits, c.isDigit = true) : '*' ∉ digits :=
    fun hstar => nomatch h '*' hstar
  cases h with
  | plain h => apply hdigits h
  | plus h => simp [hdigits h]
  | minus h => simp [hdigits h]

end Text

/-! ### One directive -/

namespace Directive

/-- A threshold, and after a comma a secondary bound. -/
inductive SpellsEscalation : Escalation → List Char → Prop where
  | threshold {n : Int32} {span : List Char} (h : Text.SpellsInteger n span) :
    SpellsEscalation ⟨n, none⟩ span
  | secondary {n m : Int32} {span span' : List Char} (h : Text.SpellsInteger n span)
    (h' : Text.SpellsInteger m span') :
    SpellsEscalation ⟨n, some m⟩ (span ++ ',' :: span')

/-- The weight that is given after a colon, or one. -/
inductive SpellsWeight : Score → List Char → Prop where
  | one : SpellsWeight 1 []
  | given {weight : Score} {span : List Char} (h : Text.SpellsInteger weight span) :
    SpellsWeight weight (':' :: span)

/-- A section that is not zero, with its weight. -/
inductive SpellsEntry : UInt32 × Score → List Char → Prop where
  | mk {digits span : List Char} {weight : Score} (h : ∀ c ∈ digits, c.isDigit = true)
    (hne : Text.valueOf digits ≠ 0) (hweight : SpellsWeight weight span) :
    SpellsEntry (clampSection (Text.valueOf digits), weight) (digits ++ span)

/-- Entries with commas between them, where a comma may also come after the last one. -/
inductive SpellsWeights : List (UInt32 × Score) → List Char → Prop where
  | nil : SpellsWeights [] []
  | last {e : UInt32 × Score} {span : List Char} (h : SpellsEntry e span) : SpellsWeights [e] span
  | more {e : UInt32 × Score} {ws : List (UInt32 × Score)} {span span' : List Char}
    (h : SpellsEntry e span) (h' : SpellsWeights ws span') :
    SpellsWeights (e :: ws) (span ++ ',' :: span')

/-- What a directive is spelled by. -/
inductive Spells : Directive → List Char → Prop where
  | escalate {e : Escalation} {span : List Char} (h : SpellsEscalation e span) :
    Spells (.escalate e) ('*' :: 'E' :: span)
  | defaultOperator {sign : List Char} (h : ∀ c ∈ sign, endsSign c = false) :
    Spells (.defaultOperator sign) ('*' :: 'D' :: sign)
  | weigh {ws : List (UInt32 × Score)} {span : List Char} (h : SpellsWeights ws span) :
    Spells (.weigh ws) ('*' :: 'W' :: span)

theorem readsLongest_readEscalation :
  ReadsLongest SpellsEscalation readEscalation
  := by
  constructor
  · intro l
    obtain ⟨span, hl, hspan⟩ := Text.readsLongest_readInteger.spelled l
    rw [readEscalation]
    dsimp only
    split
    · rename_i rest hrest
      obtain ⟨span', hrest', hspan'⟩ := Text.readsLongest_readInteger.spelled rest
      use span ++ ',' :: span'
      dsimp only
      rw [List.append_assoc, List.cons_append, ← hrest', ← hrest, ← hl]
      use rfl, .secondary hspan hspan'
    · use span, hl, .threshold hspan
  · intro e span hspan rest
    cases hspan with
    | threshold h =>
      have hrest := Text.readsLongest_readInteger.longest h rest
      rw [readEscalation]
      dsimp only
      split
      · rename_i left hleft
        rw [hleft] at hrest
        exact (Text.readInteger_suffix left).trans ((List.suffix_cons _ _).trans hrest)
      · exact hrest
    | secondary h h' =>
      rw [List.append_assoc, List.cons_append, readEscalation]
      simp only [h.readInteger_comma]
      apply Text.readsLongest_readInteger.longest h'

theorem readsLongest_readWeight :
  ReadsLongest SpellsWeight readWeight
  := by
  constructor
  · intro l
    rw [readWeight.eq_def]
    split
    · rename_i l
      obtain ⟨span, hl, hspan⟩ := Text.readsLongest_readInteger.spelled l
      use ':' :: span
      rw [List.cons_append, ← hl]
      use rfl, .given hspan
    · exact ⟨[], rfl, .one⟩
  · intro weight span h rest
    cases h with
    | one => apply readWeight_suffix
    | given h => apply Text.readsLongest_readInteger.longest h

theorem spelled_entry {l : List Char} (hne : (Text.readNumber l).1 ≠ 0) :
  ∃ span, l = span ++ (readWeight (Text.readNumber l).2).2
    ∧ SpellsEntry (clampSection (Text.readNumber l).1, (readWeight (Text.readNumber l).2).1) span
  := by
  obtain ⟨digits, hl, hdigits, hvalue⟩ := Text.eq_append_readNumber l
  obtain ⟨span, hspan, hweight⟩ := readsLongest_readWeight.spelled (Text.readNumber l).2
  rw [hvalue] at hne ⊢
  use digits ++ span
  rw [List.append_assoc, ← hspan]
  exact ⟨hl, .mk hdigits hne hweight⟩

section entry

variable {e : UInt32 × Score} {span : List Char} (h : SpellsEntry e span) (rest : List Char)

include h

theorem SpellsEntry.readNumber_ne_zero :
  (Text.readNumber (span ++ rest)).1 ≠ 0
  := by
  obtain ⟨hdigits, hne, -⟩ := h
  rw [List.append_assoc]
  apply Nat.ne_of_gt
  apply Nat.lt_of_lt_of_le (Nat.pos_of_ne_zero hne)
  apply Text.valueOf_le_readNumber_append hdigits

theorem SpellsEntry.readWeight_suffix :
  (readWeight (Text.readNumber (span ++ rest)).2).2 <:+ rest
  := by
  obtain ⟨hdigits, -, hweight⟩ := h
  cases hweight with
  | one =>
    rw [List.append_nil]
    apply (Directive.readWeight_suffix _).trans (Text.readNumber_append_suffix hdigits rest)
  | given h =>
    rw [List.append_assoc, List.cons_append, Text.readNumber_append_cons hdigits rfl]
    apply Text.readsLongest_readInteger.longest h

/-- An entry ends at a comma. -/
theorem SpellsEntry.readWeight_comma :
  (readWeight (Text.readNumber (span ++ ',' :: rest)).2).2 = ',' :: rest
  := by
  obtain ⟨hdigits, -, hweight⟩ := h
  cases hweight with
  | one =>
    rw [List.append_nil, Text.readNumber_append_cons hdigits rfl]
    rfl
  | given h =>
    rw [List.append_assoc, List.cons_append, Text.readNumber_append_cons hdigits rfl]
    apply h.readInteger_comma

end entry

theorem readsLongest_readWeights :
  ReadsLongest SpellsWeights readWeights
  := by
  constructor
  · intro l
    fun_induction readWeights l with
    | case1 l hzero => exact ⟨[], rfl, .nil⟩
    | case2 l hne entry rest hrest hlt more left hmore ih =>
      obtain ⟨span, hl, hentry⟩ := spelled_entry hne
      obtain ⟨span', hspan', hweights⟩ := ih
      rw [hmore] at hspan' hweights
      use span ++ ',' :: span'
      rw [List.append_assoc, List.cons_append, ← hspan', ← hrest]
      use hl, .more hentry hweights
    | case3 l hne entry hcomma =>
      obtain ⟨span, hl, hentry⟩ := spelled_entry hne
      use span, hl, .last hentry
  · intro ws span h rest
    induction h generalizing rest with
    | nil => apply readWeights_suffix
    | last h =>
      rw [readWeights_eq, if_neg (h.readNumber_ne_zero rest)]
      dsimp only
      split
      · rename_i left hleft
        apply (readWeights_suffix left).trans
        apply (List.suffix_cons ',' left).trans
        rw [← hleft]
        apply h.readWeight_suffix
      · apply h.readWeight_suffix
    | more h h' ih =>
      rw [List.append_assoc, List.cons_append, readWeights_eq, if_neg (h.readNumber_ne_zero _)]
      simp only [h.readWeight_comma]
      apply ih

/-! ### Any directive -/

theorem spelled_of_read? {l rest : List Char} {d : Directive} (h : read? l = some (d, rest)) :
  ∃ span, l = span ++ rest ∧ Spells d span
  := by
  obtain ⟨l', rfl, rfl, rfl⟩ | ⟨l', rfl, rfl, rfl⟩ | ⟨l', rfl, rfl, rfl⟩ := read?_cases h
  · obtain ⟨span, hl, hspan⟩ := readsLongest_readEscalation.spelled l'
    use '*' :: 'E' :: span
    rw [List.cons_append, List.cons_append, ← hl]
    use rfl, .escalate hspan
  · use '*' :: 'D' :: l'.takeWhile fun c => !endsSign c
    rw [List.cons_append, List.cons_append, List.takeWhile_append_dropWhile]
    use rfl
    apply Spells.defaultOperator
    intro c hc
    simpa using List.mem_takeWhile_imp hc
  · obtain ⟨span, hl, hspan⟩ := readsLongest_readWeights.spelled l'
    use '*' :: 'W' :: span
    rw [List.cons_append, List.cons_append, ← hl]
    use rfl, .weigh hspan

/-- Where a directive is spelled, one is read that takes up no less. -/
theorem Spells.exists_read? {d : Directive} {span : List Char} (h : Spells d span)
    (rest : List Char) :
  ∃ d' left, read? (span ++ rest) = some (d', left) ∧ left <:+ rest
  := by
  cases h with
  | escalate h => exact ⟨_, _, rfl, readsLongest_readEscalation.longest h rest⟩
  | @defaultOperator sign h =>
    have hsign : ∀ c ∈ sign, (!endsSign c) = true := by simpa using h
    refine ⟨_, (sign ++ rest).dropWhile fun c => !endsSign c, rfl, ?_⟩
    rw [List.dropWhile_append_of_pos hsign]
    apply List.dropWhile_suffix
  | weigh h => exact ⟨_, _, rfl, readsLongest_readWeights.longest h rest⟩

/-! ### The split at stars -/

theorem SpellsEscalation.star_notMem {e : Escalation} {span : List Char}
    (h : SpellsEscalation e span) :
  '*' ∉ span
  := by
  cases h with
  | threshold h => apply h.star_notMem
  | secondary h h' => simp [h.star_notMem, h'.star_notMem]

theorem SpellsEntry.star_notMem {e : UInt32 × Score} {span : List Char} (h : SpellsEntry e span) :
  '*' ∉ span
  := by
  obtain ⟨hdigits, -, hweight⟩ := h
  have hstar := (Text.SpellsInteger.plain hdigits).star_notMem
  cases hweight with
  | one => simpa using hstar
  | given h => simp [hstar, h.star_notMem]

theorem SpellsWeights.star_notMem {ws : List (UInt32 × Score)} {span : List Char}
    (h : SpellsWeights ws span) :
  '*' ∉ span
  := by
  induction h with
  | nil => simp
  | last h => apply h.star_notMem
  | more h h' ih => simp [h.star_notMem, ih]

/-- A star stands at the beginning of a text and nowhere else in it. -/
def Starred (span : List Char) : Prop :=
  ∃ after, span = '*' :: after ∧ '*' ∉ after

theorem Spells.starred {d : Directive} {span : List Char} (h : Spells d span) :
  Starred span
  := by
  cases h with
  | escalate h => exact ⟨_, rfl, by simp [h.star_notMem]⟩
  | @defaultOperator sign h =>
    have hsign : '*' ∉ sign := fun hstar => nomatch h '*' hstar
    exact ⟨_, rfl, by simp [hsign]⟩
  | weigh h => exact ⟨_, rfl, by simp [h.star_notMem]⟩

/-- Texts one after the other that begin with stars begin with a star, if there are any. -/
theorem head?_flatten {spans : List (List Char)} (h : ∀ span ∈ spans, Starred span) :
  ∀ c ∈ spans.flatten.head?, c = '*'
  := by
  cases spans with
  | nil => simp
  | cons span spans =>
    obtain ⟨after, rfl, -⟩ := h span List.mem_cons_self
    simp

/-- What comes before a star is up to that star. -/
theorem eq_of_append_star {after after' rest rest' : List Char}
    (h : '*' ∉ after) (h' : '*' ∉ after') (hrest : ∀ c ∈ rest.head?, c = '*')
    (hrest' : ∀ c ∈ rest'.head?, c = '*') (heq : after ++ rest = after' ++ rest') :
  after = after' ∧ rest = rest'
  := by
  have hsplit {after rest : List Char} (h : '*' ∉ after) (hrest : ∀ c ∈ rest.head?, c = '*') :
      (after ++ rest).takeWhile (· != '*') = after
        ∧ (after ++ rest).dropWhile (· != '*') = rest := by
    apply Text.takeWhile_append_of_stops
    · intro c hc
      rw [bne_iff_ne]
      rintro rfl
      exact h hc
    · intro c hc
      simp [hrest c hc]
  obtain ⟨htake, hdrop⟩ := hsplit h hrest
  obtain ⟨htake', hdrop'⟩ := hsplit h' hrest'
  rw [heq] at htake hdrop
  exact ⟨htake.symm.trans htake', hdrop.symm.trans hdrop'⟩

/-- There is one way to split a text at its stars. -/
theorem flatten_injective {spans spans' : List (List Char)} (h : ∀ span ∈ spans, Starred span)
    (h' : ∀ span ∈ spans', Starred span) (heq : spans.flatten = spans'.flatten) :
  spans = spans'
  := by
  induction spans generalizing spans' with
  | nil =>
    cases spans' with
    | nil => rfl
    | cons span' spans' =>
      obtain ⟨after, rfl, -⟩ := h' span' List.mem_cons_self
      simp at heq
  | cons span spans ih =>
    obtain ⟨hspan, hspans⟩ := List.forall_mem_cons.mp h
    obtain ⟨after, rfl, hafter⟩ := hspan
    cases spans' with
    | nil => simp at heq
    | cons span' spans' =>
      obtain ⟨hspan', hspans'⟩ := List.forall_mem_cons.mp h'
      obtain ⟨after', rfl, hafter'⟩ := hspan'
      simp only [List.flatten_cons, List.cons_append, List.cons.injEq, true_and] at heq
      obtain ⟨rfl, hrest⟩ := eq_of_append_star hafter hafter' (head?_flatten hspans)
        (head?_flatten hspans') heq
      rw [ih hspans hspans' hrest]

/-! ### All directives -/

theorem exists_spans (l : List Char) :
  ∃ spans, l = spans.flatten ++ (readAll l).2 ∧ List.Forall₂ Spells (readAll l).1 spans
  := by
  fun_induction readAll l with
  | case1 l h => exact ⟨[], rfl, .nil⟩
  | case2 l d rest h hlt more left hmore ih =>
    obtain ⟨span, rfl, hspan⟩ := spelled_of_read? h
    obtain ⟨spans, hrest, hspans⟩ := ih
    rw [hmore] at hrest hspans
    use span :: spans
    rw [List.flatten_cons, List.append_assoc, ← hrest]
    exact ⟨rfl, .cons hspan hspans⟩

/-- Where directives are spelled, those that are read take up no less. -/
theorem readAll_longest {spans : List (List Char)} (h : ∀ span ∈ spans, ∃ d, Spells d span)
    (rest : List Char) :
  (readAll (spans.flatten ++ rest)).2 <:+ rest
  := by
  induction spans with
  | nil => apply readAll_suffix
  | cons span spans ih =>
    obtain ⟨⟨d, hspan⟩, hspans⟩ := List.forall_mem_cons.mp h
    rw [List.flatten_cons, List.append_assoc]
    obtain ⟨d', left, hread, more, hmore⟩ := hspan.exists_read? (spans.flatten ++ rest)
    rw [readAll_of_some hread]
    cases spans with
    | nil => exact (readAll_suffix left).trans ⟨more, hmore⟩
    | cons span' spans =>
      -- what is taken up beyond `span` would begin with the star of `span'`
      have hnone : more = [] := by
        obtain ⟨read, hl, hspells⟩ := spelled_of_read? hread
        obtain ⟨after, rfl, -⟩ := hspan.starred
        obtain ⟨after', rfl, hafter'⟩ := hspells.starred
        rw [← hmore, ← List.append_assoc] at hl
        obtain rfl := (List.cons.inj (List.append_cancel_right hl)).2
        obtain ⟨d'', hspan'⟩ := hspans span' List.mem_cons_self
        obtain ⟨after'', rfl, -⟩ := hspan'.starred
        cases more with
        | nil => rfl
        | cons c more =>
          obtain rfl := (List.cons.inj hmore).1
          simp at hafter'
      rw [hnone, List.nil_append] at hmore
      rw [hmore]
      apply ih hspans

/-! ### Directives that mean something -/

/-- Whether a directive says something: the sign of an operator has to name one. -/
def Known : Directive → Prop
  | defaultOperator sign => ∃ operator : Operator, sign = operator.sign
  | escalate _ | weigh _ => True

/-- A text that directives with a meaning spell, one after the other. -/
def KnownBlock (block : List Char) : Prop :=
  ∃ spans : List (List Char), block = spans.flatten ∧ ∀ span ∈ spans, ∃ d, Known d ∧ Spells d span

theorem Spells.known_iff {d : Directive} {span : List Char} (h : Spells d span) :
  (∃ d', Known d' ∧ Spells d' span) ↔ Known d
  := by
  constructor
  · rintro ⟨d', hknown, h'⟩
    cases h with
    | escalate | weigh => trivial
    | defaultOperator h =>
      cases h' with
      | defaultOperator h' => exact hknown
  · intro hknown
    use d

theorem knownBlock_flatten_iff {ds : List Directive} {spans : List (List Char)}
    (h : List.Forall₂ Spells ds spans) :
  KnownBlock spans.flatten ↔ ∀ d ∈ ds, Known d
  := by
  have heach : (∀ span ∈ spans, ∃ d, Known d ∧ Spells d span) ↔ ∀ d ∈ ds, Known d := by
    induction h with
    | nil => simp
    | cons h hs ih => rw [List.forall_mem_cons, List.forall_mem_cons, h.known_iff, ih]
  have hstarred : ∀ span ∈ spans, Starred span := by
    clear heach
    induction h with
    | nil => simp
    | cons h hs ih => exact List.forall_mem_cons.mpr ⟨h.starred, ih⟩
  rw [← heach]
  constructor
  · rintro ⟨spans', hflatten, hknown⟩
    rwa [flatten_injective hstarred _ hflatten]
    intro span hspan
    obtain ⟨d, -, hd⟩ := hknown span hspan
    apply hd.starred
  · intro hknown
    use spans

theorem eq_sign_of_operator? {sign : List Char} {operator : Operator}
    (h : operator? sign = some operator) :
  sign = operator.sign
  := by
  rw [operator?] at h
  split_ifs at h with hor hand hbut hadjust <;> cases h
  · exact hor
  · exact hand
  · exact hbut
  · exact hadjust

/-- A sign that names no operator sets none. -/
theorem apply_of_not_known {d : Directive} (h : ¬ Known d) (directives : Directives) :
  apply directives d = directives
  := by
  cases d with
  | escalate | weigh => exact absurd trivial h
  | defaultOperator sign =>
    have hnone : operator? sign = none := by
      rw [Option.eq_none_iff_forall_ne_some]
      intro operator hoperator
      exact h ⟨operator, eq_sign_of_operator? hoperator⟩
    rw [apply, hnone, Option.getD_none]

end Directive

/-- The directives at the start of a text take up a text that they spell, and no longer one that
directives spell stands there. It is spelled by directives with a meaning just if all that are read
have one. The others are signs, up to a star or a blank, that name no operator, and they set
nothing. -/
theorem Directives.read_block (operator : Operator) (l : List Char) :
  let (directives, rest) := (read operator l).value
  ∃ (ds : List Directive) (spans : List (List Char)),
    l = spans.flatten ++ rest
      ∧ directives = ds.foldl Directive.apply (.ofOperator operator)
      ∧ List.Forall₂ Directive.Spells ds spans
      ∧ (∀ (spans' : List (List Char)) (rest' : List Char), l = spans'.flatten ++ rest' →
        (∀ span ∈ spans', ∃ d, Directive.Spells d span) → rest <:+ rest')
      ∧ (Directive.KnownBlock spans.flatten ↔ ∀ d ∈ ds, d.Known)
      ∧ ∀ d ∈ ds, ¬ d.Known → ∀ directives, Directive.apply directives d = directives
  := by
  obtain ⟨spans, hl, hspans⟩ := Directive.exists_spans l
  refine ⟨(Directive.readAll l).1, spans, hl, rfl, hspans, ?_, ?_, ?_⟩
  · rintro spans' rest' rfl hspelled
    apply Directive.readAll_longest hspelled
  · apply Directive.knownBlock_flatten_iff hspans
  · intro d _ hunknown directives
    apply Directive.apply_of_not_known hunknown

/-- The word right after an operator is taken up with it, which no directive with a meaning does. -/
theorem Directives.read_sign_word :
  let text := ['*', 'D', '+', 'a', ' ', 'b']
  let block := ['*', 'D', '+', 'a']
  (read .or text).value = (.ofOperator .or, [' ', 'b']) ∧ text = block ++ [' ', 'b']
    ∧ ¬ Directive.KnownBlock block
  := by
  intro text block
  refine ⟨by decide +kernel, rfl, ?_⟩
  have hsign : ∀ c ∈ ['+', 'a'], Directive.endsSign c = false := by
    simp [Directive.endsSign, Text.isAsciiBlank]
  have hspells : Directive.Spells (.defaultOperator ['+', 'a']) block := .defaultOperator hsign
  have hblock := Directive.knownBlock_flatten_iff (.cons hspells .nil)
  intro hknown
  obtain ⟨operator, hoperator⟩ := hblock.mp hknown _ List.mem_cons_self
  cases operator <;> cases hoperator

end Retrieval
