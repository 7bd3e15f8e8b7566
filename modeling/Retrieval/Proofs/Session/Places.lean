import Retrieval.Proofs.Session.Open

/-!
# Open places of a statement

Whether a place is open can be told from the text of the statement up to it: the quote that is
put there has to begin a lexeme of the last query. The places of a query are open where those of the
statement are.
-/

namespace Retrieval

namespace Template

/-- The text of a statement up to a place: some value is put in each place before it, and the
quote of a value stands in the place itself. -/
def upTo (t : Template) (place : Nat) : List Char :=
  t.start ++ (renderAfter (List.replicate place "x") (t.afterPlaces.take place) ++ ['"'])

/-- Whether the quote of a value in a place begins a lexeme of its query, and does not fall
into a directive, a word or a phrase. -/
def OpenAt (isSpace : Char → Bool) (t : Template) (place : Nat) : Prop :=
  ∃ query ∈ (Statement.queries (t.upTo place)).getLast?,
    ReachesQuote isSpace (Directive.readAll (query.toList.dropWhile isSpace)).2

instance (isSpace : Char → Bool) (t : Template) (place : Nat) :
    Decidable (t.OpenAt isSpace place) :=
  decidable_of_iff ((Statement.queries (t.upTo place)).getLast?.any fun query =>
      decide (ReachesQuote isSpace (Directive.readAll (query.toList.dropWhile isSpace)).2))
    (by simp only [OpenAt, Option.any_eq_true, decide_eq_true_eq, Option.mem_def])

/-! ### Filling a place -/

/-- Whether a later place is open does not depend on whether a place or a value stands before
it. -/
theorem openAt_fill {isSpace : Char → Bool} {start text : List Char} {texts : List (List Char)}
    (place : Nat) :
  OpenAt isSpace ⟨start ++ (quoteValue "x".toList ++ text), texts⟩ place
    = OpenAt isSpace ⟨start, text :: texts⟩ (place + 1)
  := by
  have hupTo : upTo ⟨start ++ (quoteValue "x".toList ++ text), texts⟩ place
      = upTo ⟨start, text :: texts⟩ (place + 1) := by
    simp [upTo, List.replicate_succ, renderAfter]
  rw [OpenAt, hupTo]
  rfl

theorem Balanced.fill {start text : List Char} {texts : List (List Char)}
    (h : Balanced ⟨start, text :: texts⟩) (value : List Char) :
  Balanced ⟨start ++ (quoteValue value ++ text), texts⟩
  := by
  intro l hl
  cases texts with
  | nil => cases hl
  | cons text' texts =>
    rcases List.mem_cons.mp hl with rfl | hl
    · rw [Statement.quotesAfter_append h.start,
        Statement.quotesAfter_append (Statement.quotesAfter_quoteValue value)]
      apply h.tail.start
    · apply h
      apply List.mem_cons_of_mem
      apply List.mem_cons_of_mem _ hl

/-- The templates with a text in front of the first of them. -/
def textBefore (l : List Char) : List Template → List Template
  | [] => []
  | t :: ts => ⟨l ++ t.start, t.afterPlaces⟩ :: ts

/-- A value in the first place becomes a part of the text there. -/
theorem cut_fill {start p : List Char} {ps : List (List Char)}
    (hquotes : Statement.quotesAfter false start = some false)
    (h : Statement.parts false start = ps ++ [p]) (value text : List Char)
    (texts : List (List Char)) :
  cut (start ++ (quoteValue value ++ text)) texts
    = ps.map (fun text => ⟨text, []⟩) ++ textBefore (p ++ quoteValue value) (cut text texts)
  := by
  have hparts := Statement.parts_append_quoteValue hquotes h value text
  obtain ⟨qs, q, hqs⟩ := Statement.exists_parts false text
  rw [hqs] at hparts
  cases texts with
  | nil =>
    rw [cut_nil, cut_nil, hparts, hqs]
    cases qs <;> simp [Statement.prepend, textBefore]
  | cons text' texts =>
    rw [cut_cons hqs]
    cases qs with
    | nil =>
      rw [cut_cons hparts]
      cases hcut : cut text' texts with
      | nil => exact absurd hcut (cut_ne_nil text' texts)
      | cons t ts => simp [placeBefore, textBefore]
    | cons q' qs =>
      have hlast : Statement.parts false (start ++ (quoteValue value ++ text))
          = (ps ++ (p ++ quoteValue value ++ q') :: qs) ++ [q] := by
        rw [hparts]
        simp [Statement.prepend]
      rw [cut_cons hlast]
      simp [textBefore]

/-! ### Open places -/

variable {isSpace : Char → Bool}

/-- The text up to a first place ends with the query of the place. -/
theorem openAt_zero_iff {start p : List Char} {ps texts : List (List Char)}
    (hquotes : Statement.quotesAfter false start = some false)
    (hparts : Statement.parts false start = ps ++ [p]) :
  OpenAt isSpace ⟨start, texts⟩ 0 ↔ OpensFirst isSpace p
  := by
  have hlast : Statement.parts false (start ++ ['"']) = ps ++ [p ++ ['"']] := by
    rw [Statement.parts_append hquotes, hparts, Statement.join_append_singleton]
    rfl
  have hquery : (Statement.queries (start ++ ['"'])).getLast?
      = some (String.ofList (p.dropWhile Text.isBlank ++ ['"'])) := by
    rw [Statement.queries, hlast, List.map_append, List.map_singleton, Text.trim_append_quote,
      List.filter_append, List.filter_cons_of_pos]
    · simp [Text.trimEnd]
    · simp
  have hupTo : upTo ⟨start, texts⟩ 0 = start ++ ['"'] := by simp [upTo, renderAfter]
  simp only [OpenAt, hupTo, hquery, Option.mem_def, Option.some.injEq, exists_eq_left',
    String.toList_ofList]
  rfl

/-- Whether the quote after a value and a text begins a lexeme does not depend on what comes before
the value, if the place of the value is open. -/
theorem opensFirst_fill (hquote : isSpace '"' = false) {p : List Char}
    (hfirst : OpensFirst isSpace p) {value : String} (hvalue : value ≠ "") (text : List Char) :
  OpensFirst isSpace (p ++ quoteValue value.toList ++ text) ↔ OpensAfter isSpace text
  := by
  have hdrop : (p ++ quoteValue value.toList ++ text).dropWhile Text.isBlank ++ ['"']
      = p.dropWhile Text.isBlank
        ++ '"' :: (Lexeme.escaped value.toList ++ '"' :: (text ++ ['"'])) := by
    rw [List.append_assoc, Lexeme.quoteValue_append,
      (takeWhile_append_quote (by decide) p _).2]
    simp
  have hlast : ['"'] <:+ text ++ ['"'] := List.suffix_append text ['"']
  rw [OpensFirst, hdrop, ReachesQuote, hfirst.begins_iff hquote, ← Lexeme.quoteValue_append,
    begins_quoteValue_iff hquote hvalue hlast]
  · rfl
  · rw [← Lexeme.quoteValue_append]
    apply hlast.trans (List.suffix_append _ _)

/-- A later place of a query is open after a place if it is open after a value there. -/
theorem opensAt_fill (hquote : isSpace '"' = false) {p text : List Char}
    (hfirst : OpensFirst isSpace p) {value : String} (hvalue : value ≠ "")
    (texts : List (List Char)) (place : Nat) :
  OpensAt isSpace ⟨p ++ quoteValue value.toList ++ text, texts⟩ place
    ↔ OpensAt isSpace ⟨p, text :: texts⟩ (place + 1)
  := by
  cases place with
  | zero =>
    simp only [OpensAt, opensFirst_fill hquote hfirst hvalue]
    simp
  | succ place => rfl

/-- Whether the places of templates are open, counted one after another. Each of them is told to be
open by the template if those before it are. -/
def OpenWhere (isSpace : Char → Bool) : (Nat → Prop) → List Template → Prop
  | _, [] => True
  | isOpen, t :: ts =>
    (∀ place < t.places, (∀ earlier < place, isOpen earlier) →
      (isOpen place ↔ t.OpensAt isSpace place))
      ∧ OpenWhere isSpace (fun place => isOpen (t.places + place)) ts

theorem openWhere_texts (isOpen : Nat → Prop) (texts : List (List Char)) (ts : List Template) :
  OpenWhere isSpace isOpen (texts.map (fun text => ⟨text, []⟩) ++ ts)
    ↔ OpenWhere isSpace isOpen ts
  := by
  induction texts with
  | nil => rfl
  | cons text texts ih =>
    rw [List.map_cons, List.cons_append, OpenWhere]
    simp [places, ih]

/-- The places of a query are open where those of the statement are. -/
theorem openWhere_cut (hquote : isSpace '"' = false) {start : List Char}
    {texts : List (List Char)} (hbalanced : Balanced ⟨start, texts⟩) :
  OpenWhere isSpace (OpenAt isSpace ⟨start, texts⟩) (cut start texts)
  := by
  induction texts generalizing start with
  | nil =>
    rw [cut_nil, ← List.append_nil (List.map _ _), openWhere_texts]
    trivial
  | cons text texts ih =>
    obtain ⟨ps, p, hparts⟩ := Statement.exists_parts false start
    have hfilled := ih (hbalanced.fill "x".toList)
    rw [cut_fill hbalanced.start hparts, openWhere_texts] at hfilled
    rw [cut_cons hparts, openWhere_texts]
    cases hcut : cut text texts with
    | nil => exact absurd hcut (cut_ne_nil text texts)
    | cons t ts =>
      rw [hcut] at hfilled
      obtain ⟨hfirst, hlater⟩ := hfilled
      simp only [openAt_fill] at hfirst hlater
      constructor
      · intro place hplace hopens
        cases place with
        | zero => apply openAt_zero_iff hbalanced.start hparts
        | succ place =>
          have hp : OpensFirst isSpace p :=
            (openAt_zero_iff hbalanced.start hparts).mp (hopens 0 (Nat.succ_pos place))
          have hx : "x" ≠ "" := by decide
          rw [← opensAt_fill hquote hp hx]
          apply hfirst place (Nat.lt_of_succ_lt_succ hplace)
          intro earlier hlt
          apply hopens (earlier + 1) (Nat.succ_lt_succ hlt)
      · have hplace : ∀ place : Nat,
            places ⟨p, t.start :: t.afterPlaces⟩ + place = t.places + place + 1 := by
          intro place
          apply Nat.add_right_comm
        simp only [hplace]
        apply hlater

end Template

end Retrieval
