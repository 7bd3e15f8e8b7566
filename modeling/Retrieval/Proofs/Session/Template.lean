import Retrieval.Proofs.Query.Lexeme
import Mathlib.Tactic.Use

/-!
# Templates and their queries

A template with values in its places is a statement. Since values are quoted, its queries are
templates too, which do not depend on the values: `Template.cut` gives them.
-/

namespace Retrieval

/-! ### Templates with values -/

namespace Template

/-- The number of places. -/
def places (t : Template) : Nat :=
  t.afterPlaces.length

/-- Values in places, each with the text after it. -/
def renderAfter : List String → List (List Char) → List Char
  | value :: values, text :: texts =>
    quoteValue value.toList ++ (text ++ renderAfter values texts)
  | _, _ => []

/-- The template with values in its places. -/
def render (values : List String) (t : Template) : List Char :=
  t.start ++ renderAfter values t.afterPlaces

/-- The templates with values, which are taken from a list as they are needed. -/
def renderEach : List Template → List String → List (List Char)
  | [], _ => []
  | t :: ts, values =>
    t.render (values.take t.places) :: renderEach ts (values.drop t.places)

theorem places_fill (value : List Char) (t : Template) :
  (t.fill value).places = t.places - 1
  := by
  obtain ⟨start, texts⟩ := t
  cases texts <;> rfl

/-- A value is put in the first place. -/
theorem render_fill {t : Template} (h : t.afterPlaces ≠ []) (value : String)
    (values : List String) :
  (t.fill value.toList).render values = t.render (value :: values)
  := by
  obtain ⟨start, texts⟩ := t
  cases texts with
  | nil => exact absurd rfl h
  | cons text texts => simp [fill, render, renderAfter]

/-- Templates without places are texts. -/
theorem renderEach_texts (texts : List (List Char)) (ts : List Template)
    (values : List String) :
  renderEach (texts.map (fun text => ⟨text, []⟩) ++ ts) values = texts ++ renderEach ts values
  := by
  induction texts with
  | nil => rfl
  | cons text texts ih =>
    rw [List.map_cons, List.cons_append, renderEach]
    simp [places, render, renderAfter, ih]

end Template

/-! ### Parts of joined texts -/

namespace Statement

/-- Whether a text ends between quotes, unless it ends after a backslash. -/
def quotesAfter (inQuotes : Bool) : List Char → Option Bool
  | [] => some inQuotes
  | ['\\'] => none
  | '\\' :: _ :: l => quotesAfter inQuotes l
  | c :: l => quotesAfter (if c = '"' then !inQuotes else inQuotes) l

/-- The parts of two texts as those of one, where the last part of the first text goes on with
the first part of the second one. -/
def join : List (List Char) → List (List Char) → List (List Char)
  | [], qs => qs
  | [p], qs => prepend p qs
  | p :: ps, qs => p :: join ps qs

theorem prepend_prepend (l l' : List Char) (ps : List (List Char)) :
  prepend l (prepend l' ps) = prepend (l ++ l') ps
  := by
  cases ps with
  | nil => rfl
  | cons p ps => simp [prepend]

theorem join_prepend (l : List Char) (ps qs : List (List Char)) :
  join (prepend l ps) qs = prepend l (join ps qs)
  := by
  rcases ps with _ | ⟨p, _ | ⟨p', ps⟩⟩
  · rfl
  · apply (prepend_prepend l p qs).symm
  · rfl

theorem join_append_singleton (ps : List (List Char)) (p : List Char) (qs : List (List Char)) :
  join (ps ++ [p]) qs = ps ++ prepend p qs
  := by
  induction ps with
  | nil => rfl
  | cons p' ps ih =>
    cases ps with
    | nil => rfl
    | cons p'' ps => exact congrArg (p' :: ·) ih

theorem parts_cons_of_ne {c : Char} (hc : c ≠ '\\') (inQuotes : Bool) (l : List Char) :
  parts inQuotes (c :: l)
    = if c = ';' ∧ !inQuotes then [] :: parts inQuotes l
      else prepend [c] (parts (if c = '"' then !inQuotes else inQuotes) l)
  := by
  rw [parts.eq_def]
  split
  · rename_i heq
    cases heq
  · rename_i heq
    apply absurd (List.cons.inj heq).1 hc
  · rename_i heq
    apply absurd (List.cons.inj heq).1 hc
  · rename_i heq
    obtain ⟨rfl, rfl⟩ := List.cons.inj heq
    rfl

theorem quotesAfter_cons_of_ne {c : Char} (hc : c ≠ '\\') (inQuotes : Bool) (l : List Char) :
  quotesAfter inQuotes (c :: l) = quotesAfter (if c = '"' then !inQuotes else inQuotes) l
  := by
  rw [quotesAfter.eq_def]
  split
  · rename_i heq
    cases heq
  · rename_i heq
    apply absurd (List.cons.inj heq).1 hc
  · rename_i heq
    apply absurd (List.cons.inj heq).1 hc
  · rename_i heq
    obtain ⟨rfl, rfl⟩ := List.cons.inj heq
    rfl

/-- A text has parts, of which one is the last. -/
theorem exists_parts (inQuotes : Bool) (l : List Char) :
  ∃ ps p, parts inQuotes l = ps ++ [p]
  := by
  have hprepend : ∀ (l : List Char) {qs ps : List (List Char)} {p : List Char}, qs = ps ++ [p] →
      ∃ ps p, prepend l qs = ps ++ [p] := by
    rintro l _ ps p rfl
    cases ps with
    | nil => exact ⟨[], l ++ p, rfl⟩
    | cons p' ps => exact ⟨(l ++ p') :: ps, p, rfl⟩
  fun_induction parts inQuotes l with
  | case1 => exact ⟨[], [], rfl⟩
  | case2 => exact ⟨[], _, rfl⟩
  | case3 inQuotes c l ih =>
    obtain ⟨ps, p, h⟩ := ih
    apply hprepend _ h
  | case4 inQuotes c l _ _ _ ih =>
    obtain ⟨ps, p, h⟩ := ih
    exact ⟨[] :: ps, p, by rw [h]; rfl⟩
  | case5 inQuotes c l _ _ _ ih =>
    obtain ⟨ps, p, h⟩ := ih
    apply hprepend _ h

/-- The parts of a text that goes on. -/
theorem parts_append {inQuotes inQuotes' : Bool} {l : List Char}
    (h : quotesAfter inQuotes l = some inQuotes') (l' : List Char) :
  parts inQuotes (l ++ l') = join (parts inQuotes l) (parts inQuotes' l')
  := by
  fun_induction quotesAfter inQuotes l with
  | case1 inQuotes =>
    obtain rfl := Option.some.inj h
    obtain ⟨ps, p, hps⟩ := exists_parts inQuotes l'
    change parts inQuotes l' = prepend [] (parts inQuotes l')
    rw [hps]
    cases ps <;> rfl
  | case2 => cases h
  | case3 inQuotes c l ih =>
    rw [List.cons_append, List.cons_append, parts, ih h, parts, join_prepend]
  | case4 inQuotes c l hlast hmore ih =>
    have hc := ne_backslash hlast hmore
    rw [List.cons_append, parts_cons_of_ne hc, parts_cons_of_ne hc]
    split
    · rename_i hsemicolon
      obtain ⟨rfl, -⟩ := hsemicolon
      obtain ⟨ps, p, hps⟩ := exists_parts inQuotes l
      have hjoin : join ([] :: parts inQuotes l) (parts inQuotes' l')
          = [] :: join (parts inQuotes l) (parts inQuotes' l') := by
        rw [hps]
        cases ps <;> rfl
      rw [hjoin]
      apply congrArg ([] :: ·) (ih h)
    · rw [join_prepend, ih h]

/-- The quote of a value is closed, and nothing in it is a separator. -/
theorem parts_escaped (value l : List Char) :
  parts true (Lexeme.escaped value ++ '"' :: l)
    = prepend (Lexeme.escaped value ++ ['"']) (parts false l)
  := by
  induction value with
  | nil => rfl
  | cons c value ih =>
    by_cases hc : c = '"' ∨ c = '\\'
    · rw [Lexeme.escaped_cons_of_special hc, List.cons_append, List.cons_append, parts, ih,
        prepend_prepend]
      rfl
    · obtain ⟨hquote, hslash⟩ := not_or.mp hc
      rw [Lexeme.escaped_cons_of_plain hc, List.cons_append, parts_cons_of_ne hslash,
        if_neg (by simp), if_neg hquote, ih, prepend_prepend]
      rfl

theorem parts_quoteValue (value l : List Char) :
  parts false (quoteValue value ++ l) = prepend (quoteValue value) (parts false l)
  := by
  rw [Lexeme.quoteValue_eq, List.cons_append, parts_cons_of_ne (by decide), if_neg (by simp),
    List.append_assoc]
  simp only [if_true, Bool.not_false, List.singleton_append]
  rw [parts_escaped, prepend_prepend]
  rfl

theorem quotesAfter_append {inQuotes inQuotes' : Bool} {l : List Char}
    (h : quotesAfter inQuotes l = some inQuotes') (l' : List Char) :
  quotesAfter inQuotes (l ++ l') = quotesAfter inQuotes' l'
  := by
  fun_induction quotesAfter inQuotes l with
  | case1 =>
    obtain rfl := Option.some.inj h
    rfl
  | case2 => cases h
  | case3 inQuotes c l ih =>
    rw [List.cons_append, List.cons_append, quotesAfter, ih h]
  | case4 inQuotes c l hlast hmore ih =>
    have hc := ne_backslash hlast hmore
    rw [List.cons_append, quotesAfter_cons_of_ne hc, ih h]

/-- A value ends outside quotes. -/
theorem quotesAfter_quoteValue (value : List Char) :
  quotesAfter false (quoteValue value) = some false
  := by
  have hescaped : quotesAfter true (Lexeme.escaped value ++ ['"']) = some false := by
    induction value with
    | nil => rfl
    | cons c value ih =>
      by_cases hc : c = '"' ∨ c = '\\'
      · rw [Lexeme.escaped_cons_of_special hc, List.cons_append, List.cons_append, quotesAfter,
          ih]
      · obtain ⟨hquote, hslash⟩ := not_or.mp hc
        rw [Lexeme.escaped_cons_of_plain hc, List.cons_append, quotesAfter_cons_of_ne hslash,
          if_neg hquote, ih]
  rw [Lexeme.quoteValue_eq, quotesAfter_cons_of_ne (by decide)]
  apply hescaped

/-- The parts of a text that ends outside quotes, and of a value and more text after it. -/
theorem parts_append_quoteValue {start p : List Char} {ps : List (List Char)}
    (hquotes : quotesAfter false start = some false) (h : parts false start = ps ++ [p])
    (value text : List Char) :
  parts false (start ++ (quoteValue value ++ text))
    = ps ++ prepend (p ++ quoteValue value) (parts false text)
  := by
  rw [parts_append hquotes, parts_quoteValue, h, join_append_singleton, prepend_prepend]

end Statement

/-! ### Places stand outside quotes -/

namespace Template

/-- The text before the first place, if there is one, and the texts between two places. -/
def betweenPlaces (t : Template) : List (List Char) :=
  (t.start :: t.afterPlaces).dropLast

/-- A template whose places all stand outside quotes. -/
def Balanced (t : Template) : Prop :=
  ∀ text ∈ t.betweenPlaces, Statement.quotesAfter false text = some false

/-- A template is balanced if its start and the texts between its places end outside quotes. -/
theorem Balanced.of_start {t : Template}
    (h : t.afterPlaces ≠ [] → Statement.quotesAfter false t.start = some false
      ∧ ∀ text ∈ t.afterPlaces.dropLast, Statement.quotesAfter false text = some false) :
  t.Balanced
  := by
  intro text htext
  rw [betweenPlaces] at htext
  by_cases hne : t.afterPlaces = []
  · rw [hne] at htext
    cases htext
  · obtain ⟨hstart, hbetween⟩ := h hne
    rw [List.dropLast_cons_of_ne_nil hne] at htext
    rcases List.mem_cons.mp htext with rfl | htext
    · apply hstart
    · apply hbetween text htext

/-- A place is put where no quote is open. -/
theorem quotesAfter_ofChars (inQuotes : Bool) (l : List Char) :
  (ofChars inQuotes l).1.afterPlaces ≠ [] →
    Statement.quotesAfter inQuotes (ofChars inQuotes l).1.start = some false
      ∧ ∀ text ∈ (ofChars inQuotes l).1.afterPlaces.dropLast,
        Statement.quotesAfter false text = some false
  := by
  fun_induction ofChars inQuotes l with
  | case1 => exact fun h => absurd rfl h
  | case2 => exact fun h => absurd rfl h
  | case3 inQuotes c l t quoted heq hplace ih =>
    rw [heq] at ih
    apply ih
  | case4 inQuotes c l t quoted heq _ ih =>
    rw [heq] at ih
    apply ih
  | case5 inQuotes l t quoted heq _ _ ih =>
    rw [heq] at ih
    apply ih
  | case6 inQuotes c l _ _ _ t quoted heq hplace ih =>
    rw [heq] at ih
    intro _
    obtain rfl : inQuotes = false := by simpa using hplace.2
    use rfl
    apply Balanced.of_start ih
  | case7 inQuotes c l hlast hmore hquote t quoted heq _ ih =>
    have hslash := ne_backslash hlast hmore
    rw [heq] at ih
    intro h
    obtain ⟨hstart, htexts⟩ := ih h
    refine ⟨?_, htexts⟩
    change Statement.quotesAfter inQuotes (c :: t.start) = some false
    rw [Statement.quotesAfter_cons_of_ne hslash, if_neg hquote]
    apply hstart

theorem balanced_ofChars (l : List Char) :
  (ofChars false l).1.Balanced
  := .of_start (quotesAfter_ofChars false l)

theorem Balanced.start {start text : List Char} {texts : List (List Char)}
    (h : Balanced ⟨start, text :: texts⟩) :
  Statement.quotesAfter false start = some false
  := h start List.mem_cons_self

theorem Balanced.tail {start text : List Char} {texts : List (List Char)}
    (h : Balanced ⟨start, text :: texts⟩) :
  Balanced ⟨text, texts⟩
  := fun x hx => h x (List.mem_cons_of_mem _ hx)

/-! ### Cutting templates -/

/-- The templates with a place and a text in front of the first of them. -/
def placeBefore (text : List Char) : List Template → List Template
  | [] => []
  | t :: ts => ⟨text, t.start :: t.afterPlaces⟩ :: ts

/-- The templates between semicolons that are not quoted. -/
def cut (start : List Char) : List (List Char) → List Template
  | [] => (Statement.parts false start).map fun text => ⟨text, []⟩
  | text :: texts =>
    (Statement.parts false start).dropLast.map (fun text => ⟨text, []⟩)
      ++ placeBefore ((Statement.parts false start).getLastD []) (cut text texts)

theorem cut_nil (start : List Char) :
  cut start [] = (Statement.parts false start).map fun text => ⟨text, []⟩
  := rfl

theorem cut_cons {start p : List Char} {ps : List (List Char)}
    (h : Statement.parts false start = ps ++ [p]) (text : List Char)
    (texts : List (List Char)) :
  cut start (text :: texts) = ps.map (fun text => ⟨text, []⟩) ++ placeBefore p (cut text texts)
  := by
  rw [cut, h]
  simp

theorem cut_ne_nil (start : List Char) (texts : List (List Char)) :
  cut start texts ≠ []
  := by
  induction texts generalizing start with
  | nil =>
    obtain ⟨ps, p, h⟩ := Statement.exists_parts false start
    simp [cut_nil, h]
  | cons text texts ih =>
    obtain ⟨ps, p, h⟩ := Statement.exists_parts false start
    rw [cut_cons h]
    cases hcut : cut text texts with
    | nil => exact absurd hcut (ih text)
    | cons t ts => simp [placeBefore]

/-- The number of places in several templates. -/
def totalPlaces : List Template → Nat
  | [] => 0
  | t :: ts => t.places + totalPlaces ts

theorem totalPlaces_texts (texts : List (List Char)) (ts : List Template) :
  totalPlaces (texts.map (fun text => ⟨text, []⟩) ++ ts) = totalPlaces ts
  := by
  induction texts with
  | nil => rfl
  | cons text texts ih =>
    rw [List.map_cons, List.cons_append, totalPlaces, ih]
    apply Nat.zero_add

/-- No place is lost. -/
theorem totalPlaces_cut (start : List Char) (texts : List (List Char)) :
  totalPlaces (cut start texts) = texts.length
  := by
  induction texts generalizing start with
  | nil =>
    have h := totalPlaces_texts (Statement.parts false start) []
    rw [List.append_nil] at h
    apply h
  | cons text texts ih =>
    obtain ⟨ps, p, h⟩ := Statement.exists_parts false start
    rw [cut_cons h, totalPlaces_texts]
    cases hcut : cut text texts with
    | nil => exact absurd hcut (cut_ne_nil text texts)
    | cons t ts =>
      rw [List.length_cons, ← ih text, hcut]
      apply Nat.succ_add _ _

/-- The parts of a statement are its templates with the values. -/
theorem parts_render {start : List Char} {texts : List (List Char)}
    (hbalanced : Balanced ⟨start, texts⟩) {values : List String}
    (hlength : values.length = texts.length) :
  Statement.parts false (start ++ renderAfter values texts)
    = renderEach (cut start texts) values
  := by
  induction texts generalizing start values with
  | nil =>
    have hvalues : renderAfter values [] = [] := by cases values <;> rfl
    have heach := renderEach_texts (Statement.parts false start) [] values
    rw [List.append_nil] at heach
    rw [hvalues, List.append_nil, cut_nil, heach]
    simp [renderEach]
  | cons text texts ih =>
    cases values with
    | nil => cases hlength
    | cons value values =>
      obtain ⟨ps, p, h⟩ := Statement.exists_parts false start
      have hrest := ih hbalanced.tail (Nat.succ.inj hlength)
      rw [renderAfter, Statement.parts_append_quoteValue hbalanced.start h, hrest, cut_cons h,
        renderEach_texts]
      cases hcut : cut text texts with
      | nil => exact absurd hcut (cut_ne_nil text texts)
      | cons t ts =>
        rw [renderEach, placeBefore, renderEach]
        simp [Statement.prepend, places, render, renderAfter]

end Template

end Retrieval
