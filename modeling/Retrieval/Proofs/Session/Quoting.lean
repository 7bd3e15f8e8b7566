import Retrieval.Proofs.Query.Stray
import Retrieval.Proofs.Session.Contents

/-!
# Cuts and places in phrases

Statements are cut at semicolons, and fragments have places at question marks, outside quotes, where
every quote counts that is not escaped. A phrase begins only where a lexeme does. So a semicolon or
a question mark in a phrase is no cut and no place, unless it stands behind an odd number of stray
quotes.
-/

namespace Retrieval

open Text

/-! ### Cuts -/

namespace Statement

/-- Whether a text ends between quotes is told by the number of its quotes. -/
theorem quotesAfter_eq (inQuotes : Bool) (l : List Char) :
  quotesAfter inQuotes l
    = if endsEscaped l then none else some (inQuotes ^^ decide (quoteCount l % 2 = 1))
  := by
  fun_induction quotesAfter inQuotes l with
  | case1 inQuotes => simp [endsEscaped, quoteCount]
  | case2 => rfl
  | case3 inQuotes c l ih => exact ih
  | case4 inQuotes c l hlast hmore ih =>
    have hslash := ne_backslash hlast hmore
    rw [ih, endsEscaped_cons_of_ne hslash, quoteCount_cons_of_ne hslash]
    by_cases hc : c = '"'
    · rw [if_pos hc, if_pos hc]
      rcases Nat.mod_two_eq_zero_or_one (quoteCount l) with hcount | hcount
      · simp [hcount, Nat.add_mod]
      · simp [hcount, Nat.add_mod]
    · rw [if_neg hc, if_neg hc, Nat.zero_add]

theorem exists_of_endsEscaped {l : List Char} (h : endsEscaped l = true) :
  ∃ l', l = l' ++ ['\\'] ∧ endsEscaped l' = false
  := by
  fun_induction endsEscaped l with
  | case1 => cases h
  | case2 => exact ⟨[], rfl, rfl⟩
  | case3 c l ih =>
    obtain ⟨l', rfl, hl'⟩ := ih h
    exact ⟨'\\' :: c :: l', rfl, hl'⟩
  | case4 c l hlast hmore ih =>
    obtain ⟨l', rfl, hl'⟩ := ih h
    exact ⟨c :: l', rfl, (endsEscaped_cons_of_ne (ne_backslash hlast hmore) l').trans hl'⟩

/-- A text ends outside quotes, between quotes or after a backslash. -/
theorem quotesAfter_cases (l : List Char) :
  (quotesAfter false l = some false ∧ quoteCount l % 2 = 0 ∧ endsEscaped l = false)
    ∨ (quotesAfter false l = some true ∧ quoteCount l % 2 = 1)
    ∨ (endsEscaped l = true ∧ ∃ l' inQuotes, l = l' ++ ['\\']
      ∧ quotesAfter false l' = some inQuotes)
  := by
  cases hends : endsEscaped l with
  | false =>
    rw [quotesAfter_eq, hends]
    rcases Nat.mod_two_eq_zero_or_one (quoteCount l) with hcount | hcount
    · simp [hcount]
    · simp [hcount]
  | true =>
    obtain ⟨l', rfl, hl'⟩ := exists_of_endsEscaped hends
    refine .inr (.inr ⟨rfl, l', decide (quoteCount l' % 2 = 1), rfl, ?_⟩)
    rw [quotesAfter_eq, hl']
    simp

/-- The semicolon between two texts is a cut: the parts are those of the first text and those of the
second one. -/
def CutAt (before after : List Char) : Prop :=
  parts false (before ++ ';' :: after) = parts false before ++ parts false after

/-- A part that goes on is no part as it is. -/
theorem join_prepend_ne {ps : List (List Char)} (hps : ps ≠ []) {l l' : List Char}
    (h : l'.length < l.length) (qs qs' : List (List Char)) :
  join ps (prepend l qs) ≠ join ps [l'] ++ qs'
  := by
  obtain ⟨ps, p, rfl⟩ := (List.eq_nil_or_concat ps).resolve_left hps
  rw [List.concat_eq_append, join_append_singleton, join_append_singleton, List.append_assoc]
  intro heq
  have heq := List.append_cancel_left heq
  rw [prepend_prepend] at heq
  cases qs with
  | nil =>
    have hlength := congrArg List.length (List.cons.inj heq).1
    simp at hlength
    omega
  | cons q qs =>
    have hlength := congrArg List.length (List.cons.inj heq).1
    simp at hlength
    omega

theorem parts_ne_nil (inQuotes : Bool) (l : List Char) :
  parts inQuotes l ≠ []
  := by
  obtain ⟨ps, p, h⟩ := exists_parts inQuotes l
  simp [h]

/-- Statements are cut where an even number of quotes stands before the semicolon and no backslash
escapes it. -/
theorem cutAt_iff (before after : List Char) :
  CutAt before after ↔ quoteCount before % 2 = 0 ∧ endsEscaped before = false
  := by
  rw [CutAt]
  obtain ⟨hquotes, hcount⟩ | ⟨hquotes, hcount⟩ | ⟨hends, before, inQuotes, rfl, hquotes⟩ :=
    quotesAfter_cases before
  · apply iff_of_true _ hcount
    obtain ⟨ps, p, hps⟩ := exists_parts false before
    have hcut : parts false (';' :: after) = [] :: parts false after := by
      rw [parts_cons_of_ne (by decide)]
      rfl
    rw [parts_append hquotes, hcut, hps, join_append_singleton]
    simp [prepend]
  · apply iff_of_false
    · have hgoesOn : parts true (';' :: after) = prepend [';'] (parts true after) := by
        rw [parts_cons_of_ne (by decide)]
        rfl
      have hends : join (parts false before) [[]] = parts false before := by
        have happend := parts_append hquotes []
        rw [List.append_nil] at happend
        exact happend.symm
      rw [parts_append hquotes, hgoesOn]
      have hne := @join_prepend_ne _ (parts_ne_nil false before) [';'] [] (by simp)
        (parts true after) (parts false after)
      rwa [hends] at hne
    · omega
  · apply iff_of_false
    · -- The semicolon belongs to the backslash before it.
      have hends := parts_append hquotes ['\\']
      have hgoesOn := parts_append hquotes ('\\' :: ';' :: after)
      rw [List.append_assoc, List.singleton_append, hends, hgoesOn]
      exact join_prepend_ne (parts_ne_nil _ _) (by simp) _ _
    · rw [hends]
      simp

end Statement

/-! ### Places -/

namespace Template

theorem marks_cons (c : Char) (t : Template) :
  (t.cons c).marks = some c :: t.marks
  := rfl

theorem marks_consPlace (t : Template) :
  t.consPlace.marks = none :: t.marks
  := by
  rw [marks, marks, consPlace, List.flatMap_cons]
  simp

/-- The characters and places of a text that goes on. -/
theorem marks_ofChars_append {inQuotes inQuotes' : Bool} {l : List Char}
    (h : Statement.quotesAfter inQuotes l = some inQuotes') (l' : List Char) :
  (ofChars inQuotes (l ++ l')).1.marks
    = (ofChars inQuotes l).1.marks ++ (ofChars inQuotes' l').1.marks
  := by
  fun_induction Statement.quotesAfter inQuotes l with
  | case1 inQuotes =>
    obtain rfl := Option.some.inj h
    rfl
  | case2 => cases h
  | case3 inQuotes c l ih =>
    rw [List.cons_append, List.cons_append, ofChars_escape, ofChars_escape]
    by_cases hplace : c = '?' ∧ !inQuotes
    · rw [if_pos hplace, if_pos hplace, marks_cons, marks_cons, ih h, List.cons_append]
    · rw [if_neg hplace, if_neg hplace, marks_cons, marks_cons, marks_cons, marks_cons, ih h,
        List.cons_append, List.cons_append]
  | case4 inQuotes c l hlast hmore ih =>
    have hslash := ne_backslash hlast hmore
    rw [List.cons_append, ofChars_cons_of_ne hslash, ofChars_cons_of_ne hslash]
    by_cases hquote : c = '"'
    · rw [if_pos hquote] at ih h
      rw [if_pos hquote, if_pos hquote, marks_cons, marks_cons, ih h, List.cons_append]
    · rw [if_neg hquote] at ih h
      rw [if_neg hquote, if_neg hquote]
      by_cases hplace : c = '?' ∧ !inQuotes
      · rw [if_pos hplace, if_pos hplace, marks_consPlace, marks_consPlace, ih h,
          List.cons_append]
      · rw [if_neg hplace, if_neg hplace, marks_cons, marks_cons, ih h, List.cons_append]

/-- The question mark between two texts is a place: the characters and places are those of the first
text, a place, and those of the second one. -/
def PlaceAt (before after : List Char) : Prop :=
  (ofChars false (before ++ '?' :: after)).1.marks
    = (ofChars false before).1.marks ++ none :: (ofChars false after).1.marks

/-- Fragments have places where an even number of quotes stands before the question mark and no
backslash escapes it. -/
theorem placeAt_iff (before after : List Char) :
  PlaceAt before after ↔ quoteCount before % 2 = 0 ∧ endsEscaped before = false
  := by
  rw [PlaceAt]
  obtain ⟨hquotes, hcount⟩ | ⟨hquotes, hcount⟩ | ⟨hends, before, inQuotes, rfl, hquotes⟩ :=
    Statement.quotesAfter_cases before
  · apply iff_of_true _ hcount
    rw [marks_ofChars_append hquotes, ofChars_cons_of_ne (by decide)]
    exact congrArg _ (marks_consPlace _)
  · apply iff_of_false
    · rw [marks_ofChars_append hquotes, ofChars_cons_of_ne (by decide)]
      intro heq
      cases (List.cons.inj (List.append_cancel_left heq)).1
    · omega
  · apply iff_of_false
    · rw [List.append_assoc, marks_ofChars_append hquotes, marks_ofChars_append hquotes,
        List.append_assoc, List.singleton_append, ofChars_escape]
      intro heq
      have heq := List.append_cancel_left heq
      cases inQuotes with
      | false => cases (List.cons.inj heq).1
      | true => cases (List.cons.inj (List.cons.inj heq).2).1
    · rw [hends]
      simp

end Template

/-! ### Phrases -/

theorem Encoding.isSpace_backslash (encoding : Encoding) :
  encoding.isSpace '\\' = false
  := by cases encoding <;> decide

/-- Only a quote begins a phrase. -/
theorem Lexeme.eq_of_read_phrase {isSpace : Char → Bool} {c : Char} {l phrase : List Char}
    {closed isPrefix : Bool} (h : (read isSpace c l).1 = .phrase phrase closed isPrefix) :
  c = '"' ∧ ∃ rest, readPhrase l = (phrase, closed, rest)
  := by
  have hword (c : Char) (l : List Char) :
      (readWord isSpace c l).1 ≠ .phrase phrase closed isPrefix := by
    rw [readWord]
    unfold finishWord
    split
    · simp
    · split <;> simp
  unfold read at h
  split at h
  · cases h
  · cases h
  · refine ⟨rfl, (readPhrase l).2.2, ?_⟩
    rw [phraseAfterQuote] at h
    dsimp only at h
    split at h
    · cases h
      rfl
    · cases h
      rfl
  · split at h
    · unfold readMode at h
      dsimp only at h
      split at h
      · cases h
      · cases h
    · exact absurd h (hword _ _)
  · split at h
    · cases h
    · exact absurd h (hword _ _)

namespace Query

/-- A query is read from the lexemes that follow its directives. A semicolon or a question mark in a
phrase among them is a cut or a place exactly if it is not escaped there and an odd number of stray
quotes stands before the phrase. -/
theorem cutAt_phrase_iff (options : ReadOptions) (text : String) {ys zs : List PlacedLexeme}
    {x : PlacedLexeme} {phrase : List Char} {closed isPrefix : Bool}
    (hxs : lexemes options.encoding.isSpace
      (Directive.readAll (text.toList.dropWhile options.encoding.isSpace)).2 = ys ++ x :: zs)
    (hx : x.lexeme = .phrase phrase closed isPrefix) :
  let directives := (Directive.readAll (text.toList.dropWhile options.encoding.isSpace)).1
  let strays := (directives.map Directive.strayQuotes).sum + PlacedLexeme.strayQuotes ys
  let body := Lexeme.phraseBody x.source.tail
  ∃ before ending : List Char, text.toList = before ++ '"' :: (body ++ ending)
    ∧ x.source = '"' :: (body ++ ending) ∧ Lexeme.unescaped body = phrase
    ∧ (if closed then ending.head? = some '"' else ending = [])
    ∧ ∀ inner after : List Char,
      (body = inner ++ ';' :: after →
        (Statement.CutAt (before ++ '"' :: inner) (after ++ ending)
          ↔ strays % 2 = 1 ∧ endsEscaped inner = false))
      ∧ (body = inner ++ '?' :: after →
        (Template.PlaceAt (before ++ '"' :: inner) (after ++ ending)
          ↔ strays % 2 = 1 ∧ endsEscaped inner = false))
  := by
  intro directives strays body
  have hquote : options.encoding.isSpace '"' = false :=
    options.encoding.isSpace_sign '"' (by simp)
  have hslash := options.encoding.isSpace_backslash
  obtain ⟨hpasses, c, l, rfl⟩ := passes_lexemes hquote hslash hxs
  obtain ⟨rfl, rest, hread⟩ := Lexeme.eq_of_read_phrase hx
  obtain ⟨closed', rest', hread', hbody, -, -⟩ := Lexeme.readPhrase_eq_body l
  rw [hread] at hread'
  obtain ⟨hphrase, hrest⟩ := Prod.mk.inj hread'
  obtain ⟨rfl, rfl⟩ := Prod.mk.inj hrest
  have hall : Passes strays text.toList ('"' :: l) :=
    (Passes.dropWhile (Text.plain_of_isSpace hquote hslash) _).zero_trans
      ((Directive.passes_readAll _).trans hpasses)
  obtain ⟨before, hbefore, hcount, hplain⟩ := hall
  have hends : ¬(endsEscaped before = true) := fun hends => (hplain hends '"' rfl).1 rfl
  refine ⟨before, Lexeme.phraseEnding closed rest, ?_, ?_, hphrase.symm, ?_, ?_⟩
  · exact hbefore.symm.trans (congrArg (before ++ '"' :: ·) hbody.symm)
  · exact congrArg ('"' :: ·) hbody.symm
  · cases closed <;> rfl
  · have hinner (inner after : List Char) (h : body = inner ++ after) :
        quoteCount (before ++ '"' :: inner) % 2 = 0 ∧ endsEscaped (before ++ '"' :: inner) = false
          ↔ strays % 2 = 1 ∧ endsEscaped inner = false := by
      have hzero := quoteCount_le_append inner after
      have hnone : quoteCount body = 0 := Lexeme.quoteCount_phraseBody l
      rw [← h, hnone, Nat.le_zero] at hzero
      obtain ⟨hquotes, hescaped⟩ := @quoteCount_append before ('"' :: inner) fun h => absurd h hends
      rw [hquotes, hescaped (by simp), quoteCount_cons_of_ne (by decide), if_pos rfl, hzero,
        endsEscaped_cons_of_ne (by decide)]
      apply and_congr_left'
      omega
    intro inner after
    refine ⟨fun h => ?_, fun h => ?_⟩
    · rw [Statement.cutAt_iff, hinner _ _ h]
    · rw [Template.placeAt_iff, hinner _ _ h]

/-- Behind a word that holds a quote, a semicolon in a phrase is a cut and a question mark in it is
a place. -/
theorem cutAt_phrase_iff_stray :
  let text := "a\"b \"c;d?\""
  let x : PlacedLexeme := ⟨.phrase "c;d?".toList true false, "\"c;d?\"".toList, []⟩
  let y : PlacedLexeme := ⟨.word "a\"b".toList false, text.toList, " \"c;d?\"".toList⟩
  lexemes Encoding.unspecified.isSpace
      (Directive.readAll (text.toList.dropWhile Encoding.unspecified.isSpace)).2 = [y, x]
    ∧ Statement.CutAt "a\"b \"c".toList "d?\"".toList
    ∧ Template.PlaceAt "a\"b \"c;d".toList "\"".toList
  := by
  intro text x y
  have hxs : lexemes Encoding.unspecified.isSpace
      (Directive.readAll (text.toList.dropWhile Encoding.unspecified.isSpace)).2
        = [y] ++ x :: [] := by decide +kernel
  obtain ⟨before, ending, htext, hsource, -, -, hiff⟩ := cutAt_phrase_iff .standard text hxs rfl
  have hbody : Lexeme.phraseBody x.source.tail = "c;d?".toList := by decide
  have hbefore : text.toList = "a\"b ".toList ++ x.source := by decide
  have hquoted : x.source.tail = "c;d?".toList ++ ['"'] := by decide
  have hstray : ((Directive.readAll
      (text.toList.dropWhile Encoding.unspecified.isSpace)).1.map Directive.strayQuotes).sum
        + PlacedLexeme.strayQuotes [y] = 1 := by decide +kernel
  rw [← hsource] at htext
  obtain rfl : "a\"b ".toList = before := List.append_cancel_right (hbefore.symm.trans htext)
  obtain rfl : ['"'] = ending := by
    have htail := hquoted.symm.trans (List.cons.inj hsource).2
    rw [hbody] at htail
    exact List.append_cancel_left htail
  have hstray := congrArg (· % 2) hstray
  exact ⟨hxs, ((hiff ['c'] ['d', '?']).1 hbody).mpr ⟨hstray, rfl⟩,
    ((hiff ['c', ';', 'd'] []).2 hbody).mpr ⟨hstray, rfl⟩⟩

/-- A phrase that stands behind a word with a quote is cut, and a question mark in it is a place. -/
theorem cut_in_phrase :
  let term (text : String) (isPhrase : Bool) : Expr := .term ⟨text, false, isPhrase, 5, none⟩
  let root (text : String) := (read .standard text).value.toOption.map Query.root
  root "a\"b \"c;d\"" = some (.join .or (term "a\"b" false) (term "c;d" true))
    ∧ Statement.queries "a\"b \"c;d\"".toList = ["a\"b \"c", "d\""]
    ∧ root "a\"b \"c?d\"" = some (.join .or (term "a\"b" false) (term "c?d" true))
    ∧ (Draft.start.append "a\"b \"c?d\"".toList).awaitsValue = true
  := by
  refine ⟨?_, ?_, ?_, ?_⟩ <;> decide +kernel

end Query

end Retrieval
