import Retrieval.Proofs.Query.Quote
import Retrieval.Proofs.Query.Varies
import Retrieval.Proofs.Session.Template

/-!
# Values in open places

A place of a query is open if the quote of a value in it begins a lexeme, which does not depend on
the value. Which lexemes stand around the value does not depend on it either then, so a query in
which every place is open is read in the same way whatever the values are.
-/

namespace Retrieval

/-! ### Blanks at the ends -/

namespace Text

/-- The text without the blanks at its end. -/
def trimEnd (l : List Char) : List Char :=
  (l.reverse.dropWhile isBlank).reverse

theorem trim_ofList (l : List Char) :
  trim (String.ofList l) = String.ofList (trimEnd (l.dropWhile isBlank))
  := by
  rw [trim, String.toList_ofList]
  rfl

/-- A quote stops the blanks at the end. -/
theorem trimEnd_append_quote (l rest : List Char) :
  trimEnd (l ++ '"' :: rest) = l ++ '"' :: trimEnd rest
  := by
  have hdrop := (takeWhile_append_quote (p := isBlank) (by decide) rest.reverse l.reverse).2
  have hreverse : (l ++ '"' :: rest).reverse = rest.reverse ++ '"' :: l.reverse := by simp
  rw [trimEnd, hreverse, hdrop]
  simp [trimEnd]

/-- Blanks are taken away before and after a quote. -/
theorem trim_append_quote (l rest : List Char) :
  trim (String.ofList (l ++ '"' :: rest))
    = String.ofList (l.dropWhile isBlank ++ '"' :: trimEnd rest)
  := by
  rw [trim_ofList, (takeWhile_append_quote (by decide) l rest).2, trimEnd_append_quote]

end Text

namespace Template

/-- The texts without the blanks at the end of the last one. -/
def trimLast : List (List Char) → List (List Char)
  | [] => []
  | [text] => [Text.trimEnd text]
  | text :: texts => text :: trimLast texts

theorem length_trimLast (texts : List (List Char)) :
  (trimLast texts).length = texts.length
  := by
  induction texts with
  | nil => rfl
  | cons text texts ih =>
    cases texts with
    | nil => rfl
    | cons text' texts => exact congrArg Nat.succ ih

theorem trimLast_ne_nil {texts : List (List Char)} (hne : texts ≠ []) :
  trimLast texts ≠ []
  := by
  intro hnil
  have hnone := length_trimLast texts
  rw [hnil] at hnone
  apply hne (List.length_eq_zero_iff.mp hnone.symm)

theorem dropLast_trimLast (texts : List (List Char)) :
  (trimLast texts).dropLast = texts.dropLast
  := by
  induction texts with
  | nil => rfl
  | cons text texts ih =>
    cases texts with
    | nil => rfl
    | cons text' texts =>
      have hne := List.cons_ne_nil text' texts
      rw [trimLast, List.dropLast_cons_of_ne_nil (trimLast_ne_nil hne), ih,
        List.dropLast_cons_of_ne_nil hne]
      apply hne

theorem trimEnd_append_quoteValue (l value rest : List Char) :
  Text.trimEnd (l ++ (quoteValue value ++ rest)) = l ++ (quoteValue value ++ Text.trimEnd rest)
  := by
  rw [Lexeme.quoteValue_append, Lexeme.quoteValue_append, Text.trimEnd_append_quote,
    ← List.cons_append, Text.trimEnd_append_quote]
  rfl

/-- Values begin with a quote. -/
theorem exists_renderAfter {values : List String} {texts : List (List Char)}
    (hlength : values.length = texts.length) (hne : texts ≠ []) :
  ∃ rest, renderAfter values texts = '"' :: rest
  := by
  cases values with
  | nil => exact absurd (List.length_eq_zero_iff.mp hlength.symm) hne
  | cons value values =>
    cases texts with
    | nil => exact absurd rfl hne
    | cons text texts =>
      use Lexeme.escaped value.toList ++ '"' :: (text ++ renderAfter values texts)
      rw [renderAfter, Lexeme.quoteValue_append]

/-- Values keep the blanks before them. -/
theorem trimEnd_append_renderAfter (l : List Char) {values : List String}
    {texts : List (List Char)} (hlength : values.length = texts.length) (hne : texts ≠ []) :
  Text.trimEnd (l ++ renderAfter values texts) = l ++ renderAfter values (trimLast texts)
  := by
  induction texts generalizing l values with
  | nil => exact absurd rfl hne
  | cons text texts ih =>
    cases values with
    | nil => cases hlength
    | cons value values =>
      rw [renderAfter, trimEnd_append_quoteValue]
      cases texts with
      | nil =>
        obtain rfl := List.length_eq_zero_iff.mp (Nat.succ.inj hlength)
        simp [renderAfter, trimLast]
      | cons text' texts =>
        rw [ih text (Nat.succ.inj hlength) (by simp)]
        rfl

theorem drop_trimLast {place : Nat} {texts : List (List Char)} (h : place < texts.length) :
  (trimLast texts).drop place = trimLast (texts.drop place)
  := by
  induction texts generalizing place with
  | nil => cases h
  | cons text texts ih =>
    cases place with
    | zero => rfl
    | succ place =>
      cases texts with
      | nil => exact absurd (Nat.lt_of_succ_lt_succ h) (Nat.not_lt_zero place)
      | cons text' texts => exact ih (Nat.lt_of_succ_lt_succ h)

theorem getElem?_trimLast {place : Nat} {texts : List (List Char)}
    (h : place + 1 < texts.length) :
  (trimLast texts)[place]? = texts[place]?
  := by
  have hshort : place < texts.length - 1 := by omega
  have hsame := congrArg (fun texts => texts[place]?) (dropLast_trimLast texts)
  simp only [List.getElem?_dropLast, length_trimLast, if_pos hshort] at hsame
  exact hsame

/-- The query that a template gives with values in its places. -/
def query (values : List String) (t : Template) : String :=
  Text.trim (String.ofList (t.render values))

/-- The blanks around a query do not belong to the values. -/
theorem query_eq {t : Template} {values : List String} (hlength : values.length = t.places)
    (hne : t.afterPlaces ≠ []) :
  t.query values
    = String.ofList (t.start.dropWhile Text.isBlank ++ renderAfter values (trimLast t.afterPlaces))
  := by
  have hend := trimEnd_append_renderAfter (t.start.dropWhile Text.isBlank) hlength hne
  obtain ⟨rest, hrest⟩ := exists_renderAfter hlength hne
  rw [query, render, hrest, Text.trim_append_quote]
  rw [hrest, Text.trimEnd_append_quote] at hend
  rw [hend]

theorem isEmpty_query {t : Template} {values : List String} (hlength : values.length = t.places)
    (hne : t.afterPlaces ≠ []) :
  (t.query values).isEmpty = false
  := by
  obtain ⟨rest, hrest⟩ :=
    exists_renderAfter (hlength.trans (length_trimLast _).symm) (trimLast_ne_nil hne)
  rw [query_eq hlength hne, hrest]
  simp

end Template

/-! ### Lexemes around values -/

namespace PlacedLexeme

variable {zs : List (String × String)} {ys ys' xs xs' : List PlacedLexeme}

theorem Vary.append_left (hsame : ys.map lexeme = ys'.map lexeme) (h : Vary zs xs xs') :
  Vary zs (ys ++ xs) (ys' ++ xs')
  := by
  induction ys generalizing ys' with
  | nil =>
    obtain rfl := List.map_eq_nil_iff.mp hsame.symm
    apply h
  | cons y ys ih =>
    cases ys' with
    | nil => cases hsame
    | cons y' ys' =>
      obtain ⟨hy, hys⟩ := List.cons.inj hsame
      exact .same hy (ih hys)

theorem Vary.refl (xs : List PlacedLexeme) :
  Vary [] xs xs
  := by
  induction xs with
  | nil => exact .nil
  | cons x xs ih => exact .same rfl ih

end PlacedLexeme

theorem length_lexemes_le (isSpace : Char → Bool) (l : List Char) :
  (lexemes isSpace l).length ≤ l.length
  := by
  fun_induction lexemes isSpace l with
  | case1 => exact Nat.zero_le _
  | case2 l c l' _ hlt read ih =>
    rw [List.length_cons]
    apply Nat.succ_le_of_lt (Nat.lt_of_le_of_lt ih hlt)

section places

variable {isSpace : Char → Bool} (hquote : isSpace '"' = false)

include hquote in
/-- A value is a lexeme, and a star after it may belong to it. -/
theorem lexemes_quoteValue {value : String} (hvalue : value ≠ "") (rest : List Char) :
  lexemes isSpace (quoteValue value.toList ++ rest)
    = ⟨.phrase value.toList true (Lexeme.readMark isSpace rest).1, quoteValue value.toList ++ rest,
        (Lexeme.readMark isSpace rest).2⟩
      :: lexemes isSpace (Lexeme.readMark isSpace rest).2
  := by
  have htext : value.toList ≠ [] := by simpa using hvalue
  have hread : Lexeme.read isSpace '"' (Lexeme.escaped value.toList ++ '"' :: rest)
      = (.phrase value.toList true (Lexeme.readMark isSpace rest).1,
          (Lexeme.readMark isSpace rest).2) := by
    change Lexeme.phraseAfterQuote isSpace _ = _
    rw [Lexeme.phraseAfterQuote, Lexeme.readPhrase_escaped]
    simp [htext]
  rw [Lexeme.quoteValue_append, lexemes_of_not_isSpace hquote, hread]

include hquote in
/-- What comes after a value begins a lexeme of its own. -/
theorem begins_quoteValue_iff {value : String} (hvalue : value ≠ "") {l rest : List Char}
    (hl : l <:+ rest) :
  Begins (lexemes isSpace (quoteValue value.toList ++ rest)) l
    ↔ Begins (lexemes isSpace (Lexeme.readMark isSpace rest).2) l
  := by
  rw [lexemes_quoteValue hquote hvalue, ← List.singleton_append]
  apply begins_append _ hl
  rw [List.forall_mem_singleton, List.length_append]
  exact Nat.lt_add_of_pos_left (Nat.succ_pos _)

/-- Whether a quote after a text begins a lexeme, where the text comes after a value. -/
def OpensAfter (isSpace : Char → Bool) (text : List Char) : Prop :=
  ReachesQuote isSpace (Lexeme.readMark isSpace (text ++ ['"'])).2

include hquote in
/-- Whether the quote of the next value begins a lexeme does not depend on the value. -/
theorem begins_iff_opensAfter (text rest : List Char) :
  Begins (lexemes isSpace (Lexeme.readMark isSpace (text ++ '"' :: rest)).2) ('"' :: rest)
    ↔ OpensAfter isSpace text
  := by
  obtain ⟨isPrefix, r, hmark⟩ := Lexeme.stopsAtQuote_readMark hquote text
  rw [OpensAfter, hmark, hmark]
  apply begins_iff_reachesQuote hquote

include hquote in
/-- After a value and a text before an open place there are lexemes that do not depend on what comes
after the quote. -/
theorem OpensAfter.exists_lexemes {text : List Char} (h : OpensAfter isSpace text) :
  ∃ isPrefix : Bool, ∃ before : List Lexeme, ∀ rest, ∃ l xs,
    Lexeme.readMark isSpace (text ++ '"' :: rest) = (isPrefix, l)
      ∧ xs.map PlacedLexeme.lexeme = before ∧ (∀ x ∈ xs, rest.length + 1 < x.source.length)
      ∧ lexemes isSpace l = xs ++ lexemes isSpace ('"' :: rest)
  := by
  obtain ⟨isPrefix, r, hmark⟩ := Lexeme.stopsAtQuote_readMark hquote text
  rw [OpensAfter, hmark] at h
  obtain ⟨before, hbefore⟩ := h.endsAtQuote hquote
  use isPrefix, before
  intro rest
  obtain ⟨xs, hxs, hlong, happend⟩ := hbefore rest
  exact ⟨_, xs, hmark rest, hxs, hlong, happend⟩

include hquote in
/-- What begins a lexeme after an open place does so whatever comes before the place. -/
theorem OpensAfter.begins_iff {text : List Char} (h : OpensAfter isSpace text)
    {l rest : List Char} (hl : l <:+ '"' :: rest) :
  Begins (lexemes isSpace (Lexeme.readMark isSpace (text ++ '"' :: rest)).2) l
    ↔ Begins (lexemes isSpace ('"' :: rest)) l
  := by
  obtain ⟨isPrefix, before, hlexemes⟩ := h.exists_lexemes hquote
  obtain ⟨left, xs, hmark, -, hlong, happend⟩ := hlexemes rest
  rw [hmark, happend]
  apply begins_append hlong hl

include hquote in
/-- The lexemes between two values do not depend on the values. -/
theorem OpensAfter.vary {text : List Char} (h : OpensAfter isSpace text)
    {zs : List (String × String)} {rest rest' : List Char}
    (hvary : PlacedLexeme.Vary zs (lexemes isSpace ('"' :: rest))
      (lexemes isSpace ('"' :: rest'))) :
  (Lexeme.readMark isSpace (text ++ '"' :: rest)).1
      = (Lexeme.readMark isSpace (text ++ '"' :: rest')).1
    ∧ PlacedLexeme.Vary zs (lexemes isSpace (Lexeme.readMark isSpace (text ++ '"' :: rest)).2)
        (lexemes isSpace (Lexeme.readMark isSpace (text ++ '"' :: rest')).2)
  := by
  obtain ⟨isPrefix, before, hlexemes⟩ := h.exists_lexemes hquote
  obtain ⟨l, xs, hmark, hxs, -, happend⟩ := hlexemes rest
  obtain ⟨l', xs', hmark', hxs', -, happend'⟩ := hlexemes rest'
  rw [hmark, hmark', happend, happend']
  use rfl
  apply hvary.append_left (hxs.trans hxs'.symm)

include hquote in
/-- Values in open places are phrases, among lexemes that do not depend on them. -/
theorem vary_renderAfter {zs : List (String × String)} {texts : List (List Char)}
    (hlength : zs.length = texts.length) (hvalues : ∀ z ∈ zs, z.1 ≠ "" ∧ z.2 ≠ "")
    (hopens : ∀ place, place + 1 < texts.length →
      ∃ text ∈ texts[place]?, OpensAfter isSpace text) :
  PlacedLexeme.Vary zs (lexemes isSpace (Template.renderAfter (zs.map Prod.fst) texts))
    (lexemes isSpace (Template.renderAfter (zs.map Prod.snd) texts))
  := by
  induction texts generalizing zs with
  | nil =>
    obtain rfl := List.length_eq_zero_iff.mp hlength
    exact .refl _
  | cons text texts ih =>
    obtain ⟨⟨v, w⟩, zs, rfl⟩ := List.exists_cons_of_length_eq_add_one hlength
    obtain ⟨hv, hw⟩ := hvalues (v, w) List.mem_cons_self
    have hlength' : zs.length = texts.length := Nat.succ.inj hlength
    have hvalues' : ∀ z ∈ zs, z.1 ≠ "" ∧ z.2 ≠ "" :=
      fun z hz => hvalues z (List.mem_cons_of_mem _ hz)
    simp only [List.map_cons, Template.renderAfter]
    rw [lexemes_quoteValue hquote hv, lexemes_quoteValue hquote hw]
    cases texts with
    | nil =>
      obtain rfl := List.length_eq_zero_iff.mp hlength'
      exact .phrase hv hw rfl rfl (.refl _)
    | cons text' texts =>
      have hvary := ih hlength' hvalues' fun place hplace =>
        hopens (place + 1) (Nat.succ_lt_succ hplace)
      obtain ⟨_, hmem, hopen⟩ := hopens 0 (by simp)
      obtain rfl := Option.some.inj hmem
      obtain ⟨rest, hrest⟩ := Template.exists_renderAfter
        ((List.length_map Prod.fst).trans hlength') (List.cons_ne_nil text' texts)
      obtain ⟨rest', hrest'⟩ := Template.exists_renderAfter
        ((List.length_map Prod.snd).trans hlength') (List.cons_ne_nil text' texts)
      rw [hrest, hrest'] at hvary ⊢
      obtain ⟨hmark, hlater⟩ := hopen.vary hquote hvary
      rw [hmark]
      exact .phrase hv hw rfl rfl hlater

/-- Whether a quote after a text begins a lexeme, where a query begins with the text. -/
def OpensFirst (isSpace : Char → Bool) (start : List Char) : Prop :=
  ReachesQuote isSpace
    (Directive.readAll ((start.dropWhile Text.isBlank ++ ['"']).dropWhile isSpace)).2

include hquote in
/-- Whether the quote of a first value begins a lexeme does not depend on the value. -/
theorem begins_iff_opensFirst (start rest : List Char) :
  Begins (lexemes isSpace (Directive.readAll
      ((start.dropWhile Text.isBlank ++ '"' :: rest).dropWhile isSpace)).2) ('"' :: rest)
    ↔ OpensFirst isSpace start
  := by
  have hdrop := fun rest =>
    (takeWhile_append_quote hquote (start.dropWhile Text.isBlank) rest).2
  rw [OpensFirst, hdrop, hdrop]
  obtain htaken | ⟨directives, r, hread⟩ :=
    Directive.meetsQuote_readAll ((start.dropWhile Text.isBlank).dropWhile isSpace)
  · exact iff_of_false (not_begins_cons (htaken rest) _) (not_begins_cons (htaken []) _)
  · rw [hread, hread]
    apply begins_iff_reachesQuote hquote

include hquote in
/-- Before an open place the directives end, and there are lexemes that do not depend on what
comes after the quote. -/
theorem OpensFirst.exists_lexemes {start : List Char} (h : OpensFirst isSpace start) :
  ∃ directives : List Directive, ∃ before : List Lexeme, ∀ rest, ∃ l xs,
    Directive.readAll ((start.dropWhile Text.isBlank ++ '"' :: rest).dropWhile isSpace)
        = (directives, l)
      ∧ xs.map PlacedLexeme.lexeme = before ∧ (∀ x ∈ xs, rest.length + 1 < x.source.length)
      ∧ lexemes isSpace l = xs ++ lexemes isSpace ('"' :: rest)
  := by
  have hdrop := fun rest =>
    (takeWhile_append_quote hquote (start.dropWhile Text.isBlank) rest).2
  rw [OpensFirst, hdrop] at h
  obtain htaken | ⟨directives, r, hread⟩ :=
    Directive.meetsQuote_readAll ((start.dropWhile Text.isBlank).dropWhile isSpace)
  · exact absurd h (not_begins_cons (htaken []) _)
  · rw [hread] at h
    obtain ⟨before, hbefore⟩ := h.endsAtQuote hquote
    use directives, before
    intro rest
    obtain ⟨xs, hxs, hlong, happend⟩ := hbefore rest
    rw [hdrop, hread]
    exact ⟨_, xs, rfl, hxs, hlong, happend⟩

include hquote in
/-- What begins a lexeme after an open place does so whatever comes before the place. -/
theorem OpensFirst.begins_iff {start : List Char} (h : OpensFirst isSpace start)
    {l rest : List Char} (hl : l <:+ '"' :: rest) :
  Begins (lexemes isSpace (Directive.readAll
      ((start.dropWhile Text.isBlank ++ '"' :: rest).dropWhile isSpace)).2) l
    ↔ Begins (lexemes isSpace ('"' :: rest)) l
  := by
  obtain ⟨directives, before, hlexemes⟩ := h.exists_lexemes hquote
  obtain ⟨left, xs, hread, -, hlong, happend⟩ := hlexemes rest
  rw [hread, happend]
  apply begins_append hlong hl

end places

/-! ### Reading queries alike -/

namespace Query

/-- Two texts that are read as queries with the same directives and the same expression, up to
the texts of some phrases. Of the given phrases `rs` are in the expressions, in their order. The only
others are `ls`, in operands that are dropped, each of which is remarked, and `us`, the last ones, in
the rest of the queries, which comes after a bracket that closes nothing. -/
def ReadAlike (options : ReadOptions) (zs : List (String × String)) (text text' : String) :
    Prop :=
  ∃ q q' ms us rs ls, (read options text).value = .ok q ∧ (read options text').value = .ok q'
    ∧ q.directives = q'.directives ∧ zs = ms ++ us ∧ Parted ms rs ls
    ∧ q.root.Varies rs q'.root ∧ Operand.Vary ls (dropped options text) (dropped options text')
    ∧ (read options text).remarks.count .leadingExclusion = (dropped options text).length
    ∧ PlacedLexeme.Vary us (lexemes options.encoding.isSpace q.rest.toList)
        (lexemes options.encoding.isSpace q'.rest.toList)
    ∧ (us ≠ [] → ∃ place, .unmatchedClose place ∈ (read options text).remarks)

/-- All phrases are in the expressions if nothing is remarked to be dropped or left. -/
theorem ReadAlike.all_kept {options : ReadOptions} {zs : List (String × String)}
    {text text' : String} (h : ReadAlike options zs text text')
    (hdropped : .leadingExclusion ∉ (read options text).remarks)
    (hleft : ∀ place, .unmatchedClose place ∉ (read options text).remarks) :
  ∃ q q', (read options text).value = .ok q ∧ (read options text').value = .ok q'
    ∧ q.directives = q'.directives ∧ q.root.Varies zs q'.root
  := by
  obtain ⟨q, q', ms, us, rs, ls, hq, hq', hdirectives, rfl, hparted, hroot, hlost, hcount, -,
    hclose⟩ := h
  have hus : us = [] := by
    by_contra hne
    obtain ⟨place, hplace⟩ := hclose hne
    apply hleft place hplace
  have hnone : dropped options text = [] := by
    rw [List.count_eq_zero.mpr hdropped] at hcount
    apply List.length_eq_zero_iff.mp hcount.symm
  rw [hnone] at hlost
  obtain rfl := hlost.eq_nil
  rw [hus, List.append_nil, ← hparted.eq_of_nil]
  exact ⟨q, q', hq, hq', hdirectives, hroot⟩

/-- How terms are read after directives. -/
def settingAfter (options : ReadOptions) (directives : List Directive) (l : List Char) :
    Assembly.Setting where
  standard := (directives.foldl Directive.apply
    (.ofOperator options.defaultOperator)).defaultOperator.connective
  termWeight := options.termWeight
  size := Text.byteLength l

/-- A query is its directives, and what is made of the lexemes after them. -/
theorem read_ofList {options : ReadOptions} (hbudget : options.budget ≠ 0) {l rest : List Char}
    {directives : List Directive}
    (hread : Directive.readAll (l.dropWhile options.encoding.isSpace) = (directives, rest)) :
  read options (String.ofList l)
    = let run := (Assembly.start options.budget.toNat).run (settingAfter options directives l)
        (lexemes options.encoding.isSpace rest)
      ⟨directives.flatMap Directive.remarks ++ run.remarks, run.value.map fun (root, left) =>
        ⟨root, directives.foldl Directive.apply (.ofOperator options.defaultOperator),
          String.ofList left⟩⟩
  := by
  rw [read, String.toList_ofList, readChars, if_neg hbudget]
  simp only [Directives.read, hread]
  rfl

/-- The operands that are dropped are those of the lexemes after the directives. -/
theorem dropped_ofList {options : ReadOptions} {l rest : List Char} {directives : List Directive}
    (hread : Directive.readAll (l.dropWhile options.encoding.isSpace) = (directives, rest)) :
  dropped options (String.ofList l)
    = (Assembly.start options.budget.toNat).dropped (settingAfter options directives l)
        (lexemes options.encoding.isSpace rest)
  := by
  rw [dropped, String.toList_ofList]
  simp only [Directives.read, hread]
  rfl

/-- The same directives stand before lexemes that are the same up to the texts of some
phrases. -/
theorem readAlike_of_vary {options : ReadOptions} {zs : List (String × String)}
    {l l' rest rest' : List Char} {directives : List Directive}
    (hread : Directive.readAll (l.dropWhile options.encoding.isSpace) = (directives, rest))
    (hread' : Directive.readAll (l'.dropWhile options.encoding.isSpace) = (directives, rest'))
    (hvary : PlacedLexeme.Vary zs (lexemes options.encoding.isSpace rest)
      (lexemes options.encoding.isSpace rest'))
    (hlength : l.length < options.budget.toNat) :
  ReadAlike options zs (String.ofList l) (String.ofList l')
  := by
  have hbudget : options.budget ≠ 0 := by
    intro hzero
    rw [hzero] at hlength
    cases hlength
  have hshort : (lexemes options.encoding.isSpace rest).length < options.budget.toNat := by
    have hlexemes := length_lexemes_le options.encoding.isSpace rest
    have hall := Directive.length_readAll_le (l.dropWhile options.encoding.isSpace)
    have hdrop := (List.dropWhile_suffix options.encoding.isSpace (l := l)).length_le
    simp only [hread] at hall
    omega
  have hstandard : (settingAfter options directives l).standard
      = (settingAfter options directives l').standard := rfl
  have hweight : (settingAfter options directives l).termWeight
      = (settingAfter options directives l').termWeight := rfl
  obtain ⟨e, e', left, left', rs, ls, ms, us, he, he', hms, hparted, hvaries, hdropped, hleft,
      hclose⟩ :=
    (Assembly.Varies.start options.budget.toNat).run hstandard hweight hvary hshort
  let written := directives.foldl Directive.apply (.ofOperator options.defaultOperator)
  refine ⟨⟨e, written, String.ofList left⟩, ⟨e', written, String.ofList left'⟩, ms, us, rs, ls,
    ?_, ?_, rfl, hms, hparted, hvaries, ?_, count_remarks_read options _ hbudget, ?_, ?_⟩
  · rw [read_ofList hbudget hread]
    simp only [he]
    rfl
  · rw [read_ofList hbudget hread']
    simp only [he']
    rfl
  · rw [dropped_ofList hread, dropped_ofList hread']
    apply hdropped
  · rw [String.toList_ofList, String.toList_ofList]
    apply hleft
  · intro hus
    obtain ⟨place, hplace⟩ := hclose hus
    use place
    rw [read_ofList hbudget hread]
    apply List.mem_append_right _ hplace

/-- A text without values is read like itself. -/
theorem readAlike_refl {options : ReadOptions} {text : String}
    (hlength : text.toList.length < options.budget.toNat) :
  ReadAlike options [] text text
  := by
  have h : ReadAlike options [] (String.ofList text.toList) (String.ofList text.toList) :=
    readAlike_of_vary rfl rfl (.refl _) hlength
  rw [String.ofList_toList] at h
  apply h

end Query

/-! ### Open templates -/

namespace Template

/-- Whether the quote of a value in a place begins a lexeme, where the values before it do. -/
def OpensAt (isSpace : Char → Bool) (t : Template) : Nat → Prop
  | 0 => OpensFirst isSpace t.start
  | place + 1 => ∃ text ∈ t.afterPlaces[place]?, OpensAfter isSpace text

/-- A template of a query in which the quote of every value begins a lexeme. -/
def Open (isSpace : Char → Bool) (t : Template) : Prop :=
  ∀ place < t.places, t.OpensAt isSpace place

/-- Values in open places are phrases of a query that is the same but for them. -/
theorem Open.readAlike {options : ReadOptions} {t : Template}
    (h : t.Open options.encoding.isSpace) (hne : t.afterPlaces ≠ [])
    {zs : List (String × String)} (hlength : zs.length = t.places)
    (hvalues : ∀ z ∈ zs, z.1 ≠ "" ∧ z.2 ≠ "")
    (hbudget : (t.query (zs.map Prod.fst)).toList.length < options.budget.toNat) :
  Query.ReadAlike options zs (t.query (zs.map Prod.fst)) (t.query (zs.map Prod.snd))
  := by
  have hquote : options.encoding.isSpace '"' = false :=
    options.encoding.isSpace_sign '"' (by simp)
  rw [query_eq ((List.length_map Prod.fst).trans hlength) hne] at hbudget ⊢
  rw [query_eq ((List.length_map Prod.snd).trans hlength) hne]
  rw [String.toList_ofList] at hbudget
  have hfirst : OpensFirst options.encoding.isSpace t.start :=
    h 0 (List.length_pos_iff.mpr hne)
  obtain ⟨directives, before, hfirst⟩ := hfirst.exists_lexemes hquote
  have hne' := trimLast_ne_nil hne
  have hlength' : zs.length = (trimLast t.afterPlaces).length := by
    rw [length_trimLast]
    apply hlength
  have hvary := vary_renderAfter hquote hlength' hvalues <| by
    intro place hplace
    rw [length_trimLast] at hplace
    rw [getElem?_trimLast hplace]
    apply h (place + 1) hplace
  obtain ⟨rest, hrest⟩ := exists_renderAfter ((List.length_map Prod.fst).trans hlength') hne'
  obtain ⟨rest', hrest'⟩ := exists_renderAfter ((List.length_map Prod.snd).trans hlength') hne'
  rw [hrest, hrest'] at hvary
  rw [hrest] at hbudget ⊢
  rw [hrest']
  obtain ⟨l, xs, hread, hxs, -, happend⟩ := hfirst rest
  obtain ⟨l', xs', hread', hxs', -, happend'⟩ := hfirst rest'
  apply Query.readAlike_of_vary hread hread' _ hbudget
  rw [happend, happend']
  apply hvary.append_left (hxs.trans hxs'.symm)

/-! ### Where values begin -/

/-- Whether a lexeme of the query with values begins at the quote of the value in a place. -/
def BeginsAt (options : ReadOptions) (t : Template) (values : List String) (place : Nat) : Prop :=
  let isSpace := options.encoding.isSpace
  Begins (lexemes isSpace (Directive.readAll ((t.query values).toList.dropWhile isSpace)).2)
    (Text.trimEnd (renderAfter (values.drop place) (t.afterPlaces.drop place)))

theorem renderAfter_drop_suffix (place : Nat) (values : List String) (texts : List (List Char)) :
  renderAfter (values.drop place) (texts.drop place) <:+ renderAfter values texts
  := by
  induction place generalizing values texts with
  | zero => exact List.suffix_refl _
  | succ place ih =>
    cases values with
    | nil =>
      rw [List.drop_nil, renderAfter]
      · exact List.nil_suffix
      · simp
    | cons value values =>
      cases texts with
      | nil =>
        rw [List.drop_nil, renderAfter]
        · exact List.nil_suffix
        · simp
      | cons text texts =>
        rw [renderAfter]
        apply (ih values texts).trans
        rw [← List.append_assoc]
        apply List.suffix_append

variable {isSpace : Char → Bool}

/-- Whether a value after others begins a lexeme can be told from the text before it, if the others
begin lexemes. -/
theorem begins_renderAfter_iff (hquote : isSpace '"' = false) {values : List String}
    {texts : List (List Char)} (hlength : values.length = texts.length)
    (hvalues : ∀ value ∈ values, value ≠ "") {place : Nat} (hplace : place + 1 < texts.length)
    (hopens : ∀ earlier < place, ∃ text ∈ texts[earlier]?, OpensAfter isSpace text) :
  Begins (lexemes isSpace (renderAfter values texts))
      (renderAfter (values.drop (place + 1)) (texts.drop (place + 1)))
    ↔ ∃ text ∈ texts[place]?, OpensAfter isSpace text
  := by
  induction texts generalizing values place with
  | nil => cases hplace
  | cons text texts ih =>
    obtain ⟨value, values, rfl⟩ := List.exists_cons_of_length_eq_add_one hlength
    obtain ⟨hvalue, hvalues⟩ := List.forall_mem_cons.mp hvalues
    have hlength' : values.length = texts.length := Nat.succ.inj hlength
    have hplace' : place < texts.length := Nat.lt_of_succ_lt_succ hplace
    have hne : texts ≠ [] := List.length_pos_iff.mp (Nat.zero_lt_of_lt hplace')
    obtain ⟨rest, hrest⟩ := exists_renderAfter hlength' hne
    have hsuffix := renderAfter_drop_suffix place values texts
    rw [renderAfter, List.drop_succ_cons, List.drop_succ_cons,
      begins_quoteValue_iff hquote hvalue (hsuffix.trans (List.suffix_append text _))]
    cases place with
    | zero =>
      rw [List.drop_zero, List.drop_zero, hrest, begins_iff_opensAfter hquote]
      simp
    | succ place =>
      obtain ⟨_, hmem, hopen⟩ := hopens 0 (Nat.succ_pos place)
      obtain rfl := Option.some.inj hmem
      have hlater := ih hlength' hvalues hplace' fun earlier hlt =>
        hopens (earlier + 1) (Nat.succ_lt_succ hlt)
      rw [hrest] at hsuffix hlater ⊢
      rw [hopen.begins_iff hquote hsuffix]
      apply hlater

/-- A place in front of which all are open is open if and only if a lexeme begins at the quote of
the value in it, whatever the values are. -/
theorem beginsAt_iff {options : ReadOptions} {t : Template} {values : List String}
    (hlength : values.length = t.places) (hvalues : ∀ value ∈ values, value ≠ "") {place : Nat}
    (hplace : place < t.places)
    (hopens : ∀ earlier < place, t.OpensAt options.encoding.isSpace earlier) :
  t.BeginsAt options values place ↔ t.OpensAt options.encoding.isSpace place
  := by
  have hquote : options.encoding.isSpace '"' = false :=
    options.encoding.isSpace_sign '"' (by simp)
  have hne : t.afterPlaces ≠ [] := List.length_pos_iff.mp (Nat.zero_lt_of_lt hplace)
  have hdrop : (values.drop place).length = (t.afterPlaces.drop place).length := by
    rw [List.length_drop, List.length_drop, hlength, places]
  have hend : Text.trimEnd (renderAfter (values.drop place) (t.afterPlaces.drop place))
      = renderAfter (values.drop place) ((trimLast t.afterPlaces).drop place) := by
    rw [drop_trimLast hplace]
    apply trimEnd_append_renderAfter [] hdrop
    rw [← List.length_pos_iff, List.length_drop]
    exact Nat.sub_pos_of_lt hplace
  have hlength' : values.length = (trimLast t.afterPlaces).length := by
    rw [length_trimLast]
    apply hlength
  obtain ⟨rest, hrest⟩ := exists_renderAfter hlength' (trimLast_ne_nil hne)
  simp only [BeginsAt, query_eq hlength hne, String.toList_ofList, hend, hrest]
  cases place with
  | zero =>
    rw [List.drop_zero, List.drop_zero, hrest]
    apply begins_iff_opensFirst hquote
  | succ place =>
    have hfirst : OpensFirst options.encoding.isSpace t.start := hopens 0 (Nat.succ_pos place)
    have hplace' : place + 1 < (trimLast t.afterPlaces).length := by
      rw [length_trimLast]
      apply hplace
    have hlater := begins_renderAfter_iff hquote hlength' hvalues hplace' <| by
      intro earlier hlt
      rw [getElem?_trimLast (Nat.lt_trans (Nat.succ_lt_succ hlt) hplace)]
      apply hopens (earlier + 1) (Nat.succ_lt_succ hlt)
    have hsuffix := renderAfter_drop_suffix (place + 1) values (trimLast t.afterPlaces)
    rw [getElem?_trimLast hplace] at hlater
    rw [hrest] at hsuffix hlater
    rw [hfirst.begins_iff hquote hsuffix]
    apply hlater

end Template

end Retrieval
