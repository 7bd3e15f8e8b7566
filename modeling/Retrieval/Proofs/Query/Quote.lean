import Mathlib.Tactic.Use
import Retrieval.Proofs.Query.Rest

/-!
# Reading up to a quote

Readers go through a text from the left, so what they do before a quote does not depend on what
comes after it, unless they take the quote up. Hence a text up to a quote that begins a lexeme
has the same lexemes whatever the phrase is.
-/

namespace Retrieval

/-! ### Readers and quotes -/

/-- A reader that stops before a quote, whatever comes after it. -/
def StopsAtQuote {α : Type} (f : List Char → α × List Char) : Prop :=
  ∀ l, ∃ x r, ∀ rest, f (l ++ '"' :: rest) = (x, r ++ '"' :: rest)

/-- A reader that stops before a quote, or takes it up, so that no more is left than what comes
after it. -/
def MeetsQuote {α : Type} (f : List Char → α × List Char) : Prop :=
  ∀ l, (∀ rest, (f (l ++ '"' :: rest)).2 <:+ rest)
    ∨ ∃ x r, ∀ rest, f (l ++ '"' :: rest) = (x, r ++ '"' :: rest)

/-- What is left before a quote is no longer than what was there, if a reader leaves no more
than it was given. -/
theorem length_le_of_stops {α : Type} {f : List Char → α × List Char} {l r : List Char} {x : α}
    (hlength : (f (l ++ ['"'])).2.length ≤ (l ++ ['"']).length)
    (h : ∀ rest, f (l ++ '"' :: rest) = (x, r ++ '"' :: rest)) :
  r.length ≤ l.length
  := by
  rw [h []] at hlength
  simpa using hlength

/-- What stops within a text stops there as well if the text goes on. -/
theorem takeWhile_append_of_dropWhile_ne_nil {p : Char → Bool} {l : List Char}
    (h : l.dropWhile p ≠ []) (rest : List Char) :
  (l ++ rest).takeWhile p = l.takeWhile p ∧ (l ++ rest).dropWhile p = l.dropWhile p ++ rest
  := by
  induction l with
  | nil => exact absurd rfl h
  | cons c l ih =>
    by_cases hc : p c = true
    · rw [List.dropWhile_cons_of_pos hc] at h
      obtain ⟨htake, hdrop⟩ := ih h
      simp [hc, htake, hdrop]
    · simp [hc]

/-- What takes up no quote stops before the quote at the latest. -/
theorem takeWhile_append_quote {p : Char → Bool} (hp : p '"' = false) (l rest : List Char) :
  (l ++ '"' :: rest).takeWhile p = l.takeWhile p
    ∧ (l ++ '"' :: rest).dropWhile p = l.dropWhile p ++ '"' :: rest
  := by
  induction l with
  | nil => simp [hp]
  | cons c l ih =>
    by_cases hc : p c = true
    · simp [hc, ih.1, ih.2]
    · simp [hc]

/-- What takes up quotes takes up the next one, or stops before it. -/
theorem dropWhile_append_quote {p : Char → Bool} (hp : p '"' = true) (l : List Char) :
  (∀ rest, (l ++ '"' :: rest).dropWhile p <:+ rest)
    ∨ ∀ rest, (l ++ '"' :: rest).takeWhile p = l.takeWhile p
      ∧ (l ++ '"' :: rest).dropWhile p = l.dropWhile p ++ '"' :: rest
  := by
  by_cases hl : l.dropWhile p = []
  · left
    intro rest
    rw [List.dropWhile_append, hl, List.isEmpty_nil, if_pos rfl, List.dropWhile_cons_of_pos hp]
    apply List.dropWhile_suffix
  · right
    intro rest
    apply takeWhile_append_of_dropWhile_ne_nil hl

/-! ### Numbers -/

namespace Text

theorem stopsAtQuote_readNumber :
  StopsAtQuote readNumber
  := by
  intro l
  use valueOf (l.takeWhile Char.isDigit), l.dropWhile Char.isDigit
  intro rest
  obtain ⟨htake, hdrop⟩ := takeWhile_append_quote (p := Char.isDigit) (by decide) l rest
  rw [readNumber, htake, hdrop]

theorem stopsAtQuote_readInteger :
  StopsAtQuote readInteger
  := by
  intro l
  cases l with
  | nil =>
    use Int32.ofIntClamp 0, []
    intro rest
    rfl
  | cons c l =>
    by_cases hminus : c = '-'
    · obtain ⟨n, r, hread⟩ := stopsAtQuote_readNumber l
      use Int32.ofIntClamp (-(n : Int)), r
      intro rest
      rw [hminus, List.cons_append, readInteger, hread]
    · by_cases hplus : c = '+'
      · obtain ⟨n, r, hread⟩ := stopsAtQuote_readNumber l
        use Int32.ofIntClamp n, r
        intro rest
        rw [hplus, List.cons_append, readInteger, hread]
      · obtain ⟨n, r, hread⟩ := stopsAtQuote_readNumber (c :: l)
        use Int32.ofIntClamp n, r
        intro rest
        rw [List.cons_append, readInteger_of_ne hminus hplus, ← List.cons_append, hread]

end Text

/-! ### Directives -/

namespace Directive

theorem stopsAtQuote_readWeight :
  StopsAtQuote readWeight
  := by
  intro l
  cases l with
  | nil =>
    use 1, []
    intro rest
    rfl
  | cons c l =>
    by_cases hc : c = ':'
    · obtain ⟨n, r, hread⟩ := Text.stopsAtQuote_readInteger l
      use n, r
      intro rest
      rw [hc, List.cons_append, readWeight, hread]
    · use 1, c :: l
      intro rest
      rw [List.cons_append]
      unfold readWeight
      split
      · rename_i heq
        apply absurd (List.cons.inj heq).1 hc
      · rfl

theorem stopsAtQuote_readEscalation :
  StopsAtQuote readEscalation
  := by
  intro l
  obtain ⟨threshold, r, hread⟩ := Text.stopsAtQuote_readInteger l
  cases r with
  | nil =>
    use ⟨threshold, none⟩, []
    intro rest
    rw [readEscalation, hread]
    rfl
  | cons c r =>
    by_cases hc : c = ','
    · obtain ⟨secondary, r', hread'⟩ := Text.stopsAtQuote_readInteger r
      use ⟨threshold, some secondary⟩, r'
      intro rest
      simp only [readEscalation, hread, hc, List.cons_append, hread']
    · use ⟨threshold, none⟩, c :: r
      intro rest
      simp only [readEscalation, hread, List.cons_append]
      split
      · rename_i heq
        apply absurd (List.cons.inj heq).1 hc
      · rfl

theorem readWeights_eq (l : List Char) :
  readWeights l
    = if (Text.readNumber l).1 = 0 then ([], l)
      else
        let entry := (clampSection (Text.readNumber l).1, (readWeight (Text.readNumber l).2).1)
        match (readWeight (Text.readNumber l).2).2 with
        | ',' :: rest => (entry :: (readWeights rest).1, (readWeights rest).2)
        | rest => ([entry], rest)
  := by
  rw [readWeights]
  split
  · rfl
  · dsimp only
    split
    · rename_i h
      simp only [h]
    · rename_i h
      split
      · rename_i h'
        apply absurd h' (h _)
      · rfl

theorem stopsAtQuote_readWeights :
  StopsAtQuote readWeights
  := by
  intro l
  induction hlength : l.length using Nat.strongRecOn generalizing l with
  | ind n ih =>
    obtain ⟨number, r, hnumber⟩ := Text.stopsAtQuote_readNumber l
    obtain ⟨weight, r', hweight⟩ := stopsAtQuote_readWeight r
    by_cases hzero : number = 0
    · use [], l
      intro rest
      rw [readWeights_eq, hnumber, if_pos hzero]
    · cases r' with
      | nil =>
        use [(clampSection number, weight)], []
        intro rest
        rw [readWeights_eq, hnumber, if_neg hzero, hweight]
        rfl
      | cons c r' =>
        by_cases hc : c = ','
        · have hshorter : r'.length < n := by
            have hr := length_le_of_stops (Text.length_readNumber_le _) hnumber
            have hr' := length_le_of_stops (length_readWeight_le _) hweight
            rw [List.length_cons] at hr'
            omega
          obtain ⟨more, r'', hmore⟩ := ih r'.length hshorter r' rfl
          use (clampSection number, weight) :: more, r''
          intro rest
          rw [readWeights_eq, hnumber, if_neg hzero, hweight, hc, List.cons_append]
          simp only [hmore]
        · use [(clampSection number, weight)], c :: r'
          intro rest
          rw [readWeights_eq, hnumber, if_neg hzero, hweight, List.cons_append]
          dsimp only
          split
          · rename_i heq
            apply absurd (List.cons.inj heq).1 hc
          · rfl

/-- How the directive at the start of a text meets a quote after the text: there is no directive,
it takes the quote up, or it ends before the quote. -/
def MeetsQuoteOrNone (l : List Char) : Prop :=
  (∀ rest, read? (l ++ '"' :: rest) = none)
    ∨ (∀ rest, ∃ d left, read? (l ++ '"' :: rest) = some (d, left) ∧ left <:+ rest)
    ∨ ∃ d r, r.length < l.length ∧ ∀ rest, read? (l ++ '"' :: rest) = some (d, r ++ '"' :: rest)

theorem meetsQuoteOrNone_escalate (l : List Char) :
  MeetsQuoteOrNone ('*' :: 'E' :: l)
  := by
  obtain ⟨escalation, r, hread⟩ := stopsAtQuote_readEscalation l
  right; right
  use .escalate escalation, r
  constructor
  · have hr := length_le_of_stops (length_readEscalation_le _) hread
    apply Nat.lt_succ_of_le
    apply Nat.le_succ_of_le hr
  · intro rest
    rw [List.cons_append, List.cons_append, read?, hread]

/-- The sign of an operator is the only part of a directive that takes up a quote. -/
theorem meetsQuoteOrNone_defaultOperator (l : List Char) :
  MeetsQuoteOrNone ('*' :: 'D' :: l)
  := by
  obtain hall | hstop := dropWhile_append_quote (p := fun c => !endsSign c) (by decide) l
  · right; left
    intro rest
    exact ⟨_, _, rfl, hall rest⟩
  · right; right
    use .defaultOperator (l.takeWhile fun c => !endsSign c), l.dropWhile fun c => !endsSign c
    constructor
    · have hr := (List.dropWhile_suffix (fun c => !endsSign c) (l := l)).length_le
      apply Nat.lt_succ_of_le
      apply Nat.le_succ_of_le hr
    · intro rest
      rw [List.cons_append, List.cons_append, read?, (hstop rest).1, (hstop rest).2]

theorem meetsQuoteOrNone_weigh (l : List Char) :
  MeetsQuoteOrNone ('*' :: 'W' :: l)
  := by
  obtain ⟨weights, r, hread⟩ := stopsAtQuote_readWeights l
  right; right
  use .weigh weights, r
  constructor
  · have hr := length_le_of_stops (length_readWeights_le _) hread
    apply Nat.lt_succ_of_le
    apply Nat.le_succ_of_le hr
  · intro rest
    rw [List.cons_append, List.cons_append, read?, hread]

/-- Three letters begin a directive after a star. -/
theorem read?_star_of_notMem {letter : Char} (h : letter ∉ ['E', 'D', 'W']) (l : List Char) :
  read? ('*' :: letter :: l) = none
  := by
  unfold read?
  split <;> simp_all

/-- A directive before a quote takes the quote up, or ends before it. -/
theorem meetsQuoteOrNone (l : List Char) :
  MeetsQuoteOrNone l
  := by
  rcases l with _ | ⟨c, l⟩
  · left
    intro rest
    rfl
  obtain hc | rfl := (Decidable.em (c = '*')).symm
  · left
    intro rest
    apply read?_cons_of_ne hc
  rcases l with _ | ⟨letter, l⟩
  · left
    intro rest
    rfl
  by_cases hletter : letter ∈ ['E', 'D', 'W']
  · simp only [List.mem_cons, List.not_mem_nil, or_false] at hletter
    obtain rfl | rfl | rfl := hletter
    · apply meetsQuoteOrNone_escalate
    · apply meetsQuoteOrNone_defaultOperator
    · apply meetsQuoteOrNone_weigh
  · left
    intro rest
    apply read?_star_of_notMem hletter

theorem readAll_of_none {l : List Char} (h : read? l = none) :
  readAll l = ([], l)
  := by
  rw [readAll]
  split
  · rfl
  · rename_i heq
    rw [h] at heq
    cases heq

theorem readAll_of_some {l rest : List Char} {d : Directive} (h : read? l = some (d, rest)) :
  readAll l = (d :: (readAll rest).1, (readAll rest).2)
  := by
  rw [readAll]
  split
  · rename_i heq
    rw [h] at heq
    cases heq
  · rename_i heq
    rw [h] at heq
    cases heq
    rfl

theorem length_readAll_le (l : List Char) :
  (readAll l).2.length ≤ l.length
  := by
  fun_induction readAll l with
  | case1 => exact Nat.le_refl _
  | case2 l directive rest _ hlt more left heq ih =>
    rw [heq] at ih
    apply Nat.le_of_lt (Nat.lt_of_le_of_lt ih hlt)

theorem meetsQuote_readAll :
  MeetsQuote readAll
  := by
  intro l
  induction hlength : l.length using Nat.strongRecOn generalizing l with
  | ind n ih =>
    obtain hnone | htaken | ⟨d, r, hshorter, hread⟩ := meetsQuoteOrNone l
    · right
      use [], l
      intro rest
      rw [readAll_of_none (hnone rest)]
    · left
      intro rest
      obtain ⟨d, left, hread, hleft⟩ := htaken rest
      rw [readAll_of_some hread]
      apply (readAll_suffix left).trans hleft
    · obtain htaken | ⟨more, r', hmore⟩ := ih r.length (hlength ▸ hshorter) r rfl
      · left
        intro rest
        rw [readAll_of_some (hread rest)]
        apply htaken rest
      · right
        use d :: more, r'
        intro rest
        rw [readAll_of_some (hread rest), hmore]

end Directive

/-! ### Lexemes -/

namespace Lexeme

/-- A phrase before a quote takes the quote up, or has its end before it. -/
theorem readPhrase_append_quote (l : List Char) :
  (∀ rest, (readPhrase (l ++ '"' :: rest)).2.2 <:+ rest)
    ∨ ∃ text r, ∀ rest, readPhrase (l ++ '"' :: rest) = (text, true, r ++ '"' :: rest)
  := by
  fun_induction readPhrase l with
  | case1 =>
    left
    intro rest
    apply List.suffix_refl
  | case2 l =>
    right
    use [], l
    intro rest
    rfl
  | case3 =>
    left
    intro rest
    exact readPhrase_suffix rest
  | case4 c l _ _ _ _ ih =>
    obtain htaken | ⟨text, r, hread⟩ := ih
    · left
      intro rest
      apply htaken rest
    · right
      use c :: text, r
      intro rest
      rw [List.cons_append, List.cons_append, readPhrase, hread]
  | case5 c l hquote hlast hmore _ _ _ _ ih =>
    have hslash := ne_backslash hlast hmore
    obtain htaken | ⟨text, r, hread⟩ := ih
    · left
      intro rest
      rw [List.cons_append, readPhrase_cons_of_ne hquote hslash]
      apply htaken rest
    · right
      use c :: text, r
      intro rest
      rw [List.cons_append, readPhrase_cons_of_ne hquote hslash, hread]

variable {isSpace : Char → Bool} (hquote : isSpace '"' = false)

include hquote in
theorem stopsAtQuote_readMark :
  StopsAtQuote (readMark isSpace)
  := by
  intro l
  rcases l with _ | ⟨c, l⟩
  · use false, []
    intro rest
    rfl
  · by_cases hc : c = '*'
    · subst hc
      cases l with
      | nil =>
        use false, ['*']
        intro rest
        simp [readMark, hquote]
      | cons c l =>
        by_cases hends : (isSpace c || c == ')') = true
        · use true, c :: l
          intro rest
          simp_all [readMark]
        · use false, '*' :: c :: l
          intro rest
          simp_all [readMark]
    · use false, c :: l
      intro rest
      rw [List.cons_append]
      unfold readMark
      split
      · rename_i heq
        apply absurd (List.cons.inj heq).1 hc
      · rfl

include hquote in
theorem meetsQuote_phraseAfterQuote :
  MeetsQuote (phraseAfterQuote isSpace)
  := by
  intro l
  obtain htaken | ⟨text, r, hread⟩ := readPhrase_append_quote l
  · left
    intro rest
    simp only [phraseAfterQuote]
    split
    · apply (readMark_suffix isSpace _).trans (htaken rest)
    · apply htaken rest
  · right
    by_cases htext : text = []
    · use phrase text true false, r
      intro rest
      simp [phraseAfterQuote, hread, htext]
    · obtain ⟨isPrefix, r', hmark⟩ := stopsAtQuote_readMark hquote r
      use phrase text true isPrefix, r'
      intro rest
      simp [phraseAfterQuote, hread, htext, hmark]

theorem stopsAtQuote_readMode (choice : ModeChoice) :
  StopsAtQuote (readMode choice)
  := by
  intro l
  obtain ⟨option, r, hread⟩ := Text.stopsAtQuote_readInteger l
  have hlength : ∀ rest : List Char,
      (r ++ '"' :: rest).length = (l ++ '"' :: rest).length ↔ r.length = l.length := by
    intro rest
    simp
  by_cases h : r.length = l.length
  · use mode choice, l
    intro rest
    rw [readMode, hread]
    apply if_pos ((hlength rest).mpr h)
  · use mode { choice with option }, r
    intro rest
    rw [readMode, hread]
    apply if_neg (mt (hlength rest).mp h)

theorem stopsAtQuote_finishWord (text : List Char) :
  StopsAtQuote (finishWord text)
  := by
  intro l
  cases l with
  | nil =>
    use if text = ['O', 'R'] then connective .or else word text false, []
    intro rest
    rfl
  | cons c l =>
    by_cases hc : c = '*'
    · use word text true, l
      intro rest
      rw [hc]
      rfl
    · use if text = ['O', 'R'] then connective .or else word text false, c :: l
      intro rest
      rw [List.cons_append]
      unfold finishWord
      split
      · rename_i heq
        apply absurd (List.cons.inj heq).1 hc
      · rfl

include hquote in
theorem meetsQuote_readWord (c : Char) :
  MeetsQuote (readWord isSpace c)
  := by
  intro l
  have hword : (!endsWord isSpace '"') = true := by simp [endsWord, hquote]
  obtain htaken | hstops := dropWhile_append_quote (p := fun c => !endsWord isSpace c) hword l
  · left
    intro rest
    rw [readWord]
    apply (finishWord_suffix _ _).trans (htaken rest)
  · right
    obtain ⟨x, r, hfinish⟩ := stopsAtQuote_finishWord
      (c :: l.takeWhile fun c => !endsWord isSpace c) (l.dropWhile fun c => !endsWord isSpace c)
    use x, r
    intro rest
    rw [readWord, (hstops rest).1, (hstops rest).2, hfinish]

include hquote in
/-- A lexeme before a quote takes the quote up, or ends before it. -/
theorem meetsQuote_read (c : Char) :
  MeetsQuote (read isSpace c)
  := by
  have hsame : ∀ x : Lexeme, MeetsQuote fun l => (x, l) := by
    intro x l
    right
    use x, l
    intro rest
    rfl
  by_cases hclosing : c = ')'
  · rw [hclosing]
    apply hsame
  by_cases hopening : c = '('
  · rw [hopening]
    apply hsame
  by_cases hphrase : c = '"'
  · rw [hphrase]
    apply meetsQuote_phraseAfterQuote hquote
  by_cases hstar : c = '*'
  · rw [hstar]
    intro l
    cases l with
    | nil => apply meetsQuote_readWord hquote '*' []
    | cons letter l =>
      cases hletter : modeLetter? letter with
      | some choice =>
        right
        obtain ⟨x, r, hread⟩ := stopsAtQuote_readMode choice l
        use x, r
        intro rest
        simp only [List.cons_append, read, hletter, hread]
      | none =>
        have hread : ∀ rest, read isSpace '*' (letter :: l ++ rest)
            = readWord isSpace '*' (letter :: l ++ rest) := by
          intro rest
          simp only [List.cons_append, read, hletter]
        simp only [hread]
        apply meetsQuote_readWord hquote '*'
  have hread : read isSpace c = _ := funext (read_of_ne (by simp_all))
  rw [hread]
  cases connectiveSign? c with
  | some sign => apply hsame
  | none => apply meetsQuote_readWord hquote

end Lexeme

/-- Whether one of some lexemes begins where the text `l` does. -/
def Begins (xs : List PlacedLexeme) (l : List Char) : Prop :=
  ∃ x ∈ xs, x.source = l

instance (xs : List PlacedLexeme) (l : List Char) : Decidable (Begins xs l) :=
  decidable_of_iff (xs.any fun x => x.source == l) (by simp [Begins])

/-- Lexemes that begin before a text do not begin in it. -/
theorem begins_append {xs : List PlacedLexeme} {l rest : List Char}
    (h : ∀ x ∈ xs, rest.length < x.source.length) (hl : l <:+ rest) (ys : List PlacedLexeme) :
  Begins (xs ++ ys) l ↔ Begins ys l
  := by
  constructor
  · rintro ⟨y, hy, hsource⟩
    rcases List.mem_append.mp hy with hy | hy
    · have hlt := h y hy
      rw [hsource] at hlt
      exact absurd hlt (Nat.not_lt.mpr hl.length_le)
    · exact ⟨y, hy, hsource⟩
  · rintro ⟨y, hy, hsource⟩
    exact ⟨y, List.mem_append_right xs hy, hsource⟩

/-- Whether a quote at the end of a text is read as the beginning of a phrase. -/
def ReachesQuote (isSpace : Char → Bool) (l : List Char) : Prop :=
  Begins (lexemes isSpace l) ['"']

instance (isSpace : Char → Bool) (l : List Char) : Decidable (ReachesQuote isSpace l) :=
  inferInstanceAs (Decidable (Begins _ _))

/-- A text whose lexemes are the same whatever phrase comes after it. All of them begin before the
quote of the phrase. -/
def EndsAtQuote (isSpace : Char → Bool) (l : List Char) : Prop :=
  ∃ before : List Lexeme, ∀ rest, ∃ xs : List PlacedLexeme,
    xs.map PlacedLexeme.lexeme = before ∧ (∀ x ∈ xs, rest.length + 1 < x.source.length)
      ∧ lexemes isSpace (l ++ '"' :: rest) = xs ++ lexemes isSpace ('"' :: rest)

section reaching

variable {isSpace : Char → Bool} (hquote : isSpace '"' = false) {l : List Char}

include hquote in
/-- Blanks before a phrase are no lexemes. -/
theorem EndsAtQuote.of_blank (hl : l.dropWhile isSpace = []) :
  EndsAtQuote isSpace l
  := by
  use []
  intro rest
  use []
  refine ⟨rfl, by simp, ?_⟩
  rw [List.nil_append, lexemes_eq, (takeWhile_append_quote hquote l rest).2, hl, lexemes_eq,
    List.nil_append, List.dropWhile_cons_of_neg (by simp [hquote])]

include hquote in
/-- What is left of a text before a quote. -/
theorem dropWhile_append_of_eq_cons {c : Char} {l' : List Char}
    (hl : l.dropWhile isSpace = c :: l') (rest : List Char) :
  (l ++ '"' :: rest).dropWhile isSpace = c :: (l' ++ '"' :: rest)
  := by
  rw [(takeWhile_append_quote hquote l rest).2, hl]
  rfl

include hquote in
/-- A lexeme that ends before the quote stands in front of those of the text after it. -/
theorem EndsAtQuote.cons {c : Char} {l' r : List Char} {x : Lexeme} (h : EndsAtQuote isSpace r)
    (hl : l.dropWhile isSpace = c :: l')
    (hread : ∀ rest, Lexeme.read isSpace c (l' ++ '"' :: rest) = (x, r ++ '"' :: rest)) :
  EndsAtQuote isSpace l
  := by
  obtain ⟨before, hbefore⟩ := h
  use x :: before
  intro rest
  obtain ⟨xs, hxs, hlong, hrest⟩ := hbefore rest
  use ⟨x, c :: (l' ++ '"' :: rest), r ++ '"' :: rest⟩ :: xs
  refine ⟨?_, ?_, ?_⟩
  · rw [List.map_cons, hxs]
  · rw [List.forall_mem_cons]
    refine ⟨?_, hlong⟩
    simp only [List.length_cons, List.length_append]
    omega
  · rw [lexemes_of_dropWhile (dropWhile_append_of_eq_cons hquote hl rest), hread, hrest]
    rfl

/-- A lexeme begins somewhere in its text. -/
theorem source_suffix {l : List Char} {x : PlacedLexeme} (hx : x ∈ lexemes isSpace l) :
  x.source <:+ l
  := by
  induction hlength : l.length using Nat.strongRecOn generalizing l with
  | ind n ih =>
    cases hl : l.dropWhile isSpace with
    | nil =>
      rw [lexemes_eq, hl] at hx
      cases hx
    | cons c l' =>
      have hsuffix : c :: l' <:+ l := hl ▸ List.dropWhile_suffix isSpace
      rw [lexemes_of_dropWhile hl] at hx
      rcases List.mem_cons.mp hx with rfl | hx
      · exact hsuffix
      · have hleft := (Lexeme.read_suffix isSpace c l').trans (List.suffix_cons c l')
        have hshorter : (Lexeme.read isSpace c l').2.length < n := by
          have hread := (Lexeme.read_suffix isSpace c l').length_le
          have hle := hsuffix.length_le
          rw [List.length_cons] at hle
          omega
        apply (ih _ hshorter hx rfl).trans (hleft.trans hsuffix)

/-- No lexeme begins before its text. -/
theorem not_begins_cons {l rest : List Char} (hl : l <:+ rest) (c : Char) :
  ¬Begins (lexemes isSpace l) (c :: rest)
  := by
  rintro ⟨x, hx, hsource⟩
  have hle := ((source_suffix hx).trans hl).length_le
  rw [hsource, List.length_cons] at hle
  omega

include hquote in
/-- Whether a quote begins a lexeme does not depend on what comes after it. -/
theorem begins_iff_reachesQuote (l rest : List Char) :
  Begins (lexemes isSpace (l ++ '"' :: rest)) ('"' :: rest) ↔ ReachesQuote isSpace (l ++ ['"'])
  := by
  induction hlength : l.length using Nat.strongRecOn generalizing l with
  | ind n ih =>
    cases hl : l.dropWhile isSpace with
    | nil =>
      have hbegins (rest : List Char) :
          Begins (lexemes isSpace (l ++ '"' :: rest)) ('"' :: rest) := by
        have hdrop : (l ++ '"' :: rest).dropWhile isSpace = '"' :: rest := by
          rw [(takeWhile_append_quote hquote l rest).2, hl, List.nil_append]
        rw [lexemes_of_dropWhile hdrop]
        exact ⟨_, List.mem_cons_self, rfl⟩
      exact ⟨fun _ => hbegins [], fun _ => hbegins rest⟩
    | cons c l' =>
      have hlater (rest : List Char) : Begins (lexemes isSpace (l ++ '"' :: rest)) ('"' :: rest)
          ↔ Begins (lexemes isSpace (Lexeme.read isSpace c (l' ++ '"' :: rest)).2)
            ('"' :: rest) := by
        rw [lexemes_of_dropWhile (dropWhile_append_of_eq_cons hquote hl rest),
          ← List.singleton_append]
        apply begins_append _ (List.suffix_refl _)
        rw [List.forall_mem_singleton]
        simp only [List.length_cons, List.length_append]
        omega
      rw [ReachesQuote, hlater, hlater]
      obtain htaken | ⟨x, r, hread⟩ := Lexeme.meetsQuote_read hquote c l'
      · exact iff_of_false (not_begins_cons (htaken rest) _) (not_begins_cons (htaken []) _)
      · have hshorter : r.length < n := by
          have hr := length_le_of_stops (Lexeme.length_read_le isSpace c _) hread
          have hle := (List.dropWhile_suffix isSpace (l := l)).length_le
          rw [hl, List.length_cons] at hle
          omega
        rw [hread, hread]
        apply ih r.length hshorter r rfl

include hquote in
/-- If a quote after a text begins a lexeme, then the text has lexemes of its own, and whatever
comes after the quote is read as if the text were not there. -/
theorem ReachesQuote.endsAtQuote (h : ReachesQuote isSpace (l ++ ['"'])) :
  EndsAtQuote isSpace l
  := by
  induction hlength : l.length using Nat.strongRecOn generalizing l with
  | ind n ih =>
    cases hl : l.dropWhile isSpace with
    | nil => apply EndsAtQuote.of_blank hquote hl
    | cons c l' =>
      obtain ⟨y, hy, hsource⟩ := h
      rw [lexemes_of_dropWhile (dropWhile_append_of_eq_cons hquote hl [])] at hy
      have hlater : y ∈ lexemes isSpace (Lexeme.read isSpace c (l' ++ ['"'])).2 := by
        rcases List.mem_cons.mp hy with rfl | hy
        · simp at hsource
        · apply hy
      obtain htaken | ⟨x, r, hread⟩ := Lexeme.meetsQuote_read hquote c l'
      · rw [List.suffix_nil.mp (htaken []), lexemes_nil] at hlater
        cases hlater
      · have hshorter : r.length < n := by
          have hr := length_le_of_stops (Lexeme.length_read_le isSpace c _) hread
          have hle := (List.dropWhile_suffix isSpace (l := l)).length_le
          rw [hl, List.length_cons] at hle
          omega
        rw [hread] at hlater
        apply EndsAtQuote.cons hquote _ hl hread
        apply ih r.length hshorter ⟨y, hlater, hsource⟩ rfl

end reaching

end Retrieval
