import Retrieval.Proofs.Query.Cut

/-!
# Stray quotes

A phrase stands between two quotes. A quote that is part of a word or of the sign of an operator is
stray: it belongs to no phrase, but it is a quote for those who only count them. Up to pairs, the
quotes in front of a lexeme are the stray ones of the directives and lexemes before it, and no
backslash in front of a phrase escapes its first quote.
-/

namespace Retrieval

/-! ### Counting quotes -/

namespace Text

/-- The number of quotes in a text. A backslash keeps the next character from being counted. -/
def quoteCount : List Char → Nat
  | [] => 0
  | '\\' :: _ :: l => quoteCount l
  | c :: l => (if c = '"' then 1 else 0) + quoteCount l

/-- Whether a text ends with a backslash that holds for what comes next. -/
def endsEscaped : List Char → Bool
  | [] => false
  | ['\\'] => true
  | '\\' :: _ :: l => endsEscaped l
  | _ :: l => endsEscaped l

/-- Neither a quote nor a backslash. -/
def Plain (c : Char) : Prop :=
  c ≠ '"' ∧ c ≠ '\\'

instance (c : Char) : Decidable (Plain c) :=
  inferInstanceAs (Decidable (c ≠ '"' ∧ c ≠ '\\'))

/-- What begins with neither a quote nor a backslash, if there is anything. -/
def BeginsPlain (l : List Char) : Prop :=
  ∀ c ∈ l.head?, Plain c

theorem quoteCount_cons_of_ne {c : Char} (hc : c ≠ '\\') (l : List Char) :
  quoteCount (c :: l) = (if c = '"' then 1 else 0) + quoteCount l
  := by
  rw [quoteCount]
  exact fun _ _ h => absurd h hc

theorem endsEscaped_cons_of_ne {c : Char} (hc : c ≠ '\\') (l : List Char) :
  endsEscaped (c :: l) = endsEscaped l
  := by
  rw [endsEscaped]
  · exact fun h => absurd h hc
  · exact fun _ _ h => absurd h hc

theorem quoteCount_cons_of_plain {c : Char} (hc : Plain c) (l : List Char) :
  quoteCount (c :: l) = quoteCount l
  := by
  rw [quoteCount_cons_of_ne hc.2, if_neg hc.1, Nat.zero_add]

/-- A text is counted piece by piece, where no piece begins with a quote or a backslash that is
escaped. -/
theorem quoteCount_append {l l' : List Char} (h : endsEscaped l = true → BeginsPlain l') :
  quoteCount (l ++ l') = quoteCount l + quoteCount l'
    ∧ (l' ≠ [] → endsEscaped (l ++ l') = endsEscaped l')
  := by
  fun_induction endsEscaped l with
  | case1 => exact ⟨(Nat.zero_add _).symm, fun _ => rfl⟩
  | case2 =>
    cases l' with
    | nil => exact ⟨rfl, fun hne => absurd rfl hne⟩
    | cons c l' =>
      have hc : Plain c := h rfl c rfl
      rw [quoteCount_cons_of_plain hc, endsEscaped_cons_of_ne hc.2]
      exact ⟨(Nat.zero_add _).symm, fun _ => rfl⟩
  | case3 c l ih => exact ih h
  | case4 c l hlast hmore ih =>
    have hc := ne_backslash hlast hmore
    obtain ⟨hcount, hends⟩ := ih h
    rw [List.cons_append, quoteCount_cons_of_ne hc, quoteCount_cons_of_ne hc, hcount,
      endsEscaped_cons_of_ne hc]
    exact ⟨(Nat.add_assoc _ _ _).symm, hends⟩

theorem quoteCount_le_append (l l' : List Char) :
  quoteCount l ≤ quoteCount (l ++ l')
  := by
  fun_induction endsEscaped l with
  | case1 => exact Nat.zero_le _
  | case2 => exact Nat.zero_le _
  | case3 c l ih => exact ih
  | case4 c l hlast hmore ih =>
    have hc := ne_backslash hlast hmore
    rw [List.cons_append, quoteCount_cons_of_ne hc, quoteCount_cons_of_ne hc]
    exact Nat.add_le_add_left ih _

/-! ### Passing over text -/

/-- From a text on to what is left of it there are, up to pairs, so many quotes, and what is left
does not begin with a quote or a backslash that is escaped. -/
def Passes (n : Nat) (l rest : List Char) : Prop :=
  ∃ taken, taken ++ rest = l ∧ quoteCount taken % 2 = n % 2
    ∧ (endsEscaped taken = true → BeginsPlain rest)

namespace Passes

theorem refl (l : List Char) :
  Passes 0 l l
  := ⟨[], rfl, rfl, fun h => absurd h (by decide)⟩

theorem trans {m n : Nat} {l l' l'' : List Char} (h : Passes m l l') (h' : Passes n l' l'') :
  Passes (m + n) l l''
  := by
  obtain ⟨taken, rfl, hcount, hplain⟩ := h
  obtain ⟨taken', rfl, hcount', hplain'⟩ := h'
  have hbegins : endsEscaped taken = true → BeginsPlain taken' := by
    intro hends c hc
    apply hplain hends
    cases taken' with
    | nil => cases hc
    | cons c' taken' => exact hc
  obtain ⟨hsum, hends⟩ := quoteCount_append hbegins
  refine ⟨taken ++ taken', List.append_assoc _ _ _, by omega, ?_⟩
  cases taken' with
  | nil =>
    rw [List.append_nil]
    exact hplain
  | cons c taken' =>
    rw [hends (by simp)]
    exact hplain'

/-- Text without quotes changes nothing. -/
theorem trans_zero {n : Nat} {l l' l'' : List Char} (h : Passes n l l') (h' : Passes 0 l' l'') :
  Passes n l l''
  := h.trans h'

theorem zero_trans {n : Nat} {l l' l'' : List Char} (h : Passes 0 l l') (h' : Passes n l' l'') :
  Passes n l l''
  := Nat.zero_add n ▸ h.trans h'

theorem cons {c : Char} (hc : Plain c) (l : List Char) :
  Passes 0 (c :: l) l
  := by
  refine ⟨[c], rfl, ?_, ?_⟩
  · rw [quoteCount_cons_of_plain hc]
    rfl
  · rw [endsEscaped_cons_of_ne hc.2]
    exact fun h => absurd h (by decide)

/-- A text is passed over as far as its characters are neither quotes nor backslashes. -/
theorem dropWhile {p : Char → Bool} (hp : ∀ c, p c = true → Plain c) (l : List Char) :
  Passes 0 l (l.dropWhile p)
  := by
  induction l with
  | nil => exact .refl []
  | cons c l ih =>
    rw [List.dropWhile_cons]
    split
    · rename_i hc
      exact (cons (hp c hc) l).trans_zero ih
    · exact .refl _

/-- A text is passed over before a character that is neither a quote nor a backslash. -/
theorem append (l : List Char) {rest : List Char} (h : BeginsPlain rest) :
  Passes (quoteCount l) (l ++ rest) rest
  := ⟨l, rfl, rfl, fun _ => h⟩

end Passes

end Text

open Text

/-! ### Numbers and directives -/

theorem Text.plain_of_isDigit {c : Char} (h : c.isDigit = true) :
  Plain c
  := by
  constructor
  · rintro rfl
    cases h
  · rintro rfl
    cases h

theorem Text.passes_readNumber (l : List Char) :
  Passes 0 l (readNumber l).2
  := .dropWhile (fun _ => plain_of_isDigit) l

theorem Text.passes_readInteger (l : List Char) :
  Passes 0 l (readInteger l).2
  := by
  unfold readInteger
  split
  · exact (Passes.cons (by decide) _).trans_zero (passes_readNumber _)
  · exact (Passes.cons (by decide) _).trans_zero (passes_readNumber _)
  · apply passes_readNumber

namespace Directive

theorem passes_readEscalation (l : List Char) :
  Passes 0 l (readEscalation l).2
  := by
  have hfirst := Text.passes_readInteger l
  unfold readEscalation
  dsimp only
  split
  · rename_i rest heq
    rw [heq] at hfirst
    exact (hfirst.trans_zero (.cons (by decide) rest)).trans_zero (Text.passes_readInteger rest)
  · exact hfirst

theorem passes_readWeight (l : List Char) :
  Passes 0 l (readWeight l).2
  := by
  unfold readWeight
  split
  · exact (Passes.cons (by decide) _).trans_zero (Text.passes_readInteger _)
  · apply Passes.refl

theorem passes_readWeights (l : List Char) :
  Passes 0 l (readWeights l).2
  := by
  fun_induction readWeights l with
  | case1 => apply Passes.refl
  | case2 l _ _ rest heq _ more rest' hmore ih =>
    have hweight := (Text.passes_readNumber l).trans_zero
      (passes_readWeight (Text.readNumber l).2)
    rw [heq] at hweight
    rw [hmore] at ih
    exact (hweight.trans_zero (.cons (by decide) rest)).trans_zero ih
  | case3 l => exact (Text.passes_readNumber l).trans_zero (passes_readWeight _)

/-- The quotes of a directive are in the sign of an operator. -/
def strayQuotes : Directive → Nat
  | defaultOperator sign => quoteCount sign
  | _ => 0

/-- What is left after the sign of an operator begins with a star or a blank. -/
theorem beginsPlain_of_endsSign (l : List Char) :
  BeginsPlain (l.dropWhile fun c => !endsSign c)
  := by
  intro c hc
  have hhead := List.head?_dropWhile_not (fun c => !endsSign c) l
  rw [hc] at hhead
  constructor
  · rintro rfl
    cases hhead
  · rintro rfl
    cases hhead

theorem passes_of_read? {l rest : List Char} {d : Directive} (h : read? l = some (d, rest)) :
  Passes d.strayQuotes l rest
  := by
  have hstar (letter : Char) (hletter : Plain letter) (l' : List Char) :
      Passes 0 ('*' :: letter :: l') l' :=
    (Passes.cons (by decide) _).trans_zero (.cons hletter l')
  obtain ⟨l', rfl, rfl, rfl⟩ | ⟨l', rfl, rfl, rfl⟩ | ⟨l', rfl, rfl, rfl⟩ := read?_cases h
  · exact (hstar 'E' (by decide) l').trans_zero (passes_readEscalation l')
  · have hsign := Passes.append (l'.takeWhile fun c => !endsSign c) (beginsPlain_of_endsSign l')
    rw [List.takeWhile_append_dropWhile] at hsign
    exact (hstar 'D' (by decide) l').zero_trans hsign
  · exact (hstar 'W' (by decide) l').trans_zero (passes_readWeights l')

theorem passes_readAll (l : List Char) :
  Passes ((readAll l).1.map strayQuotes).sum l (readAll l).2
  := by
  fun_induction readAll l with
  | case1 => apply Passes.refl
  | case2 l d rest h _ more rest' hmore ih =>
    rw [hmore] at ih
    exact (passes_of_read? h).trans ih

end Directive

/-! ### Phrases -/

namespace Lexeme

/-- The text of a phrase after its first quote, up to its end quote, as it stands there. -/
def phraseBody : List Char → List Char
  | [] => []
  | '"' :: _ => []
  | ['\\'] => ['\\']
  | '\\' :: c :: l => '\\' :: c :: phraseBody l
  | c :: l => c :: phraseBody l

/-- The text that a phrase says: a backslash and the next character are the character. -/
def unescaped : List Char → List Char
  | [] => []
  | ['\\'] => ['\\']
  | '\\' :: c :: l => c :: unescaped l
  | c :: l => c :: unescaped l

theorem unescaped_cons_of_ne {c : Char} (hc : c ≠ '\\') (l : List Char) :
  unescaped (c :: l) = c :: unescaped l
  := by
  rw [unescaped]
  · exact fun h => absurd h hc
  · exact fun _ _ h => absurd h hc

/-- What comes after the text of a phrase: its end quote and what is left, if it has an end. -/
def phraseEnding (closed : Bool) (rest : List Char) : List Char :=
  if closed then '"' :: rest else []

/-- A phrase says what stands in it, up to its end quote, and nothing is left of the text if it has
no end quote. -/
theorem readPhrase_eq_body (l : List Char) :
  ∃ closed rest, readPhrase l = (unescaped (phraseBody l), closed, rest)
    ∧ phraseBody l ++ phraseEnding closed rest = l
    ∧ (closed = true → endsEscaped (phraseBody l) = false)
    ∧ (closed = false → rest = [])
  := by
  fun_induction phraseBody l with
  | case1 => exact ⟨false, [], rfl, rfl, fun h => absurd h (by decide), fun _ => rfl⟩
  | case2 l => exact ⟨true, l, rfl, rfl, fun _ => rfl, fun h => absurd h (by decide)⟩
  | case3 => exact ⟨false, [], rfl, rfl, fun h => absurd h (by decide), fun _ => rfl⟩
  | case4 c l ih =>
    obtain ⟨closed, rest, hread, hbody, hends, hrest⟩ := ih
    refine ⟨closed, rest, ?_, ?_, hends, hrest⟩
    · rw [readPhrase, hread, unescaped]
    · rw [List.cons_append, List.cons_append, hbody]
  | case5 c l hquote hlast hmore ih =>
    have hslash := ne_backslash hlast hmore
    obtain ⟨closed, rest, hread, hbody, hends, hrest⟩ := ih
    refine ⟨closed, rest, ?_, ?_, ?_, hrest⟩
    · rw [readPhrase_cons_of_ne hquote hslash, hread, unescaped_cons_of_ne hslash]
    · rw [List.cons_append, hbody]
    · rwa [endsEscaped_cons_of_ne hslash]

/-- No quote in a phrase counts. -/
theorem quoteCount_phraseBody (l : List Char) :
  quoteCount (phraseBody l) = 0
  := by
  fun_induction phraseBody l with
  | case1 => rfl
  | case2 => rfl
  | case3 => rfl
  | case4 c l ih => exact ih
  | case5 c l hquote hlast hmore ih =>
    rw [quoteCount_cons_of_ne (ne_backslash hlast hmore), if_neg hquote, ih]

/-! ### Lexemes -/

/-- The quotes of a lexeme that are not the two of a phrase. -/
def strayQuotes : Lexeme → Nat
  | word text _ => quoteCount text
  | phrase _ closed _ => if closed then 0 else 1
  | _ => 0

theorem passes_readMode (choice : ModeChoice) (l : List Char) :
  Passes 0 l (readMode choice l).2
  := by
  unfold readMode
  dsimp only
  split
  · apply Passes.refl
  · apply Text.passes_readInteger

theorem strayQuotes_readMode (choice : ModeChoice) (l : List Char) :
  (readMode choice l).1.strayQuotes = 0
  := by
  unfold readMode
  dsimp only
  split <;> rfl

variable {isSpace : Char → Bool}

theorem passes_readMark (l : List Char) :
  Passes 0 l (readMark isSpace l).2
  := by
  unfold readMark
  split
  · split
    · exact .cons (by decide) _
    · apply Passes.refl
  · apply Passes.refl

/-- The two quotes of a phrase are a pair. -/
theorem passes_phraseAfterQuote (l : List Char) :
  Passes (phraseAfterQuote isSpace l).1.strayQuotes ('"' :: l) (phraseAfterQuote isSpace l).2
  := by
  obtain ⟨closed, rest, hread, hbody, hends, hrest⟩ := readPhrase_eq_body l
  have hcount := quoteCount_phraseBody l
  rw [phraseAfterQuote, hread]
  dsimp only
  cases closed with
  | true =>
    have hends : endsEscaped (phraseBody l) = true → BeginsPlain ['"'] := by
      rw [hends rfl]
      exact fun h => absurd h (by decide)
    obtain ⟨hquotes, hescaped⟩ := quoteCount_append hends
    have hphrase : Passes 0 ('"' :: l) rest := by
      refine ⟨'"' :: (phraseBody l ++ ['"']), ?_, ?_, ?_⟩
      · rw [List.cons_append, List.append_assoc]
        exact congrArg ('"' :: ·) hbody
      · rw [quoteCount_cons_of_ne (by decide), hquotes, hcount]
        rfl
      · rw [endsEscaped_cons_of_ne (by decide), hescaped (by simp)]
        exact fun h => absurd h (by decide)
    split
    · exact hphrase.trans_zero (passes_readMark rest)
    · exact hphrase
  | false =>
    -- Without an end quote the phrase goes on to the end of the text.
    obtain rfl := hrest rfl
    have hbody : phraseBody l = l := (List.append_nil _).symm.trans hbody
    rw [if_neg (by simp)]
    refine ⟨'"' :: l, List.append_nil _, ?_, fun _ => by simp [BeginsPlain]⟩
    rw [quoteCount_cons_of_ne (by decide), ← hbody, hcount]
    rfl

/-- A word ends before a blank, a closing bracket or a star. -/
theorem beginsPlain_of_endsWord (hquote : isSpace '"' = false) (hslash : isSpace '\\' = false)
    (l : List Char) :
  BeginsPlain (l.dropWhile fun c => !endsWord isSpace c)
  := by
  intro c hc
  have hhead := List.head?_dropWhile_not (fun c => !endsWord isSpace c) l
  rw [hc] at hhead
  constructor
  · rintro rfl
    simp [endsWord, hquote] at hhead
  · rintro rfl
    simp [endsWord, hslash] at hhead

theorem passes_readWord (hquote : isSpace '"' = false) (hslash : isSpace '\\' = false) (c : Char)
    (l : List Char) :
  Passes (readWord isSpace c l).1.strayQuotes (c :: l) (readWord isSpace c l).2
  := by
  have hword := Passes.append (c :: l.takeWhile fun c => !endsWord isSpace c)
    (beginsPlain_of_endsWord hquote hslash l)
  rw [List.cons_append, List.takeWhile_append_dropWhile] at hword
  rw [readWord]
  generalize (c :: l.takeWhile fun c => !endsWord isSpace c) = text at hword ⊢
  generalize (l.dropWhile fun c => !endsWord isSpace c) = rest at hword ⊢
  unfold finishWord
  split
  · exact hword.trans_zero (.cons (by decide) _)
  · by_cases htext : text = ['O', 'R']
    · rw [if_pos htext]
      rw [htext] at hword
      exact hword
    · rw [if_neg htext]
      exact hword

theorem plain_of_modeLetter? {c : Char} {choice : ModeChoice} (h : modeLetter? c = some choice) :
  Plain c
  := by
  unfold modeLetter? at h
  split at h
  · decide
  · decide
  · decide
  · decide
  · cases h

theorem plain_of_connectiveSign? {c : Char} {sign : Connective}
    (h : connectiveSign? c = some sign) :
  Plain c
  := by
  unfold connectiveSign? at h
  split at h
  · decide
  · decide
  · decide
  · decide
  · decide
  · cases h

/-- From a lexeme on to what is left of the text there are, up to pairs, its stray quotes. -/
theorem passes_read (hquote : isSpace '"' = false) (hslash : isSpace '\\' = false) (c : Char)
    (l : List Char) :
  Passes (read isSpace c l).1.strayQuotes (c :: l) (read isSpace c l).2
  := by
  unfold read
  split
  · exact .cons (by decide) _
  · exact .cons (by decide) _
  · apply passes_phraseAfterQuote
  · split
    · rename_i letter rest _ choice hletter
      rw [strayQuotes_readMode]
      exact ((Passes.cons (by decide) _).trans_zero
        (.cons (plain_of_modeLetter? hletter) rest)).trans_zero (passes_readMode choice rest)
    · apply passes_readWord hquote hslash
  · split
    · rename_i hsign
      exact .cons (plain_of_connectiveSign? hsign) _
    · apply passes_readWord hquote hslash

end Lexeme

/-- The stray quotes of lexemes. -/
def PlacedLexeme.strayQuotes (xs : List PlacedLexeme) : Nat :=
  (xs.map fun x => x.lexeme.strayQuotes).sum

theorem Text.plain_of_isSpace {isSpace : Char → Bool} (hquote : isSpace '"' = false)
    (hslash : isSpace '\\' = false) (c : Char) (hc : isSpace c = true) :
  Plain c
  := by
  constructor
  · rintro rfl
    rw [hquote] at hc
    cases hc
  · rintro rfl
    rw [hslash] at hc
    cases hc

/-- From a text on to one of its lexemes there are, up to pairs, the stray quotes of the lexemes
before it. -/
theorem passes_lexemes {isSpace : Char → Bool} (hquote : isSpace '"' = false)
    (hslash : isSpace '\\' = false) {l : List Char} {ys zs : List PlacedLexeme} {x : PlacedLexeme}
    (h : lexemes isSpace l = ys ++ x :: zs) :
  Passes (PlacedLexeme.strayQuotes ys) l x.source
    ∧ ∃ c l', x = ⟨(Lexeme.read isSpace c l').1, c :: l', (Lexeme.read isSpace c l').2⟩
  := by
  have hblank := @Text.plain_of_isSpace _ hquote hslash
  induction ys generalizing l with
  | nil =>
    cases hl : l.dropWhile isSpace with
    | nil =>
      rw [lexemes_eq, hl] at h
      cases h
    | cons c l' =>
      rw [lexemes_of_dropWhile hl] at h
      obtain ⟨rfl, rfl⟩ := List.cons.inj h
      exact ⟨hl ▸ .dropWhile hblank l, c, l', rfl⟩
  | cons y ys ih =>
    cases hl : l.dropWhile isSpace with
    | nil =>
      rw [lexemes_eq, hl] at h
      cases h
    | cons c l' =>
      rw [lexemes_of_dropWhile hl] at h
      obtain ⟨rfl, hrest⟩ := List.cons.inj h
      obtain ⟨hpasses, hx⟩ := ih hrest
      have hread := (hl ▸ Passes.dropWhile hblank l).zero_trans
        (Lexeme.passes_read hquote hslash c l')
      exact ⟨hread.trans hpasses, hx⟩

end Retrieval
