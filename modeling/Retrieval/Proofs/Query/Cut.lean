import Retrieval.Proofs.Query.Quote
import Retrieval.Proofs.Query.Rest
import Mathlib.Data.List.Induction
import Mathlib.Data.List.TakeWhile

/-!
# Cutting off what is left

A reader goes through a text from the left and looks at the next character to see where it has to
stop, so it makes the same of the text when what it left is cut off. Only the star after a phrase
is looked at together with the character behind it: cut off from that character it would mark the
phrase.
-/

namespace Retrieval

/-- A reader that makes of a text the same when what it left is cut off, all of it or an end
of it. -/
def Cuttable {α : Type} (f : List Char → α × List Char) : Prop :=
  ∀ ⦃l rest r : List Char⦄ ⦃x : α⦄, f (l ++ rest) = (x, r ++ rest) → f l = (x, r)

/-- What a reader left ends with what is cut off of it. -/
theorem suffix_of_eq_append {l left r rest : List Char} (h : left = r ++ rest)
    (hsuffix : left <:+ l) :
  ∃ l₀, l₀ ++ rest = l
  := (List.suffix_append r rest).trans (h ▸ hsuffix)

/-- Where a search stops does not depend on what comes after it. -/
theorem dropWhile_cut {p : Char → Bool} {l rest r : List Char}
    (h : (l ++ rest).dropWhile p = r ++ rest) :
  l.dropWhile p = r ∧ (l ++ rest).takeWhile p = l.takeWhile p
  := by
  by_cases hl : l.dropWhile p = []
  · have hall : ∀ c ∈ l, p c = true := List.dropWhile_eq_nil_iff.mp hl
    rw [List.dropWhile_append_of_pos hall] at h
    have hlength := (List.dropWhile_suffix p (l := rest)).length_le
    rw [h, List.length_append] at hlength
    obtain rfl : r = [] := List.eq_nil_of_length_eq_zero (by omega)
    have hsplit := List.takeWhile_append_dropWhile (p := p) (l := rest)
    rw [h, List.nil_append] at hsplit
    use hl
    rw [List.takeWhile_append_of_pos hall, List.append_left_eq_self.mp hsplit, List.append_nil,
      List.takeWhile_eq_self_iff.mpr hall]
  · obtain ⟨htake, hdrop⟩ := takeWhile_append_of_dropWhile_ne_nil hl rest
    rw [hdrop] at h
    use List.append_cancel_right h

/-! ### Numbers -/

namespace Text

theorem cuttable_readNumber :
  Cuttable readNumber
  := by
  intro l rest r n h
  rw [readNumber, Prod.mk.injEq] at h
  obtain ⟨hdrop, htake⟩ := dropWhile_cut h.2
  rw [readNumber, hdrop, ← htake, h.1]

/-- The digits of a number begin with those of a text that it begins with. -/
theorem valueOf_le_append (l₁ l₂ : List Char) :
  valueOf l₁ ≤ valueOf (l₁ ++ l₂)
  := by
  induction l₂ using List.reverseRecOn with
  | nil => simp
  | append_singleton l₂ c ih =>
    rw [← List.append_assoc, valueOf_append_singleton]
    omega

/-- Where a text writes no number but zero, what it begins with does neither. -/
theorem readNumber_eq_zero {l rest : List Char} (h : (readNumber (l ++ rest)).1 = 0) :
  (readNumber l).1 = 0
  := by
  have hfront : l.takeWhile Char.isDigit <+: (l ++ rest).takeWhile Char.isDigit := by
    by_cases hl : l.dropWhile Char.isDigit = []
    · have hall := List.dropWhile_eq_nil_iff.mp hl
      rw [List.takeWhile_append_of_pos hall, List.takeWhile_eq_self_iff.mpr hall]
      apply List.prefix_append
    · simp only [(takeWhile_append_of_dropWhile_ne_nil hl rest).1, List.prefix_rfl]
  obtain ⟨more, hmore⟩ := hfront
  have hle := valueOf_le_append (l.takeWhile Char.isDigit) more
  rw [hmore] at hle
  apply Nat.eq_zero_of_le_zero
  apply Nat.le_trans hle
  apply Nat.le_of_eq h

theorem cuttable_readInteger :
  Cuttable readInteger
  := by
  intro l rest r n h
  have hsign : ∀ {sign : Char} {l' : List Char}, l ++ rest = sign :: l' →
      (readNumber l').2 = r ++ rest →
      ∃ l₀, l = sign :: l₀ ∧ readNumber l₀ = ((readNumber l').1, r) := by
    intro sign l' hl hr
    obtain ⟨l₀, rfl⟩ := suffix_of_eq_append hr (readNumber_suffix l')
    exact ⟨l₀, List.append_cancel_right hl, cuttable_readNumber (Prod.ext rfl hr)⟩
  rw [readInteger.eq_def] at h
  split at h
  · rename_i hl
    obtain ⟨rfl, hr⟩ := Prod.mk.inj h
    obtain ⟨l₀, rfl, hnumber⟩ := hsign hl hr
    rw [readInteger, hnumber]
  · rename_i hl
    obtain ⟨rfl, hr⟩ := Prod.mk.inj h
    obtain ⟨l₀, rfl, hnumber⟩ := hsign hl hr
    rw [readInteger, hnumber]
  · rename_i hminus hplus
    obtain ⟨rfl, hr⟩ := Prod.mk.inj h
    have hnumber := cuttable_readNumber (Prod.ext rfl hr : readNumber (l ++ rest) = (_, r ++ rest))
    rw [readInteger.eq_def]
    split
    · rename_i l
      apply absurd rfl (hminus (l ++ rest))
    · rename_i l
      apply absurd rfl (hplus (l ++ rest))
    · rw [hnumber]

end Text

/-! ### Directives -/

namespace Directive

theorem cuttable_readWeight :
  Cuttable readWeight
  := by
  intro l rest r weight h
  rw [readWeight.eq_def] at h
  split at h
  · rename_i l' hl
    obtain ⟨l₀, rfl⟩ := suffix_of_eq_append (congrArg Prod.snd h) (Text.readInteger_suffix l')
    obtain rfl : l = ':' :: l₀ := List.append_cancel_right hl
    rw [readWeight]
    apply Text.cuttable_readInteger h
  · rename_i hcolon
    obtain ⟨rfl, hl⟩ := Prod.mk.inj h
    obtain rfl := List.append_cancel_right hl
    rw [readWeight.eq_def]
    split
    · rename_i l
      apply absurd rfl (hcolon (l ++ rest))
    · rfl

theorem cuttable_readEscalation :
  Cuttable readEscalation
  := by
  intro l rest r escalation h
  rw [readEscalation] at h
  cases hfirst : Text.readInteger (l ++ rest) with
  | mk threshold y =>
    rw [hfirst] at h
    dsimp only at h
    split at h
    · rename_i y
      obtain ⟨rfl, hr⟩ := Prod.mk.inj h
      obtain ⟨r', rfl⟩ := suffix_of_eq_append hr (Text.readInteger_suffix y)
      rw [← List.cons_append] at hfirst
      have hsecond := Text.cuttable_readInteger (Prod.ext rfl hr)
      rw [readEscalation, Text.cuttable_readInteger hfirst]
      simp only [hsecond]
    · rename_i hcomma
      obtain ⟨rfl, rfl⟩ := Prod.mk.inj h
      rw [readEscalation, Text.cuttable_readInteger hfirst]
      dsimp only
      split
      · rename_i r
        apply absurd rfl (hcomma (r ++ rest))
      · rfl

theorem cuttable_readWeights :
  Cuttable readWeights
  := by
  intro l rest r weights h
  induction hlength : l.length using Nat.strongRecOn generalizing l r weights with
  | ind n ih =>
    rw [readWeights_eq] at h ⊢
    split at h
    · rename_i hzero
      obtain ⟨rfl, hl⟩ := Prod.mk.inj h
      rw [if_pos (Text.readNumber_eq_zero hzero), List.append_cancel_right hl]
    · rename_i hne
      dsimp only at h ⊢
      cases hnumber : Text.readNumber (l ++ rest) with
      | mk number y =>
        rw [hnumber] at h hne
        dsimp only at h hne
        cases hweight : readWeight y with
        | mk weight z =>
          have hy := readWeight_suffix y
          rw [hweight] at h hy
          dsimp only at h hy
          split at h
          · rename_i z
            obtain ⟨rfl, hr⟩ := Prod.mk.inj h
            obtain ⟨r₂, rfl⟩ := suffix_of_eq_append hr (readWeights_suffix z)
            rw [← List.cons_append] at hweight hy
            obtain ⟨r₁, rfl⟩ := (List.suffix_append _ rest).trans hy
            have hnumber' := Text.cuttable_readNumber hnumber
            have hweight' := cuttable_readWeight hweight
            have hshorter : r₂.length < n := by
              have hr₁ := Text.length_readNumber_le l
              have hr₂ := length_readWeight_le r₁
              rw [hnumber'] at hr₁
              rw [hweight', List.length_cons] at hr₂
              dsimp only at hr₁
              omega
            have hmore := ih r₂.length hshorter (Prod.ext rfl hr) rfl
            rw [hnumber', if_neg hne, hweight']
            simp only [hmore]
          · rename_i hcomma
            obtain ⟨rfl, rfl⟩ := Prod.mk.inj h
            obtain ⟨r₁, rfl⟩ := (List.suffix_append r rest).trans hy
            rw [Text.cuttable_readNumber hnumber, if_neg hne, cuttable_readWeight hweight]
            dsimp only
            split
            · rename_i r
              apply absurd rfl (hcomma (r ++ rest))
            · rfl

/-- What a directive is read from: a star, a letter and what the reader of that letter reads. -/
theorem read?_cases {l rest : List Char} {d : Directive} (h : read? l = some (d, rest)) :
  (∃ l', l = '*' :: 'E' :: l' ∧ d = .escalate (readEscalation l').1
      ∧ (readEscalation l').2 = rest)
    ∨ (∃ l', l = '*' :: 'D' :: l' ∧ d = .defaultOperator (l'.takeWhile fun c => !endsSign c)
      ∧ (l'.dropWhile fun c => !endsSign c) = rest)
    ∨ ∃ l', l = '*' :: 'W' :: l' ∧ d = .weigh (readWeights l').1 ∧ (readWeights l').2 = rest
  := by
  unfold read? at h
  split at h
  · obtain ⟨rfl, rfl⟩ := Prod.mk.inj (Option.some.inj h)
    exact .inl ⟨_, rfl, rfl, rfl⟩
  · obtain ⟨rfl, rfl⟩ := Prod.mk.inj (Option.some.inj h)
    exact .inr (.inl ⟨_, rfl, rfl, rfl⟩)
  · obtain ⟨rfl, rfl⟩ := Prod.mk.inj (Option.some.inj h)
    exact .inr (.inr ⟨_, rfl, rfl, rfl⟩)
  · cases h

/-- A directive is read as well when what follows it is cut off. -/
theorem read?_cut {l rest r : List Char} {d : Directive}
    (h : read? (l ++ rest) = some (d, r ++ rest)) :
  read? l = some (d, r)
  := by
  obtain ⟨l', hl, rfl, hr⟩ | ⟨l', hl, rfl, hr⟩ | ⟨l', hl, rfl, hr⟩ := read?_cases h
  · obtain ⟨l₀, rfl⟩ := suffix_of_eq_append hr (readEscalation_suffix l')
    obtain rfl : l = '*' :: 'E' :: l₀ := List.append_cancel_right hl
    rw [read?, cuttable_readEscalation (Prod.ext rfl hr)]
  · obtain ⟨l₀, rfl⟩ := suffix_of_eq_append hr (List.dropWhile_suffix _)
    obtain rfl : l = '*' :: 'D' :: l₀ := List.append_cancel_right hl
    obtain ⟨hdrop, htake⟩ := dropWhile_cut hr
    rw [read?, hdrop, htake]
  · obtain ⟨l₀, rfl⟩ := suffix_of_eq_append hr (readWeights_suffix l')
    obtain rfl : l = '*' :: 'W' :: l₀ := List.append_cancel_right hl
    rw [read?, cuttable_readWeights (Prod.ext rfl hr)]

/-- Where there is no directive there is none in what the text begins with. -/
theorem read?_eq_none_of_append {l rest : List Char} (h : read? (l ++ rest) = none) :
  read? l = none
  := by
  cases hl : read? l with
  | none => rfl
  | some read =>
    obtain ⟨l', rfl, -⟩ | ⟨l', rfl, -⟩ | ⟨l', rfl, -⟩ := read?_cases (d := read.1) hl
    · cases h
    · cases h
    · cases h

theorem cuttable_readAll :
  Cuttable readAll
  := by
  intro l rest r directives h
  induction hlength : l.length using Nat.strongRecOn generalizing l directives with
  | ind n ih =>
    cases hread : read? (l ++ rest) with
    | none =>
      rw [readAll_of_none hread] at h
      obtain ⟨rfl, hl⟩ := Prod.mk.inj h
      rw [readAll_of_none (read?_eq_none_of_append hread), List.append_cancel_right hl]
    | some read =>
      obtain ⟨d, y⟩ := read
      rw [readAll_of_some hread] at h
      obtain ⟨rfl, hr⟩ := Prod.mk.inj h
      obtain ⟨r', rfl⟩ := suffix_of_eq_append hr (readAll_suffix y)
      have hread' := read?_cut hread
      have hmore := ih r'.length (hlength ▸ length_lt_of_read? hread') (Prod.ext rfl hr) rfl
      rw [readAll_of_some hread', hmore]

end Directive

/-! ### Lexemes -/

namespace Lexeme

theorem cuttable_readMode (choice : ModeChoice) :
  Cuttable (readMode choice)
  := by
  intro l rest r x h
  rw [readMode] at h ⊢
  cases hoption : Text.readInteger (l ++ rest) with
  | mk option y =>
    rw [hoption] at h
    dsimp only at h
    split at h
    · rename_i hlength
      obtain ⟨rfl, hl⟩ := Prod.mk.inj h
      have hy := Text.readInteger_suffix (l ++ rest)
      rw [hoption] at hy
      obtain rfl := hy.eq_of_length hlength
      rw [Text.cuttable_readInteger hoption]
      dsimp only
      rw [if_pos rfl, List.append_cancel_right hl]
    · rename_i hlength
      obtain ⟨rfl, rfl⟩ := Prod.mk.inj h
      rw [Text.cuttable_readInteger hoption]
      dsimp only
      rw [if_neg]
      simpa using hlength

/-- A phrase takes up a character at least, if there is one. -/
theorem length_readPhrase_cons_le (c : Char) (l : List Char) :
  (readPhrase (c :: l)).2.2.length ≤ l.length
  := by
  rw [readPhrase.eq_def]
  split
  · apply Nat.zero_le
  · rename_i heq
    obtain ⟨-, rfl⟩ := List.cons.inj heq
    apply Nat.le_refl
  · apply Nat.zero_le
  · rename_i l' heq
    obtain ⟨-, rfl⟩ := List.cons.inj heq
    apply Nat.le_succ_of_le (length_readPhrase_le l')
  · rename_i heq
    obtain ⟨-, rfl⟩ := List.cons.inj heq
    apply length_readPhrase_le

/-- The text of a phrase, whether it has an end, and what is left are the same when what is left
is cut off. -/
theorem readPhrase_cut {l rest r text : List Char} {closed : Bool}
    (h : readPhrase (l ++ rest) = (text, closed, r ++ rest)) :
  readPhrase l = (text, closed, r)
  := by
  induction l using readPhrase.induct generalizing text with
  | case1 =>
    rcases rest with _ | ⟨c, rest⟩
    · simpa using h
    · have hle := length_readPhrase_cons_le c rest
      simp only [List.nil_append] at h
      rw [h, List.length_append, List.length_cons] at hle
      omega
  | case2 l =>
    rw [List.cons_append, readPhrase] at h
    simp only [Prod.mk.injEq] at h
    obtain ⟨rfl, rfl, hl⟩ := h
    rw [readPhrase, List.append_cancel_right hl]
  | case3 =>
    rcases rest with _ | ⟨c, rest⟩
    · simpa using h
    · have hle := length_readPhrase_le rest
      simp only [List.cons_append, List.nil_append, readPhrase, Prod.mk.injEq] at h
      rw [h.2.2, List.length_append, List.length_cons] at hle
      omega
  | case4 c l _ _ _ _ ih =>
    rw [List.cons_append, List.cons_append, readPhrase] at h
    simp only [Prod.mk.injEq] at h
    obtain ⟨rfl, rfl, hl⟩ := h
    rw [readPhrase, ih (Prod.ext rfl (Prod.ext rfl hl))]
  | case5 c l hquote hlast hmore _ _ _ _ ih =>
    have hslash := ne_backslash hlast hmore
    rw [List.cons_append, readPhrase_cons_of_ne hquote hslash] at h
    simp only [Prod.mk.injEq] at h
    obtain ⟨rfl, rfl, hl⟩ := h
    rw [readPhrase_cons_of_ne hquote hslash, ih (Prod.ext rfl (Prod.ext rfl hl))]

variable {isSpace : Char → Bool}

/-- Whether a text may follow the star that marks a phrase. -/
def EndsMark (isSpace : Char → Bool) (l : List Char) : Prop :=
  l.head?.all fun c => isSpace c || c == ')'

theorem readMark_of_ne {c : Char} (hc : c ≠ '*') (l : List Char) :
  readMark isSpace (c :: l) = (false, c :: l)
  := by
  unfold readMark
  split
  · rename_i heq
    apply absurd (List.cons.inj heq).1 hc
  · rfl

/-- A mark is read as well when what it left is cut off, but for a star that is no mark only
because of what follows it. -/
theorem readMark_cut {l rest r : List Char} {isPrefix : Bool}
    (h : readMark isSpace (l ++ rest) = (isPrefix, r ++ rest))
    (hstar : r = ['*'] → EndsMark isSpace rest) :
  readMark isSpace l = (isPrefix, r)
  := by
  rcases l with _ | ⟨c, l⟩
  · rw [List.nil_append] at h
    rw [readMark.eq_def] at h
    split at h
    · rename_i rest
      split at h
      · have hlength := congrArg List.length (Prod.mk.inj h).2
        simp only [List.length_append, List.length_cons] at hlength
        omega
      · obtain ⟨rfl, hr⟩ := Prod.mk.inj h
        rw [List.self_eq_append_left.mp hr]
        rfl
    · obtain ⟨rfl, hr⟩ := Prod.mk.inj h
      rw [List.self_eq_append_left.mp hr]
      rfl
  · by_cases hc : c = '*'
    · subst hc
      rw [List.cons_append, readMark] at h
      rw [readMark]
      split at h
      · rename_i hends
        obtain ⟨rfl, hl⟩ := Prod.mk.inj h
        obtain rfl := List.append_cancel_right hl
        rw [if_pos]
        cases l with
        | nil => rfl
        | cons d l => simpa using hends
      · rename_i hends
        obtain ⟨rfl, hl⟩ := Prod.mk.inj h
        rw [← List.cons_append] at hl
        obtain rfl := List.append_cancel_right hl
        rw [if_neg]
        cases l with
        | nil => apply absurd (hstar rfl) hends
        | cons d l => simpa using hends
    · rw [List.cons_append, readMark_of_ne hc, ← List.cons_append] at h
      obtain ⟨rfl, hl⟩ := Prod.mk.inj h
      rw [readMark_of_ne hc, List.append_cancel_right hl]

/-- A phrase with its mark is read as well when what it left is cut off, but for a star that is no
mark only because of what follows it. -/
theorem phraseAfterQuote_cut {l rest r : List Char} {x : Lexeme}
    (h : phraseAfterQuote isSpace (l ++ rest) = (x, r ++ rest))
    (hstar : r = ['*'] → EndsMark isSpace rest) :
  phraseAfterQuote isSpace l = (x, r)
  := by
  rw [phraseAfterQuote] at h
  cases hphrase : readPhrase (l ++ rest) with
  | mk text read =>
    obtain ⟨closed, y⟩ := read
    rw [hphrase] at h
    dsimp only at h
    split at h
    · rename_i hmarked
      obtain ⟨rfl, hr⟩ := Prod.mk.inj h
      obtain ⟨y, rfl⟩ := suffix_of_eq_append hr (readMark_suffix isSpace y)
      have hmark := readMark_cut (Prod.ext rfl hr) hstar
      rw [phraseAfterQuote, readPhrase_cut hphrase]
      dsimp only
      rw [if_pos hmarked, hmark]
    · rename_i hmarked
      obtain ⟨rfl, rfl⟩ := Prod.mk.inj h
      rw [phraseAfterQuote, readPhrase_cut hphrase]
      dsimp only
      rw [if_neg hmarked]

theorem finishWord_of_ne {c : Char} (hc : c ≠ '*') (text l : List Char) :
  finishWord text (c :: l)
    = (if text = ['O', 'R'] then connective .or else word text false, c :: l)
  := by
  unfold finishWord
  split
  · rename_i heq
    apply absurd (List.cons.inj heq).1 hc
  · rfl

theorem cuttable_finishWord (text : List Char) :
  Cuttable (finishWord text)
  := by
  intro l rest r x h
  rcases l with _ | ⟨c, l⟩
  · rw [List.nil_append, finishWord.eq_def] at h
    split at h
    · have hlength := congrArg List.length (Prod.mk.inj h).2
      simp only [List.length_append, List.length_cons] at hlength
      omega
    · obtain ⟨rfl, hr⟩ := Prod.mk.inj h
      rw [List.self_eq_append_left.mp hr]
      rfl
  · by_cases hc : c = '*'
    · subst hc
      rw [List.cons_append, finishWord] at h
      obtain ⟨rfl, hl⟩ := Prod.mk.inj h
      rw [finishWord, List.append_cancel_right hl]
    · rw [List.cons_append, finishWord_of_ne hc, ← List.cons_append] at h
      obtain ⟨rfl, hl⟩ := Prod.mk.inj h
      rw [finishWord_of_ne hc, List.append_cancel_right hl]

theorem cuttable_readWord (c : Char) :
  Cuttable (readWord isSpace c)
  := by
  intro l rest r x h
  rw [readWord] at h
  have hleft : (finishWord (c :: (l ++ rest).takeWhile fun c => !endsWord isSpace c)
      ((l ++ rest).dropWhile fun c => !endsWord isSpace c)).2 = r ++ rest := by
    rw [h]
  obtain ⟨y, hy⟩ := suffix_of_eq_append hleft (finishWord_suffix _ _)
  obtain ⟨hdrop, htake⟩ := dropWhile_cut hy.symm
  rw [readWord, hdrop, ← htake]
  apply cuttable_finishWord
  rw [hy, h]

theorem readStar_cons (letter : Char) (l : List Char) :
  read isSpace '*' (letter :: l)
    = match modeLetter? letter with
      | some choice => readMode choice l
      | none => readWord isSpace '*' (letter :: l)
  := rfl

/-- A way of matching, or a word that begins with a star. -/
theorem cuttable_readStar :
  Cuttable (read isSpace '*')
  := by
  intro l rest r x h
  rcases l with _ | ⟨letter, l⟩
  · rcases rest with _ | ⟨letter, rest⟩
    · simpa using h
    · rw [List.nil_append, readStar_cons] at h
      cases hletter : modeLetter? letter with
      | some choice =>
        rw [hletter] at h
        have hle := length_readMode_le choice rest
        rw [show readMode choice rest = _ from h, List.length_append, List.length_cons] at hle
        omega
      | none =>
        rw [hletter] at h
        apply cuttable_readWord (l := []) '*' h
  · rw [List.cons_append, readStar_cons] at h
    rw [readStar_cons]
    cases hletter : modeLetter? letter with
    | some choice =>
      rw [hletter] at h
      apply cuttable_readMode choice h
    | none =>
      rw [hletter] at h
      apply cuttable_readWord (l := letter :: l) '*' h

/-- A lexeme is read as well when what it left is cut off, but for a star that is no mark only
because of what follows it. -/
theorem read_cut {c : Char} {l rest r : List Char} {x : Lexeme}
    (h : read isSpace c (l ++ rest) = (x, r ++ rest))
    (hstar : r = ['*'] → EndsMark isSpace rest) :
  read isSpace c l = (x, r)
  := by
  have hsame : ∀ y : Lexeme, (y, l ++ rest) = (x, r ++ rest) → (y, l) = (x, r) := by
    intro y h
    obtain ⟨rfl, hl⟩ := Prod.mk.inj h
    rw [List.append_cancel_right hl]
  by_cases hclosing : c = ')'
  · subst hclosing
    apply hsame closing h
  by_cases hopening : c = '('
  · subst hopening
    apply hsame opening h
  by_cases hphrase : c = '"'
  · subst hphrase
    apply phraseAfterQuote_cut h hstar
  by_cases hword : c = '*'
  · subst hword
    apply cuttable_readStar h
  rw [read_of_ne (by simp_all)] at h ⊢
  cases hsign : connectiveSign? c with
  | some sign =>
    rw [hsign] at h
    apply hsame (connective sign) h
  | none =>
    rw [hsign] at h
    apply cuttable_readWord c h

/-- A star before a text that it leaves as it is could be a mark. -/
theorem endsMark_of_read_star {l : List Char} (h : (read isSpace '*' l).2 = l) :
  EndsMark isSpace l
  := by
  rcases l with _ | ⟨c, l⟩
  · rfl
  · rw [readStar_cons] at h
    split at h
    · rename_i choice _
      have hle := length_readMode_le choice l
      rw [h, List.length_cons] at hle
      omega
    · rw [readWord] at h
      have hle := length_finishWord_le ('*' :: (c :: l).takeWhile fun c => !endsWord isSpace c)
        ((c :: l).dropWhile fun c => !endsWord isSpace c)
      rw [h] at hle
      rw [(List.dropWhile_suffix _).eq_of_length_le hle] at h
      have hends : endsWord isSpace c = true := by
        have hself := (List.dropWhile_suffix _).eq_of_length_le hle
        rw [List.dropWhile_eq_self_iff] at hself
        simpa using hself (Nat.succ_pos _)
      have hstar : c ≠ '*' := by
        rintro rfl
        apply absurd (congrArg List.length h)
        simp [finishWord]
      simpa [EndsMark, endsWord, hstar] using hends

end Lexeme
end Retrieval
