import Retrieval.Query.Reader
import Retrieval.Session.Statement

/-!
# Reading what is written

Numbers, ways of matching, phrases and words are read back from their characters, whatever
follows them as long as it does not run on. A text that is put together piece by piece is
therefore read piece by piece.
-/

namespace Retrieval

/-- The space is blank in every encoding. -/
theorem Encoding.isSpace_space (encoding : Encoding) :
  encoding.isSpace ' ' = true
  := by
  cases encoding <;> decide

/-- The characters of the syntax are blank in no encoding. -/
theorem Encoding.isSpace_sign (encoding : Encoding) :
  ∀ c ∈ ['(', ')', '"', '*', '+', '-', '~', '<', '>', 'O'], encoding.isSpace c = false
  := by
  have hall : ['(', ')', '"', '*', '+', '-', '~', '<', '>', 'O'].all
      (fun c => !encoding.isSpace c) = true := by
    cases encoding <;> decide
  intro c hc
  simpa using List.all_eq_true.mp hall c hc

/-! ### Numbers -/

namespace Text

theorem takeWhile_append_of_stops {p : Char → Bool} {l rest : List Char} (hl : ∀ c ∈ l, p c)
    (hrest : ∀ c ∈ rest.head?, p c = false) :
  (l ++ rest).takeWhile p = l ∧ (l ++ rest).dropWhile p = rest
  := by
  rw [List.takeWhile_append_of_pos hl, List.dropWhile_append_of_pos hl]
  cases rest with
  | nil => simp
  | cons c rest => simp [hrest c rfl]

/-- The digits of a number are read back, up to what is no digit. -/
theorem readNumber_decimal (n : Nat) {rest : List Char}
    (hrest : ∀ c ∈ rest.head?, c.isDigit = false) :
  readNumber (decimal n ++ rest) = (n, rest)
  := by
  obtain ⟨htake, hdrop⟩ := takeWhile_append_of_stops
    (fun c hc => isDigit_of_mem_decimal (n := n) hc) hrest
  rw [readNumber, htake, hdrop, valueOf_decimal]

theorem readInteger_of_ne {c : Char} (hminus : c ≠ '-') (hplus : c ≠ '+') (l : List Char) :
  readInteger (c :: l)
    = (Int32.ofIntClamp (readNumber (c :: l)).1, (readNumber (c :: l)).2)
  := by
  unfold readInteger
  split
  · rename_i heq
    apply absurd (List.cons.inj heq).1 hminus
  · rename_i heq
    apply absurd (List.cons.inj heq).1 hplus
  · rfl

theorem readInteger_of_isDigit {c : Char} (hc : c.isDigit = true) (l : List Char) :
  readInteger (c :: l) = (Int32.ofIntClamp (readNumber (c :: l)).1, (readNumber (c :: l)).2)
  := by
  apply readInteger_of_ne
  · rintro rfl
    cases hc
  · rintro rfl
    cases hc

/-- An integer of 32 bits is read back. -/
theorem readInteger_decimalInt (n : Int32) {rest : List Char}
    (hrest : ∀ c ∈ rest.head?, c.isDigit = false) :
  readInteger (decimalInt n.toInt ++ rest) = (n, rest)
  := by
  rw [decimalInt]
  split
  · rename_i hneg
    have habs : -(n.toInt.natAbs : Int) = n.toInt := by omega
    rw [List.cons_append, readInteger, readNumber_decimal _ hrest, habs, Int32.ofIntClamp_toInt]
  · rename_i hneg
    have habs : (n.toInt.natAbs : Int) = n.toInt := by omega
    have hread := readNumber_decimal n.toInt.natAbs hrest
    cases hdigits : decimal n.toInt.natAbs with
    | nil => exact absurd hdigits (decimal_ne_nil _)
    | cons d digits =>
      have hd : d.isDigit = true := by
        apply isDigit_of_mem_decimal (n := n.toInt.natAbs)
        rw [hdigits]
        apply List.mem_cons_self
      rw [hdigits] at hread
      rw [List.cons_append, readInteger_of_isDigit hd, ← List.cons_append, hread, habs,
        Int32.ofIntClamp_toInt]

theorem decimalInt_ne_nil (i : Int) :
  decimalInt i ≠ []
  := by
  rw [decimalInt]
  split
  · simp
  · apply decimal_ne_nil

end Text

/-! ### Directives -/

/-- Only a star begins a directive. -/
theorem Directive.read?_cons_of_ne {c : Char} (hc : c ≠ '*') (l : List Char) :
  Directive.read? (c :: l) = none
  := by
  unfold Directive.read?
  split
  · rename_i heq
    apply absurd (List.cons.inj heq).1 hc
  · rename_i heq
    apply absurd (List.cons.inj heq).1 hc
  · rename_i heq
    apply absurd (List.cons.inj heq).1 hc
  · rfl

/-! ### Lexemes -/

/-- What has to do with neither a backslash at the end nor one before a character is no
backslash. -/
theorem ne_backslash {c : Char} {l : List Char} (hlast : c = '\\' → l = [] → False)
    (hmore : ∀ c' l', c = '\\' → l = c' :: l' → False) :
  c ≠ '\\'
  := by
  intro hc
  cases l with
  | nil => apply hlast hc rfl
  | cons c' l => apply hmore c' l hc rfl

section lexemes

variable {isSpace : Char → Bool}

/-- What is read is the text without the blanks in front. -/
theorem lexemes_eq (l : List Char) :
  lexemes isSpace l
    = match l.dropWhile isSpace with
      | [] => []
      | c :: l' =>
        ⟨(Lexeme.read isSpace c l').1, c :: l', (Lexeme.read isSpace c l').2⟩
          :: lexemes isSpace (Lexeme.read isSpace c l').2
  := by
  rw [lexemes]
  split
  · rename_i h
    simp only [h]
  · rename_i h
    simp only [h]

theorem lexemes_nil :
  lexemes isSpace [] = []
  := lexemes_eq []

/-- A lexeme is read after the blanks. -/
theorem lexemes_of_dropWhile {c : Char} {l l' : List Char} (h : l.dropWhile isSpace = c :: l') :
  lexemes isSpace l
    = ⟨(Lexeme.read isSpace c l').1, c :: l', (Lexeme.read isSpace c l').2⟩
      :: lexemes isSpace (Lexeme.read isSpace c l').2
  := by rw [lexemes_eq, h]

/-- Blanks before a lexeme are skipped. -/
theorem lexemes_of_isSpace {c : Char} (hc : isSpace c = true) (l : List Char) :
  lexemes isSpace (c :: l) = lexemes isSpace l
  := by
  rw [lexemes_eq, List.dropWhile_cons_of_pos hc, ← lexemes_eq]

/-- A text that does not begin with a blank begins with a lexeme. -/
theorem lexemes_of_not_isSpace {c : Char} (hc : isSpace c = false) (l : List Char) :
  lexemes isSpace (c :: l)
    = ⟨(Lexeme.read isSpace c l).1, c :: l, (Lexeme.read isSpace c l).2⟩
      :: lexemes isSpace (Lexeme.read isSpace c l).2
  := by
  apply lexemes_of_dropWhile
  rw [List.dropWhile_cons_of_neg (by simp [hc])]

end lexemes

/-- Whether a text after a term does not run on: nothing, a space or a closing bracket comes
next. -/
def Separated (rest : List Char) : Prop :=
  ∀ c ∈ rest.head?, c = ' ' ∨ c = ')'

theorem separated_nil :
  Separated []
  := nofun

theorem separated_space (rest : List Char) :
  Separated (' ' :: rest)
  := by
  intro c hc
  left
  exact (Option.some.inj hc).symm

theorem separated_closing (rest : List Char) :
  Separated (')' :: rest)
  := by
  intro c hc
  right
  exact (Option.some.inj hc).symm

namespace Lexeme

/-- The text of a phrase as it stands between quotes. -/
def escaped (text : List Char) : List Char :=
  text.flatMap fun c => if c = '"' ∨ c = '\\' then ['\\', c] else [c]

theorem quoteValue_eq (text : List Char) :
  quoteValue text = '"' :: (escaped text ++ ['"'])
  := rfl

theorem quoteValue_append (text rest : List Char) :
  quoteValue text ++ rest = '"' :: (escaped text ++ '"' :: rest)
  := by simp [quoteValue_eq]

theorem escaped_cons_of_special {c : Char} (hc : c = '"' ∨ c = '\\') (text : List Char) :
  escaped (c :: text) = '\\' :: c :: escaped text
  := by simp [escaped, hc]

theorem escaped_cons_of_plain {c : Char} (hc : ¬(c = '"' ∨ c = '\\')) (text : List Char) :
  escaped (c :: text) = c :: escaped text
  := by simp [escaped, hc]

theorem readPhrase_cons_of_ne {c : Char} (hquote : c ≠ '"') (hslash : c ≠ '\\')
    (l : List Char) :
  readPhrase (c :: l) = (c :: (readPhrase l).1, (readPhrase l).2.1, (readPhrase l).2.2)
  := by
  rw [readPhrase.eq_def]
  split
  · rename_i heq
    cases heq
  · rename_i heq
    apply absurd (List.cons.inj heq).1 hquote
  · rename_i heq
    exact absurd (List.cons.inj heq).1 hslash
  · rename_i heq
    exact absurd (List.cons.inj heq).1 hslash
  · rename_i heq
    obtain ⟨rfl, rfl⟩ := List.cons.inj heq
    rfl

/-- A phrase is read up to its end quote. -/
theorem readPhrase_escaped (text rest : List Char) :
  readPhrase (escaped text ++ '"' :: rest) = (text, true, rest)
  := by
  induction text with
  | nil => rfl
  | cons c text ih =>
    by_cases hc : c = '"' ∨ c = '\\'
    · rw [escaped_cons_of_special hc, List.cons_append, List.cons_append, readPhrase, ih]
    · obtain ⟨hquote, hslash⟩ := not_or.mp hc
      rw [escaped_cons_of_plain hc, List.cons_append, readPhrase_cons_of_ne hquote hslash, ih]

/-- The star that marks a prefix, if there is one. -/
def mark (isPrefix : Bool) : List Char :=
  if isPrefix then ['*'] else []

variable {isSpace : Char → Bool} {rest : List Char}

theorem readMark_mark (hspace : isSpace ' ' = true) (hrest : Separated rest) (isPrefix : Bool) :
  readMark isSpace (mark isPrefix ++ rest) = (isPrefix, rest)
  := by
  cases isPrefix with
  | true =>
    cases rest with
    | nil => rfl
    | cons c rest =>
      obtain rfl | rfl := hrest c rfl
      · simp [mark, readMark, hspace]
      · simp [mark, readMark]
  | false =>
    cases rest with
    | nil => rfl
    | cons c rest => obtain rfl | rfl := hrest c rfl <;> rfl

/-- A phrase with its mark is read back. -/
theorem read_phrase (hspace : isSpace ' ' = true) (hrest : Separated rest) {text : List Char}
    (htext : text ≠ []) (isPrefix : Bool) :
  read isSpace '"' (escaped text ++ '"' :: (mark isPrefix ++ rest))
    = (phrase text true isPrefix, rest)
  := by
  change phraseAfterQuote isSpace _ = _
  rw [phraseAfterQuote, readPhrase_escaped]
  simp only [htext, ne_eq, not_false_eq_true, and_self, if_true]
  rw [readMark_mark hspace hrest]

theorem read_of_ne {c : Char} (hc : c ∉ ['(', ')', '"', '*']) (l : List Char) :
  read isSpace c l
    = match connectiveSign? c with
      | some sign => (connective sign, l)
      | none => readWord isSpace c l
  := by
  simp only [List.mem_cons, List.not_mem_nil, or_false, not_or] at hc
  unfold read
  split
  · exact absurd rfl hc.2.1
  · exact absurd rfl hc.1
  · exact absurd rfl hc.2.2.1
  · exact absurd rfl hc.2.2.2
  · rfl

/-- A character that begins neither a bracket, a phrase, a way of matching nor a connective
begins a word. -/
theorem read_eq_readWord {c : Char} (hc : c ∉ ['(', ')', '"', '*', '+', '-', '~', '<', '>'])
    (l : List Char) :
  read isSpace c l = readWord isSpace c l
  := by
  have hsign : connectiveSign? c = none := by
    unfold connectiveSign?
    split <;> simp_all
  rw [read_of_ne (by simp_all), hsign]

/-- A word with its mark is read back, the word `OR` without a mark as a connective. -/
theorem readWord_append (hspace : isSpace ' ' = true) (hrest : Separated rest) {c : Char}
    {text : List Char} (htext : ∀ x ∈ text, endsWord isSpace x = false) (isPrefix : Bool) :
  readWord isSpace c (text ++ (mark isPrefix ++ rest))
    = (if c :: text = ['O', 'R'] ∧ isPrefix = false then connective .or
        else word (c :: text) isPrefix, rest)
  := by
  have hends : ∀ x ∈ (mark isPrefix ++ rest).head?, (!endsWord isSpace x) = false := by
    intro x hx
    cases isPrefix with
    | true =>
      obtain rfl : '*' = x := by simpa [mark] using hx
      simp [endsWord]
    | false =>
      obtain rfl | rfl := hrest x hx
      · simp [endsWord, hspace]
      · simp [endsWord]
  obtain ⟨htake, hdrop⟩ := Text.takeWhile_append_of_stops (p := fun x => !endsWord isSpace x)
    (fun x hx => by simp [htext x hx]) hends
  rw [readWord, htake, hdrop]
  cases isPrefix with
  | true => simp [mark, finishWord]
  | false =>
    cases rest with
    | nil => simp [mark, finishWord]
    | cons x rest => obtain rfl | rfl := hrest x rfl <;> simp [mark, finishWord]

/-- A way of matching is read back with its option. -/
theorem read_mode {letter : Char} {choice : ModeChoice}
    (hletter : modeLetter? letter = some choice) (option : Int32) (rest : List Char) :
  read isSpace '*' (letter :: (Text.decimalInt option.toInt ++ ' ' :: rest))
    = (mode { choice with option }, ' ' :: rest)
  := by
  have hoption : Text.readInteger (Text.decimalInt option.toInt ++ ' ' :: rest)
      = (option, ' ' :: rest) := by
    apply Text.readInteger_decimalInt
    simp
  have hlonger : (' ' :: rest).length
      ≠ (Text.decimalInt option.toInt ++ ' ' :: rest).length := by
    have hpos := List.length_pos_iff.mpr (Text.decimalInt_ne_nil option.toInt)
    rw [List.length_append]
    omega
  simp only [read, hletter]
  rw [readMode, hoption]
  apply if_neg hlonger

end Lexeme

end Retrieval
