import Retrieval.Proofs.Query.Lexeme
import Mathlib.Tactic.Use

/-!
# Queries as they are written

A query is written as operands next to each other: terms with a way of matching and a mark, or
groups of operands between brackets, each behind the sign of its connective. Reading a written
query gives the expression that its operands make from left to right.
-/

namespace Retrieval

/-! ### Combining operands -/

namespace Operand

/-- One step of combining operands from left to right: what is there so far, if anything, and
the connective that the first operand passes on. An exclusion with nothing before it is
dropped. -/
def absorb (standard : Connective) :
    Option (Expr × Option Connective) → Operand → Option (Expr × Option Connective)
  | none, ⟨some .but, _⟩ => none
  | none, ⟨some .below, e⟩ => some (e, some .below)
  | none, ⟨some .above, e⟩ => some (e, some .above)
  | none, ⟨_, e⟩ => some (e, none)
  | some (left, carried), x =>
    some (.join ((x.connective <|> carried).getD standard) left x.expr, none)

/-- The expression that operands make, one step after another. -/
def combine (standard : Connective) (operands : List Operand) : Expr :=
  (operands.foldl (absorb standard) none).elim .empty Prod.fst

theorem foldl_absorb_some (standard : Connective) (left : Expr) (operands : List Operand) :
  operands.foldl (absorb standard) (some (left, none))
    = some (operands.foldl (attach standard) left, none)
  := by
  induction operands generalizing left with
  | nil => rfl
  | cons x operands ih =>
    rw [List.foldl_cons, List.foldl_cons, ← ih]
    obtain ⟨connective, e⟩ := x
    cases connective <;> rfl

theorem fold_eq_combine (standard : Connective) (operands : List Operand) :
  fold standard operands = combine standard operands
  := by
  unfold fold combine
  induction operands with
  | nil => rfl
  | cons x operands ih =>
    by_cases hx : x.isExclusion = true
    · obtain ⟨connective, e⟩ := x
      obtain rfl : connective = some .but := by simpa [isExclusion] using hx
      rw [List.dropWhile_cons_of_pos hx]
      exact ih
    · rw [List.dropWhile_cons_of_neg hx]
      cases operands with
      | nil =>
        obtain ⟨connective, e⟩ := x
        rcases connective with _ | ⟨⟨⟩⟩ <;> first | rfl | exact absurd rfl hx
      | cons y operands =>
        have hstep : ∃ carried, absorb standard none x = some (x.expr, carried)
            ∧ carried.getD standard = passedOn standard x.connective := by
          obtain ⟨connective, e⟩ := x
          rcases connective with _ | ⟨⟨⟩⟩ <;>
            first | exact ⟨_, rfl, rfl⟩ | exact absurd rfl hx
        obtain ⟨carried, habsorb, hcarried⟩ := hstep
        have hsecond : absorb standard (some (x.expr, carried)) y
            = some (attach (passedOn standard x.connective) x.expr y, none) := by
          rw [← hcarried]
          obtain ⟨connective, e⟩ := y
          cases connective <;> rfl
        rw [List.foldl_cons, List.foldl_cons, habsorb, hsecond, foldl_absorb_some]
        rfl

end Operand

/-! ### Terms as they are written -/

/-- A letter that asks for a way of matching. -/
inductive ModeLetter where
  | similar
  | near
  | nearAny
  | extract

namespace ModeLetter

/-- The letter itself. -/
def char : ModeLetter → Char
  | similar => 'S'
  | near => 'N'
  | nearAny => 'n'
  | extract => 'T'

/-- The way of matching that a letter asks for. -/
def mode : ModeLetter → MatchMode
  | similar => .similar
  | near => .near
  | nearAny => .nearAny
  | extract => .extract

end ModeLetter

/-- A way of matching with its option. -/
structure WrittenMode where
  letter : ModeLetter
  option : Int32

namespace WrittenMode

def choice (m : WrittenMode) : ModeChoice :=
  ⟨m.letter.mode, m.option⟩

/-- A star, the letter, the option in base ten and a space. -/
def render (m : WrittenMode) : List Char :=
  '*' :: m.letter.char :: (Text.decimalInt m.option.toInt ++ [' '])

end WrittenMode

/-- A phrase or a word, with an optional way of matching and a mark if it is a prefix. -/
structure WrittenTerm where
  mode : Option WrittenMode
  text : List Char
  isPhrase : Bool
  isPrefix : Bool

namespace WrittenTerm

/-- The term that is written. -/
def term (weight : Score) (t : WrittenTerm) : Term :=
  ⟨String.ofList t.text, t.isPrefix, t.isPhrase, weight, t.mode.map WrittenMode.choice⟩

/-- The text of a term and its mark, a phrase between quotes. -/
def renderText (t : WrittenTerm) : List Char :=
  (if t.isPhrase then quoteValue t.text else t.text) ++ Lexeme.mark t.isPrefix

def render (t : WrittenTerm) : List Char :=
  (t.mode.elim [] WrittenMode.render) ++ t.renderText

/-- A phrase may be any text. A word holds no character that ends it, begins with no character
of the syntax, and is not the connective `OR`. -/
structure Valid (isSpace : Char → Bool) (t : WrittenTerm) : Prop where
  nonempty : t.text ≠ []
  unbroken : t.isPhrase = false → ∀ c ∈ t.text, isSpace c = false ∧ c ≠ ')' ∧ c ≠ '*'
  plain : t.isPhrase = false → ∀ c ∈ t.text.head?, c ∉ ['(', '"', '+', '-', '~', '<', '>']
  notOr : t.isPhrase = false → t.isPrefix = false → t.text ≠ ['O', 'R']

end WrittenTerm

/-! ### Operands as they are written -/

/-- An operand of a query: a term, or a group of operands, and the connective in front of
it. -/
inductive Written where
  | term (connective : Option Connective) (t : WrittenTerm)
  | group (connective : Option Connective) (operands : List Written)

/-- The sign of a connective, a word in the case of `OR`. -/
def Connective.render : Connective → List Char
  | or => ['O', 'R', ' ']
  | and => ['+']
  | but => ['-']
  | adjust => ['~']
  | below => ['<']
  | above => ['>']

/-- The signs of operators that are written without a space. -/
def Connective.renderFront (connective : Option Connective) : List Char :=
  connective.elim [] render

namespace Written

mutual

/-- An operand as text. -/
def render : Written → List Char
  | term connective t => Connective.renderFront connective ++ t.render
  | group connective operands =>
    Connective.renderFront connective ++ '(' :: (renderAll operands ++ [')'])

/-- Operands as text, with a space between each of them and the next one. -/
def renderAll : List Written → List Char
  | [] => []
  | w :: ws => render w ++ renderMore ws

/-- Further operands as text. -/
def renderMore : List Written → List Char
  | [] => []
  | w :: ws => ' ' :: (render w ++ renderMore ws)

end

mutual

/-- The operand that is written. -/
def operand (standard : Connective) (weight : Score) : Written → Operand
  | term connective t => ⟨connective, .term (t.term weight)⟩
  | group connective ws =>
    ⟨connective, .group (Operand.combine standard (operands standard weight ws))⟩

/-- The operands that are written. -/
def operands (standard : Connective) (weight : Score) : List Written → List Operand
  | [] => []
  | w :: ws => operand standard weight w :: operands standard weight ws

end

mutual

/-- The number of groups and terms of an operand. -/
def size : Written → Nat
  | term _ _ => 1
  | group _ ws => 1 + sizeAll ws

/-- The number of groups and terms of operands. -/
def sizeAll : List Written → Nat
  | [] => 0
  | w :: ws => size w + sizeAll ws

end

/-- An operand all of whose terms can be written. -/
inductive Valid (isSpace : Char → Bool) : Written → Prop where
  | term {connective : Option Connective} {t : WrittenTerm} (h : t.Valid isSpace) :
      Valid isSpace (term connective t)
  | group {connective : Option Connective} {ws : List Written} (h : ∀ w ∈ ws, Valid isSpace w) :
      Valid isSpace (group connective ws)

end Written

/-! ### Reading on -/

namespace Lexeme

theorem read_connective {isSpace : Char → Bool} {c : Char} {connective : Connective}
    (hc : connectiveSign? c = some connective) (l : List Char) :
  read isSpace c l = (.connective connective, l)
  := by
  unfold read
  split
  · cases hc
  · cases hc
  · cases hc
  · cases hc
  · rw [hc]

end Lexeme

namespace Assembly

/-- What comes of an assembly before a text. -/
def readOn (setting : Setting) (isSpace : Char → Bool) (a : Assembly) (l : List Char) :
    Except Error (Expr × List Char) :=
  (a.run setting (lexemes isSpace l)).value

variable {setting : Setting} {encoding : Encoding} {a b : Assembly} {rest : List Char}

theorem readOn_space (l : List Char) :
  a.readOn setting encoding.isSpace (' ' :: l) = a.readOn setting encoding.isSpace l
  := by
  rw [readOn, lexemes_of_isSpace encoding.isSpace_space, readOn]

/-- A lexeme at the start of a text is added to the assembly. -/
theorem readOn_cons {c : Char} {l : List Char} {x : Lexeme}
    (hc : encoding.isSpace c = false) (hread : Lexeme.read encoding.isSpace c l = (x, rest))
    (hbudget : a.budget ≠ 0) (hstep : (a.step setting ⟨x, c :: l, rest⟩).value = .goOn b) :
  a.readOn setting encoding.isSpace (c :: l) = b.readOn setting encoding.isSpace rest
  := by
  rw [readOn, lexemes_of_not_isSpace hc, hread, run, if_neg hbudget]
  simp only [hstep]
  rfl

/-- A connective replaces the one that was read before, if there is one. -/
theorem readOn_connective (hbudget : a.budget ≠ 0) (connective : Option Connective)
    (l : List Char) :
  a.readOn setting encoding.isSpace (Connective.renderFront connective ++ l)
    = { a with
        inner := { a.inner with connective := connective.or a.inner.connective } }.readOn setting
          encoding.isSpace l
  := by
  have hsign : ∀ (c : Char) (connective : Connective),
      c ∈ ['(', ')', '"', '*', '+', '-', '~', '<', '>', 'O'] →
      Lexeme.connectiveSign? c = some connective →
      a.readOn setting encoding.isSpace (c :: l)
        = { a with inner := { a.inner with connective := some connective } }.readOn setting
            encoding.isSpace l := by
    intro c connective hc hsign
    apply readOn_cons (encoding.isSpace_sign c hc) (Lexeme.read_connective hsign l) hbudget
    rfl
  cases connective with
  | none => rfl
  | some connective =>
    rw [Option.some_or]
    cases connective with
    | or =>
      have hread : Lexeme.readWord encoding.isSpace 'O'
          (['R'] ++ (Lexeme.mark false ++ ' ' :: l)) = (.connective .or, ' ' :: l) := by
        apply Lexeme.readWord_append encoding.isSpace_space
        · simp [Separated]
        · intro x hx
          obtain rfl := List.mem_singleton.mp hx
          cases encoding <;> decide
      rw [← Lexeme.read_eq_readWord (by decide)] at hread
      rw [← readOn_space (a := { a with inner := { a.inner with connective := some .or } })]
      apply readOn_cons (encoding.isSpace_sign 'O' (by decide)) hread hbudget
      rfl
    | and => apply hsign '+' .and (by decide) rfl
    | but => apply hsign '-' .but (by decide) rfl
    | adjust => apply hsign '~' .adjust (by decide) rfl
    | below => apply hsign '<' .below (by decide) rfl
    | above => apply hsign '>' .above (by decide) rfl

theorem readOn_mode (hbudget : a.budget ≠ 0) (m : WrittenMode) (l : List Char) :
  a.readOn setting encoding.isSpace (m.render ++ l)
    = { a with inner := { a.inner with mode := some m.choice } }.readOn setting encoding.isSpace l
  := by
  have hletter : ∃ choice : ModeChoice, Lexeme.modeLetter? m.letter.char = some choice
      ∧ choice.mode = m.letter.mode := by
    cases m.letter <;> exact ⟨_, rfl, rfl⟩
  obtain ⟨choice, hchoice, hmode⟩ := hletter
  have hread : Lexeme.read encoding.isSpace '*' _ = _ := Lexeme.read_mode hchoice m.option l
  have hrender : m.render ++ l
      = '*' :: m.letter.char :: (Text.decimalInt m.option.toInt ++ ' ' :: l) := by
    simp [WrittenMode.render]
  rw [hrender,
    ← readOn_space (a := { a with inner := { a.inner with mode := some m.choice } })]
  apply readOn_cons (encoding.isSpace_sign '*' (by decide)) hread hbudget
  rw [hmode]
  rfl

/-- The text of a term is added as a term, with the way of matching that was read before. -/
theorem readOn_renderText (hbudget : a.budget ≠ 0) {t : WrittenTerm}
    (ht : t.Valid encoding.isSpace) (hrest : Separated rest) :
  a.readOn setting encoding.isSpace (t.renderText ++ rest)
    = (a.addTerm setting t.text t.isPrefix t.isPhrase).readOn setting encoding.isSpace rest
  := by
  obtain ⟨mode, text, isPhrase, isPrefix⟩ := t
  cases isPhrase with
  | true =>
    have hread := Lexeme.read_phrase encoding.isSpace_space hrest ht.nonempty isPrefix
    have hrender : WrittenTerm.renderText ⟨mode, text, true, isPrefix⟩ ++ rest
        = '"' :: (Lexeme.escaped text ++ '"' :: (Lexeme.mark isPrefix ++ rest)) := by
      simp [WrittenTerm.renderText, Lexeme.quoteValue_eq]
    rw [hrender]
    apply readOn_cons (encoding.isSpace_sign '"' (by decide)) hread hbudget
    have htext : text.isEmpty = false := by simpa using ht.nonempty
    simp [step, addPhrase, htext, Noted.plain]
  | false =>
    cases text with
    | nil => exact absurd rfl ht.nonempty
    | cons c text =>
      have hunbroken := ht.unbroken rfl
      obtain ⟨hspace, hclosing, hstar⟩ := hunbroken c List.mem_cons_self
      have hplain := ht.plain rfl c rfl
      have hends : ∀ x ∈ text, Lexeme.endsWord encoding.isSpace x = false := by
        intro x hx
        obtain ⟨hspace, hclosing, hstar⟩ := hunbroken x (List.mem_cons_of_mem _ hx)
        simp [Lexeme.endsWord, hspace, hclosing, hstar]
      have hread := Lexeme.readWord_append encoding.isSpace_space hrest (c := c) hends isPrefix
      rw [← Lexeme.read_eq_readWord (by simp_all), if_neg fun h => ht.notOr rfl h.2 h.1] at hread
      have hrender : WrittenTerm.renderText ⟨mode, c :: text, false, isPrefix⟩ ++ rest
          = c :: (text ++ (Lexeme.mark isPrefix ++ rest)) := by
        simp [WrittenTerm.renderText]
      rw [hrender]
      apply readOn_cons hspace hread hbudget
      rfl

theorem readOn_term (hbudget : a.budget ≠ 0) (hmode : a.inner.mode = none) {t : WrittenTerm}
    (ht : t.Valid encoding.isSpace) (hrest : Separated rest) :
  a.readOn setting encoding.isSpace (t.render ++ rest)
    = { a with
        inner := a.inner.push (.term (t.term setting.termWeight))
        budget := a.budget - 1 }.readOn setting encoding.isSpace rest
  := by
  rw [WrittenTerm.render, List.append_assoc]
  cases hm : t.mode with
  | none =>
    rw [Option.elim_none, List.nil_append, readOn_renderText hbudget ht hrest]
    simp [addTerm, WrittenTerm.term, hm, hmode]
  | some m =>
    let asked : Assembly := { a with inner := { a.inner with mode := some m.choice } }
    rw [Option.elim_some, readOn_mode hbudget,
      readOn_renderText (a := asked) hbudget ht hrest]
    simp [asked, addTerm, WrittenTerm.term, hm, Level.push]

theorem readOn_opening (hbudget : a.budget ≠ 0) (l : List Char) :
  a.readOn setting encoding.isSpace ('(' :: l)
    = (⟨.start, { a.inner with mode := none } :: a.outer, a.budget - 1⟩ : Assembly).readOn setting
        encoding.isSpace l
  := by
  apply readOn_cons (encoding.isSpace_sign '(' (by decide)) rfl hbudget
  rfl

theorem readOn_closing {level : Level} {outer : List Level} (hbudget : a.budget ≠ 0)
    (houter : a.outer = level :: outer) (l : List Char) :
  a.readOn setting encoding.isSpace (')' :: l)
    = (⟨level.push (.group (Operand.fold setting.standard a.inner.operands)), outer,
        a.budget⟩ : Assembly).readOn setting encoding.isSpace l
  := by
  apply readOn_cons (encoding.isSpace_sign ')' (by decide)) rfl hbudget
  simp [step, closeLevel, houter, Level.expr]

/-- The assembly with more operands, between which and what follows nothing is pending. -/
def withOperands (operands : List Operand) (size : Nat) (a : Assembly) : Assembly :=
  ⟨⟨a.inner.operands ++ operands, none, none⟩, a.outer, a.budget - size⟩

theorem withOperands_withOperands (xs ys : List Operand) (m n : Nat) (a : Assembly) :
  (a.withOperands xs m).withOperands ys n = a.withOperands (xs ++ ys) (m + n)
  := by
  simp [withOperands, Nat.sub_sub]

/-- What is read between brackets is added as one operand. -/
theorem readOn_brackets {l : List Char} {inner : Level} {size : Nat} (hsize : size + 1 < a.budget)
    (hinner : (⟨.start, { a.inner with mode := none } :: a.outer, a.budget - 1⟩ : Assembly).readOn
        setting encoding.isSpace (l ++ ')' :: rest)
      = (⟨inner, { a.inner with mode := none } :: a.outer, a.budget - 1 - size⟩ : Assembly).readOn
        setting encoding.isSpace (')' :: rest)) :
  a.readOn setting encoding.isSpace ('(' :: (l ++ ')' :: rest))
    = (a.withOperands [⟨a.inner.connective,
        .group (Operand.combine setting.standard inner.operands)⟩] (1 + size)).readOn setting
          encoding.isSpace rest
  := by
  let filled : Assembly :=
    ⟨inner, { a.inner with mode := none } :: a.outer, a.budget - 1 - size⟩
  have hfilled : filled.budget ≠ 0 := by
    change a.budget - 1 - size ≠ 0
    omega
  rw [readOn_opening (Nat.ne_zero_of_lt hsize), hinner, readOn_closing (a := filled) hfilled rfl,
    Operand.fold_eq_combine]
  simp [filled, withOperands, Level.push, Nat.sub_sub]

/-- A term is added as an operand, with the connective in front of it or the one that was read
before. -/
theorem readOn_writtenTerm {connective : Option Connective} {t : WrittenTerm}
    (ht : t.Valid encoding.isSpace) (hrest : Separated rest) (hmode : a.inner.mode = none)
    (hbudget : a.budget ≠ 0) :
  a.readOn setting encoding.isSpace ((Written.term connective t).render ++ rest)
    = (a.withOperands
        [⟨connective.or a.inner.connective, .term (t.term setting.termWeight)⟩] 1).readOn setting
          encoding.isSpace rest
  := by
  let joined : Assembly :=
    { a with inner := { a.inner with connective := connective.or a.inner.connective } }
  rw [Written.render, List.append_assoc, readOn_connective hbudget connective,
    readOn_term (a := joined) hbudget hmode ht hrest]
  rfl

/-- What follows an operand among others does not run on. -/
theorem separated_renderMore (ws : List Written) (hrest : Separated rest) :
  Separated (Written.renderMore ws ++ rest)
  := by
  cases ws with
  | nil => exact hrest
  | cons w ws =>
    rw [Written.renderMore, List.cons_append]
    apply separated_space

theorem readOn_renderMore (ws : List Written) :
  a.readOn setting encoding.isSpace (Written.renderMore ws ++ rest)
    = a.readOn setting encoding.isSpace (Written.renderAll ws ++ rest)
  := by
  cases ws with
  | nil => rfl
  | cons w ws => rw [Written.renderMore, List.cons_append, readOn_space, Written.renderAll]

mutual

/-- Reading an operand, in whatever follows it, adds the operand that is written. -/
theorem readOn_render {a : Assembly} {rest : List Char} (w : Written)
    (hw : w.Valid encoding.isSpace) (hrest : Separated rest)
    (hconnective : a.inner.connective = none) (hmode : a.inner.mode = none)
    (hbudget : w.size < a.budget) :
  a.readOn setting encoding.isSpace (w.render ++ rest)
    = (a.withOperands [w.operand setting.standard setting.termWeight] w.size).readOn setting
        encoding.isSpace rest
  := by
  have hpos : a.budget ≠ 0 := Nat.ne_zero_of_lt hbudget
  cases hw with
  | term ht =>
    rw [readOn_writtenTerm ht hrest hmode hpos, hconnective, Option.or_none]
    rfl
  | @group connective ws hws =>
    let joined : Assembly := { a with inner := { a.inner with connective } }
    have hrender : (Written.group connective ws).render ++ rest
        = Connective.renderFront connective ++ '(' :: (Written.renderAll ws ++ ')' :: rest) := by
      simp [Written.render]
    have hsize : Written.sizeAll ws + 1 < joined.budget := by
      change Written.sizeAll ws + 1 < a.budget
      rw [Written.size] at hbudget
      omega
    let opened : Assembly :=
      ⟨.start, { joined.inner with mode := none } :: joined.outer, joined.budget - 1⟩
    have hinner : opened.readOn setting encoding.isSpace (_ ++ ')' :: rest) = _ :=
      readOn_renderAll ws hws (separated_closing rest) rfl rfl (Nat.lt_sub_of_add_lt hsize)
    rw [hrender, readOn_connective hpos connective, hconnective, Option.or_none,
      readOn_brackets (a := joined) hsize hinner]
    simp [opened, joined, withOperands, Level.start, Written.operand, Written.size]

theorem readOn_renderAll {a : Assembly} {rest : List Char} (ws : List Written)
    (hws : ∀ w ∈ ws, w.Valid encoding.isSpace) (hrest : Separated rest)
    (hconnective : a.inner.connective = none) (hmode : a.inner.mode = none)
    (hbudget : Written.sizeAll ws < a.budget) :
  a.readOn setting encoding.isSpace (Written.renderAll ws ++ rest)
    = (a.withOperands (Written.operands setting.standard setting.termWeight ws)
        (Written.sizeAll ws)).readOn setting encoding.isSpace rest
  := by
  match ws with
  | [] =>
    obtain ⟨⟨operands, _, _⟩, outer, budget⟩ := a
    obtain rfl := hconnective
    obtain rfl := hmode
    simp [Written.renderAll, Written.operands, Written.sizeAll, withOperands]
  | w :: ws =>
    rw [Written.sizeAll] at hbudget
    let read := a.withOperands [w.operand setting.standard setting.termWeight] w.size
    have hmore : Written.sizeAll ws < read.budget := by
      change Written.sizeAll ws < a.budget - w.size
      omega
    rw [Written.renderAll, List.append_assoc,
      readOn_render w (hws w List.mem_cons_self) (separated_renderMore ws hrest) hconnective hmode
        (by omega),
      readOn_renderMore,
      readOn_renderAll ws (fun x hx => hws x (List.mem_cons_of_mem w hx)) hrest rfl rfl hmore,
      withOperands_withOperands]
    rfl

end

/-- Reading a written query gives the expression that its operands make, and reads all of it. -/
theorem readOn_finish (ws : List Written) (hws : ∀ w ∈ ws, w.Valid encoding.isSpace)
    {budget : Nat} (hbudget : Written.sizeAll ws < budget) :
  (start budget).readOn setting encoding.isSpace (Written.renderAll ws)
    = .ok (Operand.combine setting.standard
        (Written.operands setting.standard setting.termWeight ws), [])
  := by
  have hread : (start budget).readOn setting encoding.isSpace (Written.renderAll ws ++ []) = _ :=
    readOn_renderAll ws hws separated_nil rfl rfl hbudget
  rw [List.append_nil] at hread
  rw [hread, readOn, lexemes_nil, ← Operand.fold_eq_combine]
  rfl

end Assembly

/-! ### No directives -/

/-- The texts that begin neither with a blank nor with a directive. -/
def Undirected (isSpace : Char → Bool) (l : List Char) : Prop :=
  (∀ c ∈ l.head?, isSpace c = false) ∧ Directive.read? l = none

theorem Undirected.cons {isSpace : Char → Bool} {c : Char} (hspace : isSpace c = false)
    (hc : c ≠ '*') (l : List Char) :
  Undirected isSpace (c :: l)
  := by
  constructor
  · simpa using hspace
  · apply Directive.read?_cons_of_ne hc

theorem Directives.read_of_undirected {isSpace : Char → Bool} {l : List Char}
    (h : Undirected isSpace l) (operator : Operator) :
  Directives.read operator (l.dropWhile isSpace) = .plain (.ofOperator operator, l)
  := by
  have hdrop : l.dropWhile isSpace = l := by
    cases l with
    | nil => rfl
    | cons c l => rw [List.dropWhile_cons_of_neg (by simp [h.1 c rfl])]
  have hnone : Directive.readAll l = ([], l) := by
    rw [Directive.readAll]
    split
    · rfl
    · rename_i heq
      rw [h.2] at heq
      cases heq
  rw [hdrop, Directives.read, hnone]
  rfl

namespace Written

variable {encoding : Encoding}

/-- The signs that begin an operand are not the star of a directive. -/
theorem undirected_sign {c : Char} (hc : c ∈ ['+', '-', '~', '<', '>', 'O', '(', '"'])
    (l : List Char) :
  Undirected encoding.isSpace (c :: l)
  := by
  simp only [List.mem_cons, List.not_mem_nil, or_false] at hc
  rcases hc with rfl | rfl | rfl | rfl | rfl | rfl | rfl | rfl <;>
    apply Undirected.cons (encoding.isSpace_sign _ (by decide)) (by decide) l

theorem undirected_renderFront (connective : Option Connective) {l : List Char}
    (hl : Undirected encoding.isSpace l) :
  Undirected encoding.isSpace (Connective.renderFront connective ++ l)
  := by
  rcases connective with _ | ⟨⟨⟩⟩
  · apply hl
  all_goals
    apply undirected_sign
    decide

/-- The letter of a way of matching is none of a directive. -/
theorem undirected_mode (m : WrittenMode) (l : List Char) :
  Undirected encoding.isSpace (m.render ++ l)
  := by
  constructor
  · intro c hc
    obtain rfl : '*' = c := by simpa [WrittenMode.render] using hc
    apply encoding.isSpace_sign _ (by decide)
  · obtain ⟨letter, option⟩ := m
    cases letter <;> rfl

theorem undirected_term {t : WrittenTerm} (ht : t.Valid encoding.isSpace) (rest : List Char) :
  Undirected encoding.isSpace (t.render ++ rest)
  := by
  obtain ⟨mode, text, isPhrase, isPrefix⟩ := t
  cases mode with
  | some m =>
    rw [WrittenTerm.render, Option.elim_some, List.append_assoc]
    apply undirected_mode
  | none =>
    cases isPhrase with
    | true => apply undirected_sign (by decide)
    | false =>
      cases text with
      | nil => exact absurd rfl ht.nonempty
      | cons c text =>
        obtain ⟨hspace, -, hstar⟩ := ht.unbroken rfl c List.mem_cons_self
        apply Undirected.cons hspace hstar

/-- A written operand does not begin with a directive. -/
theorem undirected_render {w : Written} (hw : w.Valid encoding.isSpace) (rest : List Char) :
  Undirected encoding.isSpace (w.render ++ rest)
  := by
  cases hw with
  | term ht =>
    rw [render, List.append_assoc]
    apply undirected_renderFront
    apply undirected_term ht
  | group hws =>
    rw [render, List.append_assoc]
    apply undirected_renderFront
    apply undirected_sign
    decide

end Written

/-- A query that is written out of operands is read back, however they are nested: all of the
text is read, it gives no directives, and the expression is the one that the operands make from
left to right. The budget must exceed the number of groups and terms. -/
theorem Query.read_renderAll (options : ReadOptions) (ws : List Written)
    (hws : ∀ w ∈ ws, w.Valid options.encoding.isSpace)
    (hbudget : Written.sizeAll ws < options.budget.toNat) :
  (Query.read options (String.ofList (Written.renderAll ws))).value
    = .ok {
        root := Operand.combine options.defaultOperator.connective
          (Written.operands options.defaultOperator.connective options.termWeight ws)
        directives := .ofOperator options.defaultOperator
        rest := "" }
  := by
  have hundirected : Undirected options.encoding.isSpace (Written.renderAll ws) := by
    cases ws with
    | nil =>
      constructor
      · simp [Written.renderAll]
      · rfl
    | cons w ws =>
      rw [Written.renderAll]
      apply Written.undirected_render (hws w List.mem_cons_self)
  have hpos : options.budget ≠ 0 := by
    rintro h
    rw [h] at hbudget
    apply absurd hbudget (Nat.not_lt_zero _)
  let setting : Assembly.Setting :=
    { standard := (Directives.ofOperator options.defaultOperator).defaultOperator.connective
      termWeight := options.termWeight
      size := Text.byteLength (Written.renderAll ws) }
  have hread : (Assembly.start _).readOn setting options.encoding.isSpace _ = _ :=
    Assembly.readOn_finish ws hws hbudget
  rw [Query.read, String.toList_ofList, Query.readChars, if_neg hpos]
  simp only [Directives.read_of_undirected hundirected, Noted.plain]
  rw [Assembly.readOn] at hread
  rw [hread]
  rfl

/-- A directional connective is carried on to the second operand, which is a group of a phrase
and a prefix. -/
theorem Query.read_renderAll_group :
  let a : WrittenTerm := ⟨none, ['a'], false, false⟩
  let b : WrittenTerm := ⟨some ⟨.near, -3⟩, ['b', '"', ')'], true, true⟩
  let c : WrittenTerm := ⟨none, ['c'], false, true⟩
  let ws : List Written := [.term (some .below) a, .group none [.term none b, .term (some .or) c]]
  Written.renderAll ws = "<a (*N-3 \"b\\\")\"* OR c*)".toList
    ∧ (Query.read .standard (String.ofList (Written.renderAll ws))).value
      = .ok {
          root := .join .below (.term ⟨"a", false, false, 5, none⟩)
            (.group (.join .or (.term ⟨"b\")", true, true, 5, some ⟨.near, -3⟩⟩)
              (.term ⟨"c", true, false, 5, none⟩)))
          directives := .ofOperator .or
          rest := "" }
  := by
  intro a b c ws
  have hword : ∀ (x : Char) (isPrefix : Bool), ReadOptions.standard.encoding.isSpace x = false →
      x ∉ [')', '*', '(', '"', '+', '-', '~', '<', '>'] →
      WrittenTerm.Valid ReadOptions.standard.encoding.isSpace ⟨none, [x], false, isPrefix⟩ := by
    intro x isPrefix hspace hx
    simp only [List.mem_cons, List.not_mem_nil, or_false, not_or] at hx
    constructor
    · simp
    · simpa [hx] using hspace
    · simp [hx]
    · simp
  have ha := hword 'a' false (by decide) (by decide)
  have hb : b.Valid ReadOptions.standard.encoding.isSpace := by
    constructor <;> simp [b]
  have hc := hword 'c' true (by decide) (by decide)
  have hws : ∀ w ∈ ws, w.Valid ReadOptions.standard.encoding.isSpace := by
    simp only [ws, List.forall_mem_cons, List.not_mem_nil, false_implies, implies_true, and_true]
    use .term ha
    apply Written.Valid.group
    simp only [List.forall_mem_cons, List.not_mem_nil, false_implies, implies_true, and_true]
    exact ⟨.term hb, .term hc⟩
  constructor
  · have hoption : Text.decimalInt (Int32.toInt (-3)) = ['-', '3'] := by
      rw [show Int32.toInt (-3) = -3 by decide]
      simp [Text.decimalInt, Text.decimal]
    simp only [ws, b, Written.renderAll, Written.renderMore, Written.render, WrittenTerm.render,
      WrittenMode.render, Option.elim_some, hoption]
    rfl
  · apply Query.read_renderAll .standard ws hws
    decide

end Retrieval
