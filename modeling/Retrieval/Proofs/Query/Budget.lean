import Retrieval.Proofs.Query.Cut

/-!
# The budget of a query

Two runs over the same lexemes with different budgets take the same steps as long as both have a
budget left, so a larger budget only makes a query longer. The text that a query was read from,
without what was left of it, is read as the same query with any budget that is as large: nothing
that was looked at is missing, and there is nothing left that a larger budget could take up.
-/

namespace Retrieval

/-! ### Steps -/

namespace Assembly

variable {setting : Setting}

/-- The size of the text is only remarked on. -/
theorem value_step_size (a : Assembly) (x : PlacedLexeme) (size : Nat) :
  (a.step { setting with size } x).value = (a.step setting x).value
  := by
  rw [step, step]
  split
  · rfl
  · rfl
  · rfl
  · rw [closeLevel, closeLevel]
    split <;> rfl
  · rfl
  · rfl

theorem value_run_size (a : Assembly) (xs : List PlacedLexeme) (size : Nat) :
  (a.run { setting with size } xs).value = (a.run setting xs).value
  := by
  induction xs generalizing a with
  | nil => rfl
  | cons x xs ih =>
    rw [value_run_cons, value_run_cons, value_step_size]
    simp only [ih]
    rfl

/-- A step that goes on does so with a larger budget too. Where the lexeme stands makes no
difference to it. -/
theorem step_goOn {a a' : Assembly} {x y : PlacedLexeme} {budget : Nat}
    (h : (a.step setting x).value = .goOn a') (hxy : y.lexeme = x.lexeme)
    (hbudget : a.budget ≤ budget) :
  ({ a with budget }.step setting y).value
    = .goOn { a' with budget := budget - x.lexeme.cost }
  := by
  rw [step] at h
  rw [step, hxy]
  cases hx : x.lexeme with
  | mode choice =>
    rw [hx] at h
    cases h
    rfl
  | opening =>
    rw [hx] at h
    cases h
    rfl
  | closing =>
    rw [hx] at h
    cases houter : a.outer with
    | nil => simp [closeLevel, houter] at h
    | cons level outer =>
      simp only [closeLevel, houter, Progress.goOn.injEq] at h ⊢
      subst h
      rfl
  | connective c =>
    rw [hx] at h
    cases h
    rfl
  | phrase text closed isPrefix =>
    rw [hx] at h
    simp only [addPhrase] at h ⊢
    cases htext : text.isEmpty with
    | true =>
      simp only [htext, if_true, Progress.goOn.injEq] at h
      subst h
      simp [Lexeme.cost, htext]
    | false =>
      simp only [Lexeme.cost, htext, Bool.false_eq_true, if_false] at h ⊢
      split at h
      · cases h
        rw [if_pos (by assumption)]
        rfl
      · split at h
        · cases h
        · cases h
          rw [if_neg (by assumption), if_neg (by omega)]
          rfl
  | word text isPrefix =>
    rw [hx] at h
    cases h
    rfl

/-- A step that ends a query does so with any budget, and leaves what follows its lexeme. -/
theorem step_halt {a a' : Assembly} {x y : PlacedLexeme} {rest : List Char}
    (h : (a.step setting x).value = .halt a' rest) (hxy : y.lexeme = x.lexeme) (budget : Nat) :
  ({ a with budget }.step setting y).value = .halt { a with budget } y.rest
  := by
  rw [step] at h
  rw [step, hxy]
  split at h
  · cases h
  · cases h
  · cases h
  · rw [closeLevel] at h ⊢
    split at h
    · rename_i houter
      simp only [houter]
    · cases h
  · rw [addPhrase] at h
    split at h
    · cases h
    · split at h
      · cases h
      · split at h <;> cases h
  · cases h

/-- A step that goes on leaves no more of the budget than one with a larger budget does. -/
theorem budget_le_of_step {a a' : Assembly} {x : PlacedLexeme} {budget : Nat}
    (h : (a.step setting x).value = .goOn a') (hbudget : a.budget ≤ budget) :
  a'.budget ≤ budget - x.lexeme.cost
  := by
  have houtcome : Outcome a x (a.step setting x).value := a.outcome_step x
  rw [h] at houtcome
  rw [houtcome.1]
  omega

/-! ### Runs -/

variable {isSpace : Char → Bool}

/-- What a run that succeeds does at a lexeme: its budget is spent, or it takes a step and goes
on, or it ends there. -/
theorem run_cons_cases {a : Assembly} {x : PlacedLexeme} {xs : List PlacedLexeme} {e : Expr}
    {rest : List Char} (h : (a.run setting (x :: xs)).value = .ok (e, rest)) :
  (a.budget = 0 ∧ (a.finish setting).value = e ∧ rest = x.source)
    ∨ (a.budget ≠ 0 ∧ ∃ a', (a.step setting x).value = .goOn a'
      ∧ (a'.run setting xs).value = .ok (e, rest))
    ∨ (a.budget ≠ 0 ∧ (a.step setting x).value = .halt a rest ∧ (a.finish setting).value = e
      ∧ rest = x.rest)
  := by
  rw [value_run_cons] at h
  split at h
  · rename_i hspent
    cases h
    exact .inl ⟨hspent, rfl, rfl⟩
  · rename_i hbudget
    right
    have houtcome : Outcome a x (a.step setting x).value := a.outcome_step x
    split at h
    · rename_i a' hstep
      exact .inl ⟨hbudget, a', hstep, h⟩
    · rename_i hstep
      rw [hstep] at houtcome
      obtain ⟨rfl, hrest⟩ := houtcome
      cases h
      exact .inr ⟨hbudget, hstep, rfl, hrest⟩
    · cases h

theorem run_cons_of_goOn {a a' : Assembly} {x : PlacedLexeme} (hbudget : a.budget ≠ 0)
    (h : (a.step setting x).value = .goOn a') (xs : List PlacedLexeme) :
  (a.run setting (x :: xs)).value = (a'.run setting xs).value
  := by
  rw [value_run_cons, if_neg hbudget, h]

theorem run_cons_of_halt {a : Assembly} {x : PlacedLexeme} {rest : List Char}
    (hbudget : a.budget ≠ 0) (h : (a.step setting x).value = .halt a rest)
    (xs : List PlacedLexeme) :
  (a.run setting (x :: xs)).value = .ok ((a.finish setting).value, rest)
  := by
  rw [value_run_cons, if_neg hbudget, h]

/-- Blanks are no lexemes. -/
theorem lexemes_of_blank {l : List Char} (h : l.dropWhile isSpace = []) :
  lexemes isSpace l = []
  := by
  rw [lexemes_eq, h]

/-- The first lexeme, where it is known what is read. -/
theorem lexemes_of_read {c : Char} {l l' r : List Char} {x : Lexeme}
    (hl : l.dropWhile isSpace = c :: l') (hread : Lexeme.read isSpace c l' = (x, r)) :
  lexemes isSpace l = ⟨x, c :: l', r⟩ :: lexemes isSpace r
  := by
  rw [lexemes_of_dropWhile hl, hread]

theorem length_lt_of_read {c : Char} {l l' r : List Char} {x : Lexeme}
    (hl : l.dropWhile isSpace = c :: l') (hread : Lexeme.read isSpace c l' = (x, r)) :
  r.length < l.length
  := by
  have hle := Lexeme.length_read_le isSpace c l'
  have hle' := (List.dropWhile_suffix isSpace (l := l)).length_le
  rw [hread] at hle
  rw [hl, List.length_cons] at hle'
  dsimp only at hle
  omega

/-- What a run leaves is its text from the first lexeme on if its budget is spent, or else it comes
after the first lexeme. -/
theorem rest_run_cons {a : Assembly} {e : Expr} {x : PlacedLexeme} {rest : List Char}
    (h : (a.run setting (x :: lexemes isSpace x.rest)).value = .ok (e, rest)) :
  (a.budget = 0 ∧ rest = x.source) ∨ (a.budget ≠ 0 ∧ rest <:+ x.rest)
  := by
  obtain ⟨hspent, -, rfl⟩ | ⟨hbudget, a', -, hrun⟩ | ⟨hbudget, -, -, rfl⟩ := run_cons_cases h
  · exact .inl ⟨hspent, rfl⟩
  · exact .inr ⟨hbudget, (rest_run _ hrun).1⟩
  · exact .inr ⟨hbudget, List.suffix_refl _⟩

/-- If a run leaves all that comes after a star, the star could be a mark. -/
theorem endsMark_of_run (hstar : isSpace '*' = false) {a : Assembly} {e : Expr} {rest : List Char}
    (h : (a.run setting (lexemes isSpace ('*' :: rest))).value = .ok (e, rest)) :
  Lexeme.EndsMark isSpace rest
  := by
  have hl : ('*' :: rest).dropWhile isSpace = '*' :: rest :=
    List.dropWhile_cons_of_neg (by simp [hstar])
  rw [lexemes_of_dropWhile hl] at h
  obtain ⟨-, hrest⟩ | ⟨-, hrest⟩ := rest_run_cons h
  · apply absurd hrest
    simp
  · apply Lexeme.endsMark_of_read_star
    apply (Lexeme.read_suffix isSpace '*' rest).eq_of_length_le hrest.length_le

/-- The first lexeme of a text, when what is left after it ends with what is cut off the text. -/
theorem lexemes_cut {c : Char} {l l' r rest : List Char} {x : Lexeme}
    (hl : (l ++ rest).dropWhile isSpace = c :: l')
    (hread : Lexeme.read isSpace c l' = (x, r ++ rest))
    (hmark : r = ['*'] → Lexeme.EndsMark isSpace rest) :
  (∃ source, lexemes isSpace l = ⟨x, source, r⟩ :: lexemes isSpace r) ∧ r.length < l.length
  := by
  have hsuffix := Lexeme.read_suffix isSpace c l'
  rw [hread] at hsuffix
  obtain ⟨l', rfl⟩ := (List.suffix_append r rest).trans hsuffix
  have hl₀ : l.dropWhile isSpace = c :: l' := (dropWhile_cut hl).1
  have hread₀ := Lexeme.read_cut hread hmark
  use ⟨c :: l', lexemes_of_read hl₀ hread₀⟩
  apply length_lt_of_read hl₀ hread₀

/-- The text that a run takes up is taken up by a run with as large a budget, which leaves
nothing and gives the same expression. -/
theorem run_taken (hstar : isSpace '*' = false) {l rest : List Char} {a : Assembly} {e : Expr}
    {budget : Nat} (h : (a.run setting (lexemes isSpace (l ++ rest))).value = .ok (e, rest))
    (hbudget : a.budget ≤ budget) :
  ({ a with budget }.run setting (lexemes isSpace l)).value = .ok (e, [])
  := by
  induction hlength : l.length using Nat.strongRecOn generalizing l a budget with
  | ind n ih =>
    cases hl : (l ++ rest).dropWhile isSpace with
    | nil =>
      rw [lexemes_of_blank hl] at h
      cases h
      rw [List.append_nil] at hl
      rw [lexemes_of_blank hl]
      rfl
    | cons c l' =>
      cases hread : Lexeme.read isSpace c l' with
      | mk x y =>
        rw [lexemes_of_read hl hread] at h
        obtain ⟨-, rfl, hrest⟩ | ⟨hne, a', hstep, hrun⟩ | ⟨hne, hstep, rfl, hrest⟩ :=
          run_cons_cases h
        · -- the budget is spent, so that the text ends with blanks
          obtain rfl : rest = c :: l' := hrest
          rw [lexemes_of_blank (dropWhile_cut (r := []) hl).1]
          rfl
        · have hne' : budget ≠ 0 := by omega
          obtain ⟨r, rfl⟩ := (rest_run y hrun).1
          obtain ⟨⟨source, hlexemes⟩, hshorter⟩ :=
            lexemes_cut hl hread fun hr => endsMark_of_run hstar (hr ▸ hrun)
          have hstep' := step_goOn (y := ⟨x, source, r⟩) hstep rfl hbudget
          rw [hlexemes, run_cons_of_goOn hne' hstep']
          apply ih r.length (hlength ▸ hshorter) hrun (budget_le_of_step hstep hbudget) rfl
        · have hne' : budget ≠ 0 := by omega
          obtain rfl : rest = y := hrest
          obtain ⟨⟨source, hlexemes⟩, -⟩ := lexemes_cut (r := []) hl hread nofun
          have hstep' := step_halt (y := ⟨x, source, []⟩) hstep rfl budget
          rw [hlexemes, run_cons_of_halt hne' hstep']
          rfl

/-- A larger budget leaves no more of a text. -/
theorem suffix_of_run {l rest rest' : List Char} {a : Assembly} {e e' : Expr} {budget : Nat}
    (hbudget : a.budget ≤ budget)
    (h : (a.run setting (lexemes isSpace l)).value = .ok (e, rest))
    (h' : ({ a with budget }.run setting (lexemes isSpace l)).value = .ok (e', rest')) :
  rest' <:+ rest
  := by
  induction hlength : l.length using Nat.strongRecOn generalizing l a budget with
  | ind n ih =>
    cases hl : l.dropWhile isSpace with
    | nil =>
      rw [lexemes_of_blank hl] at h h'
      cases h
      cases h'
      apply List.suffix_refl
    | cons c l' =>
      have hsuffix := Lexeme.read_suffix isSpace c l'
      cases hread : Lexeme.read isSpace c l' with
      | mk x y =>
        rw [hread] at hsuffix
        rw [lexemes_of_read hl hread] at h h'
        obtain ⟨-, -, rfl⟩ | ⟨hne, a', hstep, hrun⟩ | ⟨hne, hstep, -, rfl⟩ := run_cons_cases h
        · obtain ⟨-, rfl⟩ | ⟨-, hrest'⟩ := rest_run_cons h'
          · apply List.suffix_refl
          · exact hrest'.trans (hsuffix.trans (List.suffix_cons _ _))
        · have hne' : budget ≠ 0 := by omega
          rw [run_cons_of_goOn hne' (step_goOn hstep rfl hbudget)] at h'
          apply ih y.length (hlength ▸ length_lt_of_read hl hread)
            (budget_le_of_step hstep hbudget) hrun h' rfl
        · have hne' : budget ≠ 0 := by omega
          rw [run_cons_of_halt hne' (step_halt hstep rfl budget)] at h'
          cases h'
          apply List.suffix_refl

end Assembly

/-! ### Queries -/

theorem Directive.cuttable_readAll_dropWhile {isSpace : Char → Bool} :
  Cuttable fun l => readAll (l.dropWhile isSpace)
  := by
  intro l rest r directives h
  dsimp only at h ⊢
  have hsuffix := readAll_suffix ((l ++ rest).dropWhile isSpace)
  rw [h] at hsuffix
  obtain ⟨y, hy⟩ := (List.suffix_append r rest).trans hsuffix
  rw [← hy] at h
  rw [(dropWhile_cut hy.symm).1]
  apply cuttable_readAll h

namespace Query

/-- A query is read from the lexemes after its directives, if the budget allows for any. The
setting of the run may say anything about the size of the text. -/
theorem value_readChars (options : ReadOptions) {l rest : List Char} {directives : List Directive}
    (h : Directive.readAll (l.dropWhile options.encoding.isSpace) = (directives, rest))
    (size : Nat) :
  (readChars options l).value
    = if options.budget = 0 then .error .noBudget
      else
        let said := directives.foldl Directive.apply (.ofOperator options.defaultOperator)
        ((Assembly.start options.budget.toNat).run
            ⟨said.defaultOperator.connective, options.termWeight, size⟩
            (lexemes options.encoding.isSpace rest)).value.map
          fun (root, rest) => ⟨root, said, String.ofList rest⟩
  := by
  rw [readChars]
  split
  · rfl
  · simp only [Directives.read, h]
    symm
    apply congrArg (Except.map _)
    rw [← Assembly.value_run_size _ _ (Text.byteLength l)]

theorem readChars_eq_ok {options : ReadOptions} {l : List Char} {q : Query} (size : Nat) :
  (readChars options l).value = .ok q
    ↔ options.budget ≠ 0 ∧ ∃ directives rest,
      Directive.readAll (l.dropWhile options.encoding.isSpace) = (directives, rest)
        ∧ q.directives = directives.foldl Directive.apply (.ofOperator options.defaultOperator)
        ∧ ((Assembly.start options.budget.toNat).run
            ⟨q.directives.defaultOperator.connective, options.termWeight, size⟩
            (lexemes options.encoding.isSpace rest)).value
          = .ok (q.root, q.rest.toList)
  := by
  rcases hread : Directive.readAll (l.dropWhile options.encoding.isSpace) with ⟨directives, rest⟩
  rw [value_readChars options hread size]
  split
  · simp [*]
  · rename_i hbudget
    dsimp only
    constructor
    · intro h
      cases hrun : (Assembly.run _ (Assembly.start options.budget.toNat) _).value with
      | error e =>
        rw [hrun] at h
        cases h
      | ok read =>
        rw [hrun] at h
        cases h
        refine ⟨hbudget, directives, rest, rfl, rfl, ?_⟩
        rw [String.toList_ofList, ← hrun]
    · rintro ⟨-, _, _, hsame, hdirectives, hrun⟩
      obtain ⟨rfl, rfl⟩ := Prod.mk.inj hsame
      rw [← hdirectives, hrun]
      simp [Except.map]

/-- A query ends where its budget does, and a larger budget changes nothing else: the text that
it was read from, without what was left, gives the same query with any budget that is as large,
and of the whole text such a budget leaves no more. -/
theorem read_truncated {options : ReadOptions} {text : String} {q : Query}
    (h : (read options text).value = .ok q) :
  ∃ front : String, text = front ++ q.rest ∧ ∀ budget : UInt32, options.budget ≤ budget →
    (read { options with budget } front).value = .ok { q with rest := "" }
      ∧ ∀ q' : Query, (read { options with budget } text).value = .ok q' →
        q'.rest.toList <:+ q.rest.toList
  := by
  have hstar := options.encoding.isSpace_sign '*' (by simp)
  obtain ⟨⟨front, hfront⟩, -⟩ := rest_read h
  use String.ofList front
  constructor
  · rw [← String.toList_inj, String.toList_append, String.toList_ofList, hfront]
  intro budget hle
  rw [read] at h
  rw [← hfront, readChars_eq_ok 0] at h
  obtain ⟨hbudget, directives, y, hread, hdirectives, hrun⟩ := h
  obtain ⟨r, rfl⟩ := (Assembly.rest_run y hrun).1
  have hle' : options.budget.toNat ≤ budget.toNat := UInt32.le_iff_toNat_le.mp hle
  have hbudget' : budget ≠ 0 := by
    rintro rfl
    apply hbudget
    apply UInt32.toNat_inj.mp
    exact Nat.eq_zero_of_le_zero hle'
  constructor
  · rw [read, readChars_eq_ok 0, String.toList_ofList]
    refine ⟨hbudget', directives, r, Directive.cuttable_readAll_dropWhile hread, hdirectives, ?_⟩
    apply Assembly.run_taken hstar hrun hle'
  · intro q' h'
    rw [read] at h'
    rw [← hfront, readChars_eq_ok 0] at h'
    obtain ⟨-, directives', y', hread', hdirectives', hrun'⟩ := h'
    obtain ⟨rfl, rfl⟩ := Prod.mk.inj (hread'.symm.trans hread)
    rw [hdirectives', ← hdirectives] at hrun'
    apply Assembly.suffix_of_run hle' hrun hrun'

/-- A bracket that is open where the budget ends. The phrase after it is left with its mark, of
which nothing is seen in the text before it. -/
theorem read_truncated_bracket :
  let options : ReadOptions := { ReadOptions.standard with budget := 2 }
  let q : Query := ⟨.group (.term ⟨"a", false, false, 5, none⟩), .ofOperator .or, "\"b c\"* d)"⟩
  (read options "(a \"b c\"* d)").value = .ok q
    ∧ ∃ front : String, "(a \"b c\"* d)" = front ++ q.rest
      ∧ ∀ budget : UInt32, options.budget ≤ budget →
        (read { options with budget } front).value = .ok { q with rest := "" }
          ∧ ∀ q' : Query, (read { options with budget } "(a \"b c\"* d)").value = .ok q' →
            q'.rest.toList <:+ q.rest.toList
  := by
  intro options q
  have hread : (read options "(a \"b c\"* d)").value = .ok q := by decide +kernel
  exact ⟨hread, read_truncated hread⟩

end Query

end Retrieval
