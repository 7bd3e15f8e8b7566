import Retrieval.Proofs.Query.Budget

/-!
# The budget at which reading fails

Reading fails only where the last of the budget is spent on a phrase without an end, which is then
the last lexeme of the text. A smaller budget is spent before that phrase, which is left, and a
larger one takes it up. So there is one budget at most with which a text cannot be read.
-/

namespace Retrieval

/-! ### Phrases without an end -/

namespace Lexeme

variable {isSpace : Char → Bool}

/-- A phrase without an end takes up all of the text. -/
theorem readPhrase_open {l : List Char} (h : (readPhrase l).2.1 = false) :
  (readPhrase l).2.2 = []
  := by
  fun_induction readPhrase l with
  | case1 => rfl
  | case2 => cases h
  | case3 => rfl
  | case4 c l text closed rest hread ih =>
    rw [hread] at ih
    exact ih h
  | case5 c l _ _ _ text closed rest hread ih =>
    rw [hread] at ih
    exact ih h

theorem phraseAfterQuote_open {l rest text : List Char} {isPrefix : Bool}
    (h : phraseAfterQuote isSpace l = (phrase text false isPrefix, rest)) :
  readPhrase l = (text, false, []) ∧ isPrefix = false ∧ rest = []
  := by
  have hopen := readPhrase_open (l := l)
  rcases hread : readPhrase l with ⟨text', closed, rest'⟩
  rw [phraseAfterQuote, hread] at h
  rw [hread] at hopen
  dsimp only at h
  split at h
  · rename_i hclosed
    cases closed with
    | true => simp at h
    | false => exact absurd hclosed.1 Bool.false_ne_true
  · simp only [Prod.mk.injEq, phrase.injEq] at h
    obtain ⟨⟨rfl, rfl, rfl⟩, rfl⟩ := h
    obtain rfl : rest' = [] := hopen rfl
    exact ⟨rfl, rfl, rfl⟩

/-- Only a quote begins a phrase. -/
theorem phraseAfterQuote_of_read {c : Char} {l rest text : List Char} {closed isPrefix : Bool}
    (h : read isSpace c l = (phrase text closed isPrefix, rest)) :
  c = '"' ∧ phraseAfterQuote isSpace l = (phrase text closed isPrefix, rest)
  := by
  have hword : readWord isSpace c l ≠ (phrase text closed isPrefix, rest) := by
    intro h
    rw [readWord, finishWord.eq_def] at h
    split at h
    · cases h
    · split at h <;> cases h
  unfold read at h
  split at h
  · cases h
  · cases h
  · exact ⟨rfl, h⟩
  · split at h
    · rw [readMode] at h
      dsimp only at h
      split at h <;> cases h
    · exact absurd h hword
  · split at h
    · cases h
    · exact absurd h hword

end Lexeme

/-- The lexemes of a text end with a phrase that has some text and no end quote. -/
def EndsOpen (isSpace : Char → Bool) (l : List Char) : Prop :=
  ∃ quoted phrase : List Char, '"' :: quoted <:+ l
    ∧ Lexeme.readPhrase quoted = (phrase, false, []) ∧ phrase ≠ []
    ∧ (lexemes isSpace l).getLast? = some ⟨.phrase phrase false false, '"' :: quoted, []⟩

section openPhrases

variable {isSpace : Char → Bool} {c : Char} {l l' r : List Char} {x : Lexeme}

/-- A text that ends with a phrase without an end, behind a lexeme. -/
theorem EndsOpen.cons (h : EndsOpen isSpace r) (hl : l.dropWhile isSpace = c :: l')
    (hread : Lexeme.read isSpace c l' = (x, r)) :
  EndsOpen isSpace l
  := by
  obtain ⟨quoted, phrase, hsuffix, hphrase, hne, hlast⟩ := h
  have hr : r <:+ l := by
    have hread' := Lexeme.read_suffix isSpace c l'
    rw [hread] at hread'
    exact hread'.trans ((List.suffix_cons c l').trans (hl ▸ List.dropWhile_suffix isSpace))
  refine ⟨quoted, phrase, hsuffix.trans hr, hphrase, hne, ?_⟩
  rw [Assembly.lexemes_of_read hl hread, List.getLast?_cons, hlast]
  rfl

/-- A phrase without an end is the last lexeme. -/
theorem endsOpen_of_read {phrase : List Char} {isPrefix : Bool} (hne : phrase ≠ [])
    (hl : l.dropWhile isSpace = c :: l')
    (hread : Lexeme.read isSpace c l' = (.phrase phrase false isPrefix, r)) :
  EndsOpen isSpace l ∧ r = []
  := by
  obtain ⟨rfl, hafter⟩ := Lexeme.phraseAfterQuote_of_read hread
  obtain ⟨hphrase, rfl, rfl⟩ := Lexeme.phraseAfterQuote_open hafter
  refine ⟨⟨l', phrase, hl ▸ List.dropWhile_suffix isSpace, hphrase, hne, ?_⟩, rfl⟩
  rw [Assembly.lexemes_of_read hl hread, lexemes_nil]
  rfl

end openPhrases

/-! ### Runs with different budgets -/

namespace Assembly

variable {setting : Setting} {isSpace : Char → Bool}

/-- A step fails only at a phrase without an end that takes all of the budget. -/
theorem step_fail {a : Assembly} {x : PlacedLexeme} {e : Error}
    (h : (a.step setting x).value = .fail e) :
  a.budget ≤ 1 ∧ ∃ text isPrefix, x.lexeme = .phrase text false isPrefix ∧ text ≠ []
  := by
  rw [step] at h
  split at h
  · cases h
  · cases h
  · cases h
  · rw [closeLevel] at h
    split at h <;> cases h
  · rename_i text closed isPrefix hx
    rw [addPhrase] at h
    split at h
    · cases h
    · rename_i htext
      split at h
      · cases h
      · rename_i hclosed
        split at h
        · rename_i hbudget
          rw [Bool.not_eq_true] at hclosed
          subst hclosed
          exact ⟨hbudget, text, isPrefix, hx, by simpa using htext⟩
        · cases h
  · cases h

/-- What a run that fails does at a lexeme: it takes a step and fails later, or the step fails. -/
theorem run_cons_error {a : Assembly} {x : PlacedLexeme} {xs : List PlacedLexeme} {e : Error}
    (h : (a.run setting (x :: xs)).value = .error e) :
  a.budget ≠ 0 ∧ ((∃ a', (a.step setting x).value = .goOn a' ∧ (a'.run setting xs).value = .error e)
    ∨ (a.step setting x).value = .fail e)
  := by
  rw [value_run_cons] at h
  split at h
  · cases h
  · rename_i hbudget
    use hbudget
    split at h
    · rename_i a' hstep
      exact .inl ⟨a', hstep, h⟩
    · cases h
    · rename_i hstep
      cases h
      exact .inr hstep

/-- A step with a lexeme that is no phrase without an end goes on with any budget. -/
theorem step_goOn_of_not_open {a a' : Assembly} {x : PlacedLexeme} (budget : Nat)
    (h : (a.step setting x).value = .goOn a')
    (hx : ∀ text isPrefix, x.lexeme = .phrase text false isPrefix → text = []) :
  ({ a with budget }.step setting x).value = .goOn { a' with budget := budget - x.lexeme.cost }
  := by
  by_cases hle : a.budget ≤ budget
  · apply step_goOn h rfl hle
  · -- with the smaller budget the step does nothing that it would not do with the larger one
    have hle' : budget ≤ a.budget := Nat.le_of_not_le hle
    let small : Assembly := { a with budget }
    have houtcome : Outcome small x (small.step setting x).value := small.outcome_step x
    cases hstep : (small.step setting x).value with
    | goOn b =>
      have hback : (a.step setting x).value = .goOn { b with budget := a.budget - x.lexeme.cost } :=
        step_goOn (a := small) hstep rfl hle'
      rw [hstep] at houtcome
      obtain ⟨hcost, -⟩ := houtcome
      obtain rfl := Progress.goOn.inj (h.symm.trans hback)
      obtain ⟨inner, outer, left⟩ := b
      obtain rfl : left = budget - x.lexeme.cost := hcost
      rfl
    | halt b rest =>
      have hback : (a.step setting x).value = .halt a x.rest :=
        step_halt (a := small) hstep rfl a.budget
      rw [h] at hback
      cases hback
    | fail e =>
      obtain ⟨-, text, isPrefix, hlexeme, hne⟩ := step_fail hstep
      exact absurd (hx text isPrefix hlexeme) hne

/-- Without a budget a run leaves its text from the first lexeme on. -/
theorem exists_left_of_spent {a : Assembly} (hbudget : a.budget = 0) (x : Lexeme) (c : Char)
    (l r : List Char) (xs : List PlacedLexeme) :
  ∃ root rest, (a.run setting (⟨x, c :: l, r⟩ :: xs)).value = .ok (root, rest) ∧ rest ≠ []
  := by
  use (a.finish setting).value, c :: l
  rw [value_run_cons, if_pos hbudget]
  exact ⟨rfl, List.cons_ne_nil c l⟩

/-- What a run comes to with other budgets, if it fails with its own. -/
structure FailsAlone (setting : Setting) (isSpace : Char → Bool) (a : Assembly) (l : List Char) :
    Prop where
  endsOpen : EndsOpen isSpace l
  /-- A larger budget is enough for all of the text. -/
  larger : ∀ budget, a.budget < budget →
    ∃ root, ({ a with budget }.run setting (lexemes isSpace l)).value = .ok (root, [])
  /-- A smaller one leaves some of it. -/
  smaller : ∀ budget < a.budget,
    ∃ root rest, ({ a with budget }.run setting (lexemes isSpace l)).value = .ok (root, rest)
      ∧ rest ≠ []

section failsAlone

variable {a a' : Assembly} {c : Char} {l l' r : List Char} {x : Lexeme} {e : Error}

/-- A lexeme that a step goes on from, in front of a text at which the run fails. -/
theorem FailsAlone.cons (h : FailsAlone setting isSpace a' r)
    (hl : l.dropWhile isSpace = c :: l') (hread : Lexeme.read isSpace c l' = (x, r))
    (hbudget : a.budget ≠ 0) (hstep : (a.step setting ⟨x, c :: l', r⟩).value = .goOn a')
    (hx : ∀ text isPrefix, x = .phrase text false isPrefix → text = []) :
  FailsAlone setting isSpace a l
  := by
  have houtcome : Outcome a ⟨x, c :: l', r⟩ (a.step setting ⟨x, c :: l', r⟩).value :=
    a.outcome_step _
  rw [hstep] at houtcome
  have hleft : a'.budget = a.budget - x.cost := houtcome.1
  have hcost := x.cost_le
  have hgoOn : ∀ budget ≠ 0, ({ a with budget }.run setting (lexemes isSpace l)).value
      = ({ a' with budget := budget - x.cost }.run setting (lexemes isSpace r)).value := by
    intro budget hne
    rw [lexemes_of_read hl hread]
    apply run_cons_of_goOn hne (step_goOn_of_not_open budget hstep hx)
  constructor
  · exact h.endsOpen.cons hl hread
  · intro budget hlt
    rw [hgoOn budget (by omega)]
    apply h.larger
    omega
  · intro budget hlt
    by_cases hspent : budget = 0
    · rw [lexemes_of_read hl hread]
      apply exists_left_of_spent hspent
    · rw [hgoOn budget hspent]
      apply h.smaller
      omega

/-- A step that fails does so at the last lexeme, and with its own budget only. -/
theorem failsAlone_of_fail (hl : l.dropWhile isSpace = c :: l')
    (hread : Lexeme.read isSpace c l' = (x, r)) (hbudget : a.budget ≠ 0)
    (hstep : (a.step setting ⟨x, c :: l', r⟩).value = .fail e) :
  FailsAlone setting isSpace a l
  := by
  obtain ⟨hle, text, isPrefix, rfl, hne⟩ := step_fail hstep
  obtain ⟨hopen, rfl⟩ := endsOpen_of_read hne hl hread
  constructor
  · exact hopen
  · intro budget hlt
    have hmore : ¬budget ≤ 1 := by omega
    have htaken : ({ a with budget }.step setting
        ⟨.phrase text false isPrefix, c :: l', []⟩).value
          = .goOn ({ a with budget }.addTerm setting text isPrefix true) := by
      simp [step, addPhrase, hne, hmore]
    rw [lexemes_of_read hl hread, run_cons_of_goOn (Nat.ne_zero_of_lt hlt) htaken, lexemes_nil]
    exact ⟨_, rfl⟩
  · intro budget hlt
    rw [lexemes_of_read hl hread]
    apply exists_left_of_spent
    dsimp only
    omega

/-- A run that fails does so with its own budget only. -/
theorem failsAlone_of_error (h : (a.run setting (lexemes isSpace l)).value = .error e) :
  FailsAlone setting isSpace a l
  := by
  induction hlength : l.length using Nat.strongRecOn generalizing l a with
  | ind n ih =>
    cases hl : l.dropWhile isSpace with
    | nil =>
      rw [lexemes_of_blank hl] at h
      cases h
    | cons c l' =>
      rcases hread : Lexeme.read isSpace c l' with ⟨x, r⟩
      rw [lexemes_of_read hl hread] at h
      obtain ⟨hbudget, ⟨a', hstep, hrun⟩ | hstep⟩ := run_cons_error h
      · have hmore := ih r.length (hlength ▸ length_lt_of_read hl hread) hrun rfl
        apply hmore.cons hl hread hbudget hstep
        rintro text isPrefix rfl
        by_contra hne
        -- nothing comes after a phrase without an end, so that the run would not fail later
        obtain ⟨-, rfl⟩ := endsOpen_of_read hne hl hread
        rw [lexemes_nil] at hrun
        cases hrun
      · apply failsAlone_of_fail hl hread hbudget hstep

end failsAlone

end Assembly

/-! ### Queries -/

namespace Query

/-- With any budget a query is read from the same lexemes, in the same setting. -/
theorem value_read_budgets (options : ReadOptions) (text : String) :
  ∃ (directives : Directives) (setting : Assembly.Setting), ∀ budget : UInt32, budget ≠ 0 →
    (read { options with budget } text).value
      = ((Assembly.start budget.toNat).run setting (lexemes options.encoding.isSpace
          (Directive.readAll (text.toList.dropWhile options.encoding.isSpace)).2)).value.map
        fun (root, rest) => ⟨root, directives, String.ofList rest⟩
  := by
  rcases hread : Directive.readAll (text.toList.dropWhile options.encoding.isSpace)
    with ⟨directives, body⟩
  let said := directives.foldl Directive.apply (.ofOperator options.defaultOperator)
  use said, ⟨said.defaultOperator.connective, options.termWeight, 0⟩
  intro budget hbudget
  have hchars := value_readChars { options with budget } hread 0
  rwa [if_neg hbudget] at hchars

/-- There is at most one budget with which a text cannot be read. If there is one, the text ends
with a phrase that has no end, all of the text is read with any larger budget, and some of it is
left with any smaller one. -/
theorem failing_budget {options : ReadOptions} (hbudget : options.budget ≠ 0) {text : String}
    {e : Error} (h : (read options text).value = .error e) :
  let body := (Directive.readAll (text.toList.dropWhile options.encoding.isSpace)).2
  (body <:+ text.toList ∧ EndsOpen options.encoding.isSpace body)
    ∧ ∀ budget : UInt32, budget ≠ 0 →
      (options.budget < budget →
        ∃ q, (read { options with budget } text).value = .ok q ∧ q.rest = "")
      ∧ (budget < options.budget →
        ∃ q, (read { options with budget } text).value = .ok q ∧ q.rest ≠ "")
      ∧ ∀ e', (read { options with budget } text).value = .error e' → budget = options.budget
  := by
  intro body
  obtain ⟨directives, setting, hread⟩ := value_read_budgets options text
  have hsuffix : body <:+ text.toList :=
    (Directive.readAll_suffix _).trans (List.dropWhile_suffix options.encoding.isSpace)
  obtain ⟨e', hrun⟩ : ∃ e', ((Assembly.start options.budget.toNat).run setting
      (lexemes options.encoding.isSpace body)).value = .error e' := by
    rw [show options = { options with budget := options.budget } from rfl, hread _ hbudget] at h
    cases hrun : (Assembly.run setting _ _).value with
    | error e' => exact ⟨e', rfl⟩
    | ok r =>
      rw [hrun] at h
      cases h
  obtain ⟨hopen, hlarger, hsmaller⟩ := Assembly.failsAlone_of_error hrun
  have hok : ∀ budget : UInt32, budget ≠ 0 → ∀ root rest,
      ((Assembly.start budget.toNat).run setting
        (lexemes options.encoding.isSpace body)).value = .ok (root, rest) →
      (read { options with budget } text).value
        = .ok ⟨root, directives, String.ofList rest⟩ := by
    intro budget hne root rest hroot
    rw [hread budget hne, hroot]
    rfl
  have hmore : ∀ budget : UInt32, budget ≠ 0 → options.budget < budget →
      ∃ q, (read { options with budget } text).value = .ok q ∧ q.rest = "" := by
    intro budget hne hlt
    obtain ⟨root, hroot⟩ := hlarger budget.toNat (UInt32.lt_iff_toNat_lt.mp hlt)
    exact ⟨_, hok budget hne root [] hroot, rfl⟩
  have hless : ∀ budget : UInt32, budget ≠ 0 → budget < options.budget →
      ∃ q, (read { options with budget } text).value = .ok q ∧ q.rest ≠ "" := by
    intro budget hne hlt
    obtain ⟨root, rest, hroot, hrest⟩ := hsmaller budget.toNat (UInt32.lt_iff_toNat_lt.mp hlt)
    refine ⟨_, hok budget hne root rest hroot, ?_⟩
    rwa [Ne, String.ofList_eq_empty_iff]
  refine ⟨⟨hsuffix, hopen⟩, fun budget hne => ⟨hmore budget hne, hless budget hne, ?_⟩⟩
  intro e' h'
  by_contra hother
  have hsucceeds : ∃ q, (read { options with budget } text).value = .ok q := by
    obtain hlt | hlt := UInt32.lt_or_lt_of_ne hother
    · obtain ⟨q, hq, -⟩ := hless budget hne hlt
      exact ⟨q, hq⟩
    · obtain ⟨q, hq, -⟩ := hmore budget hne hlt
      exact ⟨q, hq⟩
  obtain ⟨q, hq⟩ := hsucceeds
  rw [h'] at hq
  cases hq

/-- Two words and a phrase without an end, two brackets deep. With a budget of five nothing is left
for the phrase. -/
theorem failing_budget_five :
  let options : ReadOptions := { ReadOptions.standard with budget := 5 }
  let text := "*D+ a (b (-*N3 \"c\\\" d"
  options.budget ≠ 0 ∧ (read options text).value = .error .phraseBeyondBudget
    ∧ (∃ q, (read { options with budget := 6 } text).value = .ok q ∧ q.rest = "")
    ∧ (∃ q, (read { options with budget := 4 } text).value = .ok q ∧ q.rest ≠ "")
    ∧ ∀ budget : UInt32, budget ≠ 0 → ∀ e : Error,
      (read { options with budget } text).value = .error e → budget = 5
  := by
  intro options text
  have hbudget : options.budget ≠ 0 := by decide
  have hfails : (read options text).value = .error .phraseBeyondBudget := by decide +kernel
  obtain ⟨-, hothers⟩ := failing_budget hbudget hfails
  exact ⟨hbudget, hfails, (hothers 6 (by decide)).1 (by decide),
    (hothers 4 (by decide)).2.1 (by decide), fun budget hne => (hothers budget hne).2.2⟩

end Query

end Retrieval
