import Retrieval.Proofs.Query.Lexeme
import Mathlib.Algebra.GroupWithZero.Nat

/-!
# What is left of a query

Every reader gives back a suffix of the text it was given, so what is left of a query is a
suffix of its text. A query that may hold an expression takes up some of a text that is not
blank. It never holds more expressions than it may: what has been put together and the budget
that is left are always the budget that there was, or less where exclusions are dropped.
-/

namespace Retrieval

/-! ### What readers leave is a suffix -/

namespace Text

theorem readNumber_suffix (l : List Char) :
  (readNumber l).2 <:+ l
  := List.dropWhile_suffix _

theorem readInteger_suffix (l : List Char) :
  (readInteger l).2 <:+ l
  := by
  unfold readInteger
  split
  · exact (readNumber_suffix _).trans (List.suffix_cons _ _)
  · exact (readNumber_suffix _).trans (List.suffix_cons _ _)
  · apply readNumber_suffix

end Text

namespace Directive

theorem readEscalation_suffix (l : List Char) :
  (readEscalation l).2 <:+ l
  := by
  have hfirst := Text.readInteger_suffix l
  unfold readEscalation
  dsimp only
  split
  · rename_i rest heq
    rw [heq] at hfirst
    exact (Text.readInteger_suffix rest).trans ((List.suffix_cons _ _).trans hfirst)
  · apply hfirst

theorem readWeight_suffix (l : List Char) :
  (readWeight l).2 <:+ l
  := by
  unfold readWeight
  split
  · exact (Text.readInteger_suffix _).trans (List.suffix_cons _ _)
  · apply List.suffix_refl

theorem readWeights_suffix (l : List Char) :
  (readWeights l).2 <:+ l
  := by
  fun_induction readWeights l with
  | case1 => apply List.suffix_refl
  | case2 l _ _ rest heq _ more rest' hmore ih =>
    have hweight := (readWeight_suffix (Text.readNumber l).2).trans (Text.readNumber_suffix l)
    rw [heq] at hweight
    rw [hmore] at ih
    exact ih.trans ((List.suffix_cons _ _).trans hweight)
  | case3 l => exact (readWeight_suffix _).trans (Text.readNumber_suffix l)

theorem suffix_of_read? {l rest : List Char} {d : Directive} (h : read? l = some (d, rest)) :
  rest <:+ l
  := by
  unfold read? at h
  split at h
  · obtain ⟨-, rfl⟩ := Prod.mk.inj (Option.some.inj h)
    exact (readEscalation_suffix _).trans ((List.suffix_cons _ _).trans (List.suffix_cons _ _))
  · obtain ⟨-, rfl⟩ := Prod.mk.inj (Option.some.inj h)
    exact (List.dropWhile_suffix _).trans ((List.suffix_cons _ _).trans (List.suffix_cons _ _))
  · obtain ⟨-, rfl⟩ := Prod.mk.inj (Option.some.inj h)
    exact (readWeights_suffix _).trans ((List.suffix_cons _ _).trans (List.suffix_cons _ _))
  · cases h

theorem readAll_suffix (l : List Char) :
  (readAll l).2 <:+ l
  := by
  fun_induction readAll l with
  | case1 => apply List.suffix_refl
  | case2 l d rest h _ more rest' hmore ih =>
    rw [hmore] at ih
    exact ih.trans (suffix_of_read? h)

end Directive

namespace Lexeme

variable (isSpace : Char → Bool)

theorem readMode_suffix (choice : ModeChoice) (l : List Char) :
  (readMode choice l).2 <:+ l
  := by
  unfold readMode
  dsimp only
  split
  · apply List.suffix_refl
  · apply Text.readInteger_suffix

theorem readPhrase_suffix (l : List Char) :
  (readPhrase l).2.2 <:+ l
  := by
  fun_induction readPhrase l with
  | case1 => apply List.suffix_refl
  | case2 => apply List.suffix_cons
  | case3 => apply List.nil_suffix
  | case4 c l text closed rest h ih =>
    rw [h] at ih
    exact ih.trans ((List.suffix_cons _ _).trans (List.suffix_cons _ _))
  | case5 c l _ _ _ text closed rest h ih =>
    rw [h] at ih
    exact ih.trans (List.suffix_cons _ _)

theorem readMark_suffix (l : List Char) :
  (readMark isSpace l).2 <:+ l
  := by
  unfold readMark
  split
  · split
    · apply List.suffix_cons
    · apply List.suffix_refl
  · apply List.suffix_refl

theorem phraseAfterQuote_suffix (l : List Char) :
  (phraseAfterQuote isSpace l).2 <:+ l
  := by
  unfold phraseAfterQuote
  dsimp only
  split
  · exact (readMark_suffix isSpace _).trans (readPhrase_suffix l)
  · apply readPhrase_suffix

theorem finishWord_suffix (text l : List Char) :
  (finishWord text l).2 <:+ l
  := by
  unfold finishWord
  split
  · apply List.suffix_cons
  · apply List.suffix_refl

theorem readWord_suffix (c : Char) (l : List Char) :
  (readWord isSpace c l).2 <:+ l
  := (finishWord_suffix _ _).trans (List.dropWhile_suffix fun c => !endsWord isSpace c)

/-- A lexeme takes up its first character at least. -/
theorem read_suffix (c : Char) (l : List Char) :
  (read isSpace c l).2 <:+ l
  := by
  unfold read
  split
  · apply List.suffix_refl
  · apply List.suffix_refl
  · apply phraseAfterQuote_suffix
  · split
    · exact (readMode_suffix _ _).trans (List.suffix_cons _ _)
    · apply readWord_suffix
  · split
    · apply List.suffix_refl
    · apply readWord_suffix

end Lexeme

/-! ### Expressions and the budget -/

/-- How many terms and groups an expression holds. -/
def Expr.size : Expr → Nat
  | empty => 0
  | term _ => 1
  | group child => child.size + 1
  | join _ left right => left.size + right.size

/-- How much of the budget a lexeme takes. -/
def Lexeme.cost : Lexeme → Nat
  | opening => 1
  | word _ _ => 1
  | phrase text _ _ => if text.isEmpty then 0 else 1
  | _ => 0

theorem Lexeme.cost_le (x : Lexeme) :
  x.cost ≤ 1
  := by
  unfold cost
  split
  · apply Nat.le_refl
  · apply Nat.le_refl
  · split
    · apply Nat.zero_le
    · apply Nat.le_refl
  · apply Nat.zero_le

/-- How many terms and groups operands hold. -/
def Operand.total (operands : List Operand) : Nat :=
  (operands.map fun x => x.expr.size).sum

@[simp]
theorem Operand.total_nil :
  total [] = 0
  := rfl

@[simp]
theorem Operand.total_cons (x : Operand) (operands : List Operand) :
  total (x :: operands) = x.expr.size + total operands
  := by
  simp [total]

@[simp]
theorem Operand.total_append (xs ys : List Operand) :
  total (xs ++ ys) = total xs + total ys
  := by
  simp [total]

theorem Operand.total_le_of_suffix {xs ys : List Operand} (h : xs <:+ ys) :
  total xs ≤ total ys
  := by
  obtain ⟨zs, rfl⟩ := h
  rw [total_append]
  apply Nat.le_add_left

theorem Operand.size_foldl_attach (standard : Connective) (left : Expr) (operands : List Operand) :
  (operands.foldl (attach standard) left).size = left.size + total operands
  := by
  induction operands generalizing left with
  | nil => rfl
  | cons x operands ih =>
    rw [List.foldl_cons, ih, total_cons, attach, Expr.size, Nat.add_assoc]

/-- Operands make an expression of all of them, but for exclusions at the start. -/
theorem Operand.size_fold_le (standard : Connective) (operands : List Operand) :
  (fold standard operands).size ≤ total operands
  := by
  refine Nat.le_trans ?_ (total_le_of_suffix (List.dropWhile_suffix isExclusion))
  rw [fold]
  cases operands.dropWhile isExclusion with
  | nil => apply Nat.le_refl
  | cons x rest =>
    cases rest with
    | nil => simp
    | cons y rest =>
      simp only [size_foldl_attach, total_cons]
      rw [attach, Expr.size]
      omega

namespace Assembly

/-- How many terms and groups the open levels hold, where each bracket that is open counts as a
group. -/
def size (a : Assembly) : Nat :=
  Operand.total a.inner.operands
    + (a.outer.map fun level => Operand.total level.operands + 1).sum

variable {setting : Setting}

theorem total_push (e : Expr) (level : Level) :
  Operand.total (level.push e).operands = Operand.total level.operands + e.size
  := by
  simp [Level.push]

theorem size_addTerm (text : List Char) (isPrefix isPhrase : Bool) (a : Assembly) :
  (a.addTerm setting text isPrefix isPhrase).size = a.size + 1
  := by
  simp only [addTerm, size, total_push, Expr.size]
  omega

/-- What a step with a lexeme may come to: it takes the cost of the lexeme from the budget and
adds no more expressions than that, or it ends at a bracket that closes nothing, or it fails at
a phrase without an end. -/
def Outcome (a : Assembly) (x : PlacedLexeme) : Progress → Prop
  | .goOn a' => a'.budget = a.budget - x.lexeme.cost ∧ a'.size ≤ a.size + x.lexeme.cost
  | .halt a' rest => a' = a ∧ rest = x.rest
  | .fail e => e = .phraseBeyondBudget

theorem outcome_closeLevel {a : Assembly} {x : PlacedLexeme} (hx : x.lexeme = .closing) :
  Outcome a x (a.closeLevel setting x.rest).value
  := by
  rw [closeLevel]
  split
  · exact ⟨rfl, rfl⟩
  · rename_i level outer houter
    simp only [Outcome, hx, Lexeme.cost]
    refine ⟨rfl, ?_⟩
    have hchild := Operand.size_fold_le setting.standard a.inner.operands
    simp only [size, houter, List.map_cons, List.sum_cons, total_push, Expr.size, Level.expr]
    omega

theorem outcome_addPhrase {a : Assembly} {x : PlacedLexeme} {text : List Char}
    {closed isPrefix : Bool} (hx : x.lexeme = .phrase text closed isPrefix) :
  Outcome a x (a.addPhrase setting text closed isPrefix).value
  := by
  have hterm : text.isEmpty = false →
      Outcome a x (.goOn (a.addTerm setting text isPrefix true)) := by
    intro htext
    simp only [Outcome, hx, Lexeme.cost, htext, Bool.false_eq_true, if_false]
    exact ⟨rfl, Nat.le_of_eq (size_addTerm ..)⟩
  rw [addPhrase]
  cases htext : text.isEmpty with
  | true =>
    rw [if_pos rfl]
    simp only [Outcome, hx, Lexeme.cost, htext]
    exact ⟨rfl, Nat.le_refl _⟩
  | false =>
    rw [if_neg Bool.false_ne_true]
    split
    · apply hterm htext
    · split
      · rfl
      · apply hterm htext

theorem outcome_step (a : Assembly) (x : PlacedLexeme) :
  Outcome a x (a.step setting x).value
  := by
  rw [step]
  split
  · rename_i hx
    simp only [Outcome, Noted.plain, hx, Lexeme.cost]
    exact ⟨rfl, Nat.le_refl _⟩
  · rename_i hx
    simp only [Outcome, Noted.plain, hx, Lexeme.cost]
    exact ⟨rfl, Nat.le_refl _⟩
  · rename_i hx
    simp only [Outcome, hx, Lexeme.cost]
    refine ⟨rfl, ?_⟩
    simp only [openLevel, size, Level.start, Operand.total_nil, List.map_cons, List.sum_cons]
    omega
  · rename_i hx
    apply outcome_closeLevel hx
  · rename_i hx
    apply outcome_addPhrase hx
  · rename_i hx
    simp only [Outcome, Noted.plain, hx, Lexeme.cost]
    exact ⟨rfl, Nat.le_of_eq (size_addTerm ..)⟩

theorem size_collapse_le (standard : Connective) (inner : Level) (outer : List Level) :
  (collapse standard inner outer).value.size
    ≤ Operand.total inner.operands
      + (outer.map fun level => Operand.total level.operands + 1).sum
  := by
  have hchild := Operand.size_fold_le standard inner.operands
  induction outer generalizing inner with
  | nil => exact hchild
  | cons level outer ih =>
    have hlevel := ih (level.push (.group (inner.expr standard).value))
      (Operand.size_fold_le standard _)
    rw [total_push, Expr.size] at hlevel
    refine Nat.le_trans hlevel ?_
    simp only [List.map_cons, List.sum_cons, Level.expr]
    omega

/-! ### Runs -/

/-- A run takes a step and goes on, ends or fails, if its budget is not spent. -/
theorem value_run_cons (a : Assembly) (x : PlacedLexeme) (xs : List PlacedLexeme) :
  (a.run setting (x :: xs)).value
    = if a.budget = 0 then .ok ((a.finish setting).value, x.source)
      else match (a.step setting x).value with
        | .goOn a => (a.run setting xs).value
        | .halt a rest => .ok ((a.finish setting).value, rest)
        | .fail e => .error e
  := by
  rw [run]
  split
  · rfl
  · dsimp only
    cases (a.step setting x).value <;> rfl

theorem size_finish_le (a : Assembly) :
  (a.finish setting).value.size ≤ a.size
  := size_collapse_le setting.standard a.inner a.outer

/-- An expression that is put together from lexemes is no larger than the budget. -/
theorem size_run_le {a : Assembly} {xs : List PlacedLexeme} {e : Expr} {rest : List Char}
    (h : (a.run setting xs).value = .ok (e, rest)) :
  e.size ≤ a.size + a.budget
  := by
  induction xs generalizing a with
  | nil =>
    cases h
    exact Nat.le_trans a.size_finish_le (Nat.le_add_right _ _)
  | cons x xs ih =>
    rw [value_run_cons] at h
    split at h
    · cases h
      exact Nat.le_trans a.size_finish_le (Nat.le_add_right _ _)
    · rename_i hbudget
      have houtcome : Outcome a x (a.step setting x).value := a.outcome_step x
      have hcost := x.lexeme.cost_le
      split at h
      · rename_i heq
        rw [heq] at houtcome
        have := ih h
        have := houtcome.1
        have := houtcome.2
        omega
      · rename_i heq
        rw [heq] at houtcome
        cases h
        rw [houtcome.1]
        exact Nat.le_trans a.size_finish_le (Nat.le_add_right _ _)
      · cases h

theorem error_run {a : Assembly} {xs : List PlacedLexeme} {e : Error}
    (h : (a.run setting xs).value = .error e) :
  e = .phraseBeyondBudget
  := by
  induction xs generalizing a with
  | nil => cases h
  | cons x xs ih =>
    rw [value_run_cons] at h
    split at h
    · cases h
    · have houtcome : Outcome a x (a.step setting x).value := a.outcome_step x
      split at h
      · apply ih h
      · cases h
      · rename_i heq
        rw [heq] at houtcome
        cases h
        exact houtcome

/-- What a run leaves is a suffix of the text of its lexemes. It is shorter than the text if the
budget lets a lexeme be added, or else there is nothing left. -/
theorem rest_run {isSpace : Char → Bool} (l : List Char) {a : Assembly} {e : Expr}
    {rest : List Char} (h : (a.run setting (lexemes isSpace l)).value = .ok (e, rest)) :
  rest <:+ l ∧ (a.budget ≠ 0 → rest = [] ∨ rest.length < l.length)
  := by
  induction hn : l.length using Nat.strongRecOn generalizing l a with
  | ind n ih =>
    subst hn
    cases hl : l.dropWhile isSpace with
    | nil =>
      rw [lexemes_eq, hl] at h
      cases h
      exact ⟨List.nil_suffix, fun _ => .inl rfl⟩
    | cons c l' =>
      have hsource : c :: l' <:+ l := by
        rw [← hl]
        apply List.dropWhile_suffix
      have hread := Lexeme.read_suffix isSpace c l'
      have hsuffix := hread.trans ((List.suffix_cons c l').trans hsource)
      have hlt : (Lexeme.read isSpace c l').2.length < l.length :=
        Nat.lt_of_lt_of_le (Nat.lt_succ_of_le hread.length_le) hsource.length_le
      rw [lexemes_of_dropWhile hl, value_run_cons] at h
      split at h
      · rename_i hbudget
        cases h
        exact ⟨hsource, fun hne => absurd hbudget hne⟩
      · let x : PlacedLexeme :=
          ⟨(Lexeme.read isSpace c l').1, c :: l', (Lexeme.read isSpace c l').2⟩
        have houtcome : Outcome a x (a.step setting x).value := a.outcome_step x
        split at h
        · have hrest := (ih _ hlt _ h rfl).1
          exact ⟨hrest.trans hsuffix, fun _ => .inr (Nat.lt_of_le_of_lt hrest.length_le hlt)⟩
        · rename_i heq
          rw [heq] at houtcome
          cases h
          rw [houtcome.2]
          exact ⟨hsuffix, fun _ => .inr hlt⟩
        · cases h

end Assembly

/-! ### Queries -/

namespace Query

variable {options : ReadOptions} {text : String}

/-- A query is read from the lexemes that follow its directives, if it may hold anything. -/
theorem value_read (text : String) (h : options.budget ≠ 0) :
  ∃ (directives : Directives) (setting : Assembly.Setting),
    (read options text).value
      = ((Assembly.start options.budget.toNat).run setting (lexemes options.encoding.isSpace
          (Directive.readAll (text.toList.dropWhile options.encoding.isSpace)).2)).value.map
        fun (root, rest) => ⟨root, directives, String.ofList rest⟩
  := by
  rw [read, readChars, if_neg h]
  exact ⟨_, _, rfl⟩

theorem budget_ne_zero_of_read {q : Query} (h : (read options text).value = .ok q) :
  options.budget ≠ 0
  := by
  intro hbudget
  rw [read, readChars, if_pos hbudget] at h
  cases h

/-- A query that is read is what a run over its lexemes gives. -/
theorem exists_run {q : Query} (h : (read options text).value = .ok q) :
  ∃ (setting : Assembly.Setting) (rest : List Char),
    ((Assembly.start options.budget.toNat).run setting (lexemes options.encoding.isSpace
        (Directive.readAll (text.toList.dropWhile options.encoding.isSpace)).2)).value
      = .ok (q.root, rest)
    ∧ q.rest = String.ofList rest
  := by
  obtain ⟨directives, setting, hread⟩ := value_read text (budget_ne_zero_of_read h)
  refine ⟨setting, ?_⟩
  rw [hread] at h
  cases hrun : (Assembly.run setting _ _).value with
  | error e =>
    rw [hrun] at h
    cases h
  | ok r =>
    rw [hrun] at h
    cases h
    exact ⟨r.2, rfl, rfl⟩

/-- What is left of a query is the end of its text. It is shorter, or nothing is left. -/
theorem rest_read {q : Query} (h : (read options text).value = .ok q) :
  q.rest.toList <:+ text.toList ∧ (q.rest = "" ∨ q.rest.toList.length < text.toList.length)
  := by
  obtain ⟨setting, rest, hrun, hrest⟩ := exists_run h
  have hdirectives := (Directive.readAll_suffix _).trans
    (List.dropWhile_suffix options.encoding.isSpace (l := text.toList))
  obtain ⟨hsuffix, hshorter⟩ := Assembly.rest_run _ hrun
  have hbudget : options.budget.toNat ≠ 0 := by
    intro hzero
    exact budget_ne_zero_of_read h (UInt32.toNat_inj.mp hzero)
  rw [hrest, String.toList_ofList]
  refine ⟨hsuffix.trans hdirectives, ?_⟩
  rcases hshorter hbudget with rfl | hlt
  · exact .inl rfl
  · exact .inr (Nat.lt_of_lt_of_le hlt hdirectives.length_le)

/-- What is left of a query takes up fewer bytes than its text, or nothing is left. -/
theorem byteSize_rest_lt {q : Query} (h : (read options text).value = .ok q) (hq : q.rest ≠ "") :
  q.rest.utf8ByteSize < text.utf8ByteSize
  := by
  obtain ⟨⟨front, hfront⟩, hshorter⟩ := rest_read h
  have htext : text = String.ofList front ++ q.rest := by
    rw [← String.toList_inj, String.toList_append, String.toList_ofList, hfront]
  have hne : (String.ofList front).utf8ByteSize ≠ 0 := by
    rw [Ne, String.utf8ByteSize_eq_zero_iff]
    intro hempty
    have hlt := hshorter.resolve_left hq
    rw [htext, hempty, String.empty_append] at hlt
    exact Nat.lt_irrefl _ hlt
  rw [htext, String.utf8ByteSize_append]
  omega

/-- A query holds no more terms and groups than it may. -/
theorem size_root_le {q : Query} (h : (read options text).value = .ok q) :
  q.root.size ≤ options.budget.toNat
  := by
  obtain ⟨setting, rest, hrun, -⟩ := exists_run h
  have hsize := Assembly.size_run_le hrun
  rwa [Assembly.size, Assembly.start, Level.start, Operand.total_nil, List.map_nil, List.sum_nil,
    Nat.zero_add, Nat.zero_add] at hsize

/-- A query that cannot be read has no budget, or spends it on a phrase without an end. -/
theorem error_read {e : Error} (h : (read options text).value = .error e) :
  e = .noBudget ∨ e = .phraseBeyondBudget
  := by
  by_cases hbudget : options.budget = 0
  · rw [read, readChars, if_pos hbudget] at h
    exact .inl (Except.error.inj h).symm
  · obtain ⟨directives, setting, hread⟩ := value_read text hbudget
    rw [hread] at h
    cases hrun : (Assembly.run _ _ _).value with
    | error e' =>
      rw [hrun] at h
      cases h
      exact .inr (Assembly.error_run hrun)
    | ok r =>
      rw [hrun] at h
      cases h

/-- Where no query can be read, the text or the options are at fault. -/
theorem category_of_read {e : Error} (h : (read options text).value = .error e) :
  e.category = .invalidArgument
  := by
  obtain rfl | rfl := error_read h <;> rfl

end Query

end Retrieval
