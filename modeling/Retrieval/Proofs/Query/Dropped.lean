import Retrieval.Query.Reader

/-!
# Operands that are dropped

An exclusion with nothing before it is dropped when the operands between two brackets are combined.
Which operands are dropped is told here beside the expression that is made of the others. Each of
them is remarked once.
-/

namespace Retrieval

/-- The operands that are dropped when operands are combined. -/
def Operand.dropped (xs : List Operand) : List Operand :=
  xs.takeWhile isExclusion

theorem Operand.count_remarks (xs : List Operand) :
  (remarks xs).count .leadingExclusion = (dropped xs).length
  := by
  rw [remarks, dropped, List.map_const', List.count_replicate_self]

namespace Assembly

/-- The operands that are dropped when a lexeme is added: those of the level that it closes. -/
def droppedAt (x : PlacedLexeme) (a : Assembly) : List Operand :=
  match x.lexeme, a.outer with
  | .closing, _ :: _ => Operand.dropped a.inner.operands
  | _, _ => []

/-- The operands that are dropped when a level and those around it are closed. -/
def droppedCollapse (standard : Connective) (inner : Level) : List Level → List Operand
  | [] => Operand.dropped inner.operands
  | level :: outer =>
    Operand.dropped inner.operands
      ++ droppedCollapse standard (level.push (.group (inner.expr standard).value)) outer

/-- The operands that are dropped when all levels of an assembly are closed. -/
def droppedFinish (setting : Setting) (a : Assembly) : List Operand :=
  droppedCollapse setting.standard a.inner a.outer

/-- The operands that are dropped when lexemes are added and the assembly ends. -/
def dropped (setting : Setting) (a : Assembly) : List PlacedLexeme → List Operand
  | [] => a.droppedFinish setting
  | x :: xs =>
    if a.budget = 0 then a.droppedFinish setting
    else a.droppedAt x ++ match (a.step setting x).value with
      | .goOn b => b.dropped setting xs
      | .halt b _ => b.droppedFinish setting
      | .fail _ => []

variable {setting : Setting}

theorem count_remarks_collapse (standard : Connective) (inner : Level) (outer : List Level) :
  (collapse standard inner outer).remarks.count .leadingExclusion
    = (droppedCollapse standard inner outer).length
  := by
  induction outer generalizing inner with
  | nil => apply Operand.count_remarks
  | cons level outer ih =>
    rw [collapse, droppedCollapse, Noted.after, List.count_append, List.length_append, ih]
    congr 1
    apply Operand.count_remarks

theorem count_remarks_step (x : PlacedLexeme) (a : Assembly) :
  (a.step setting x).remarks.count .leadingExclusion = (a.droppedAt x).length
  := by
  rw [step, droppedAt.eq_def]
  cases x.lexeme with
  | mode => rfl
  | connective => rfl
  | word => rfl
  | opening =>
    simp only [openLevel]
    split <;> rfl
  | closing =>
    dsimp only [closeLevel]
    cases a.outer with
    | nil => rfl
    | cons level outer => apply Operand.count_remarks
  | phrase text closed isPrefix =>
    simp only [addPhrase]
    split
    · rfl
    · split
      · rfl
      · split <;> rfl

theorem count_remarks_stop (rest : List Char) (a : Assembly) :
  (a.stop setting rest).remarks.count .leadingExclusion = (a.droppedFinish setting).length
  := count_remarks_collapse ..

theorem count_remarks_run (a : Assembly) (xs : List PlacedLexeme) :
  (a.run setting xs).remarks.count .leadingExclusion = (a.dropped setting xs).length
  := by
  induction xs generalizing a with
  | nil => apply count_remarks_stop
  | cons x xs ih =>
    have hstep := @count_remarks_step setting x a
    rw [run, dropped]
    split
    · rw [Noted.after, List.count_append, count_remarks_stop]
      exact Nat.zero_add _
    · rw [List.length_append, ← hstep]
      dsimp only
      cases (a.step setting x).value with
      | goOn b => simp only [Noted.after, List.count_append, ih]
      | halt b rest => simp only [Noted.after, List.count_append, count_remarks_stop]
      | fail e => rfl

end Assembly

namespace Query

/-- The operands that are dropped when a text is read. -/
def dropped (options : ReadOptions) (text : String) : List Operand :=
  let l := text.toList
  let directives := Directives.read options.defaultOperator (l.dropWhile options.encoding.isSpace)
  let setting : Assembly.Setting :=
    { standard := directives.value.1.defaultOperator.connective
      termWeight := options.termWeight
      size := Text.byteLength l }
  (Assembly.start options.budget.toNat).dropped setting
    (lexemes options.encoding.isSpace directives.value.2)

/-- Each operand that is dropped is remarked. -/
theorem count_remarks_read (options : ReadOptions) (text : String) (hbudget : options.budget ≠ 0) :
  (read options text).remarks.count .leadingExclusion = (dropped options text).length
  := by
  have hdirectives : ∀ directives : List Directive,
      (directives.flatMap Directive.remarks).count .leadingExclusion = 0 := by
    intro directives
    rw [List.count_eq_zero]
    intro hmem
    obtain ⟨d, -, hd⟩ := List.mem_flatMap.mp hmem
    cases d with
    | escalate => cases hd
    | weigh => cases hd
    | defaultOperator sign =>
      rw [Directive.remarks] at hd
      split at hd <;> simp at hd
  rw [read, readChars, if_neg hbudget]
  dsimp only
  rw [List.count_append, Assembly.count_remarks_run]
  have hzero := hdirectives (Directive.readAll (text.toList.dropWhile options.encoding.isSpace)).1
  rw [Directives.read]
  dsimp only
  rw [hzero, Nat.zero_add]
  rfl

end Query

end Retrieval
