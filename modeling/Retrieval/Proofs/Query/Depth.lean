import Retrieval.Proofs.Query.Budget
import Retrieval.Proofs.Query.RoundTrip

/-!
# How deep a query nests

An expression that is read from a text holds an empty expression nowhere but alone between
brackets, so both sides of a connective hold a term or a group. Each level that the expression
nests therefore takes one of the budget, and a query that is read with a budget that is not too
large can be read back from its text.
-/

namespace Retrieval

/-! ### Expressions -/

/-- Whether an empty expression stands nowhere but alone between brackets. -/
def Expr.Filled : Expr → Prop
  | empty => False
  | term _ => True
  | group child => child = empty ∨ child.Filled
  | join _ left right => left.Filled ∧ right.Filled

theorem ModeChoice.depth_le (m : ModeChoice) :
  m.toJson.depth ≤ 1
  := by
  apply Json.depth_record_le_iff.mpr
  simp

/-- The way of matching makes a term two levels deep. -/
theorem Term.depth_le (t : Term) :
  t.toJson.depth ≤ 2
  := by
  apply Json.depth_record_le_iff.mpr
  cases t.mode with
  | none => simp
  | some m => simp [m.depth_le]

namespace Expr

theorem Filled.size_pos {x : Expr} (h : x.Filled) :
  0 < x.size
  := by
  cases x with
  | empty => exact h.elim
  | term t => apply Nat.one_pos
  | group child => apply Nat.succ_pos
  | join connective left right => exact Nat.add_pos_left h.1.size_pos _

/-- An expression nests no deeper than it has terms and groups, but for the way of matching of
the innermost term. -/
theorem depth_toJson_le {x : Expr} (h : x = empty ∨ x.Filled) :
  x.toJson.depth ≤ x.size + 1
  := by
  induction x with
  | empty =>
    apply Json.depth_record_le_iff.mpr
    simp
  | term t => exact t.depth_le
  | group child ih =>
    have hchild := ih (h.resolve_left (by simp))
    apply Json.depth_record_le_iff.mpr
    simp [size, hchild]
  | join connective left right ihl ihr =>
    obtain ⟨hleft, hright⟩ := h.resolve_left (by simp)
    have hdepthl := ihl (.inr hleft)
    have hdepthr := ihr (.inr hright)
    have hsizel := hleft.size_pos
    have hsizer := hright.size_pos
    apply Json.depth_record_le_iff.mpr
    simp only [List.forall_mem_cons, size]
    refine ⟨by simp, by simp, ?_, ?_, by simp⟩
    · omega
    · omega

end Expr

/-! ### Assembling -/

namespace Operand

theorem filled_foldl_attach (standard : Connective) {left : Expr} {operands : List Operand}
    (hleft : left.Filled) (h : ∀ x ∈ operands, x.expr.Filled) :
  (operands.foldl (attach standard) left).Filled
  := by
  induction operands generalizing left with
  | nil => exact hleft
  | cons x operands ih =>
    obtain ⟨hfirst, hmore⟩ := List.forall_mem_cons.mp h
    exact ih ⟨hleft, hfirst⟩ hmore

/-- Nothing comes of operands only if all of them are dropped. -/
theorem filled_fold (standard : Connective) {operands : List Operand}
    (h : ∀ x ∈ operands, x.expr.Filled) :
  fold standard operands = .empty ∨ (fold standard operands).Filled
  := by
  have hkept : ∀ x ∈ operands.dropWhile isExclusion, x.expr.Filled :=
    fun x hx => h x ((List.dropWhile_suffix isExclusion).subset hx)
  rw [fold]
  split
  · exact .inl rfl
  · rename_i x hx
    rw [hx, List.forall_mem_singleton] at hkept
    exact .inr hkept
  · rename_i x y rest hx
    rw [hx, List.forall_mem_cons, List.forall_mem_cons] at hkept
    obtain ⟨hfirst, hsecond, hmore⟩ := hkept
    exact .inr (filled_foldl_attach standard ⟨hfirst, hsecond⟩ hmore)

end Operand

/-- The operands of a level are filled. -/
def Level.Filled (level : Level) : Prop :=
  ∀ x ∈ level.operands, x.expr.Filled

theorem Level.filled_start :
  start.Filled
  := by
  intro x hx
  cases hx

theorem Level.Filled.push {level : Level} (h : level.Filled) {e : Expr} (he : e.Filled) :
  (level.push e).Filled
  := by
  rw [Filled, Level.push, List.forall_mem_append, List.forall_mem_singleton]
  exact ⟨h, he⟩

namespace Assembly

/-- The operands of all levels are filled. -/
structure Filled (a : Assembly) : Prop where
  inner : a.inner.Filled
  outer : ∀ level ∈ a.outer, level.Filled

variable {setting : Setting}

theorem Filled.addTerm {a : Assembly} (h : a.Filled) (text : List Char)
    (isPrefix isPhrase : Bool) :
  (a.addTerm setting text isPrefix isPhrase).Filled
  := ⟨h.inner.push trivial, h.outer⟩

theorem Filled.closeLevel {a a' : Assembly} (h : a.Filled) {rest : List Char}
    (hclose : (a.closeLevel setting rest).value = .goOn a') :
  a'.Filled
  := by
  rw [Assembly.closeLevel] at hclose
  split at hclose
  · cases hclose
  · rename_i level outer houter
    cases hclose
    have hlevels := h.outer
    rw [houter, List.forall_mem_cons] at hlevels
    exact ⟨hlevels.1.push (Operand.filled_fold _ h.inner), hlevels.2⟩

theorem Filled.addPhrase {a a' : Assembly} (h : a.Filled) {text : List Char}
    {closed isPrefix : Bool}
    (hadd : (a.addPhrase setting text closed isPrefix).value = .goOn a') :
  a'.Filled
  := by
  rw [Assembly.addPhrase] at hadd
  split at hadd
  · cases hadd
    exact ⟨h.inner, h.outer⟩
  · split at hadd
    · cases hadd
      apply h.addTerm
    · split at hadd
      · cases hadd
      · cases hadd
        apply h.addTerm

theorem Filled.step {a a' : Assembly} (h : a.Filled) {x : PlacedLexeme}
    (hstep : (a.step setting x).value = .goOn a') :
  a'.Filled
  := by
  rw [Assembly.step] at hstep
  split at hstep
  · cases hstep
    exact ⟨h.inner, h.outer⟩
  · cases hstep
    exact ⟨h.inner, h.outer⟩
  · cases hstep
    exact ⟨Level.filled_start, List.forall_mem_cons.mpr ⟨h.inner, h.outer⟩⟩
  · apply h.closeLevel hstep
  · apply h.addPhrase hstep
  · cases hstep
    apply h.addTerm

theorem filled_collapse (standard : Connective) {inner : Level} {outer : List Level}
    (hinner : inner.Filled) (houter : ∀ level ∈ outer, level.Filled) :
  (collapse standard inner outer).value = .empty ∨ (collapse standard inner outer).value.Filled
  := by
  induction outer generalizing inner with
  | nil => apply Operand.filled_fold standard hinner
  | cons level outer ih =>
    obtain ⟨hlevel, hmore⟩ := List.forall_mem_cons.mp houter
    exact ih (hlevel.push (Operand.filled_fold standard hinner)) hmore

/-- A run puts filled expressions together only. -/
theorem Filled.run {a : Assembly} (h : a.Filled) {xs : List PlacedLexeme} {e : Expr}
    {rest : List Char} (hrun : (a.run setting xs).value = .ok (e, rest)) :
  e = .empty ∨ e.Filled
  := by
  have hfinish {a : Assembly} (h : a.Filled) :
      (a.finish setting).value = .empty ∨ (a.finish setting).value.Filled :=
    filled_collapse setting.standard h.inner h.outer
  induction xs generalizing a with
  | nil =>
    cases hrun
    apply hfinish h
  | cons x xs ih =>
    obtain ⟨-, rfl, -⟩ | ⟨-, a', hstep, hmore⟩ | ⟨-, -, rfl, -⟩ := run_cons_cases hrun
    · apply hfinish h
    · apply ih (h.step hstep) hmore
    · apply hfinish h

end Assembly

/-! ### Queries -/

namespace Query

theorem filled_root {options : ReadOptions} {text : String} {q : Query}
    (h : (read options text).value = .ok q) :
  q.root = .empty ∨ q.root.Filled
  := by
  obtain ⟨setting, rest, hrun, -⟩ := exists_run h
  exact Assembly.Filled.run ⟨Level.filled_start, List.forall_mem_nil _⟩ hrun

/-- How deep a query nests is bounded by its budget. -/
theorem depth_read_le {options : ReadOptions} {text : String} {q : Query}
    (h : (read options text).value = .ok q) :
  q.toJson.depth ≤ max (options.budget.toNat + 2) 4
  := by
  have hroot := Expr.depth_toJson_le (filled_root h)
  have hsize := size_root_le h
  have hdirectives := q.directives.depth_le
  have hlevels : q.toJson.depth ≤ max (options.budget.toNat + 1) 3 + 1 := by
    rw [depth_toJson_le_iff]
    omega
  omega

/-- Every query is read back from its text, unless that nests more than so many levels deep, and
then it is refused. A query that was read from a text nests at most two levels deeper than its
budget, or four levels. With a budget that leaves room for these it is always read back. -/
theorem shipped :
  (∀ q : Query, (Json.parse? q.toJson.compact.toList).bind ofJson?
      = if q.toJson.depth ≤ Json.maxLevels then some q else none)
    ∧ ∀ (options : ReadOptions) (text : String) (q : Query),
      (read options text).value = .ok q →
      q.toJson.depth ≤ max (options.budget.toNat + 2) 4
        ∧ (options.budget.toNat ≤ 125 →
          (Json.parse? q.toJson.compact.toList).bind ofJson? = some q)
  := by
  refine ⟨parse?_compact, ?_⟩
  intro options text q h
  have hdepth := depth_read_le h
  refine ⟨hdepth, ?_⟩
  intro hbudget
  have hlevels : q.toJson.depth ≤ Json.maxLevels := by
    rw [Json.maxLevels]
    omega
  rw [parse?_compact, if_pos hlevels]

/-- A query that nests as deep as its budget lets it. -/
theorem shipped_groups :
  let options : ReadOptions := { ReadOptions.standard with budget := 3 }
  let q : Query := ⟨.group (.group (.term ⟨"a\"b", true, true, 5, some ⟨.near, 3⟩⟩)),
    .ofOperator .or, "c"⟩
  (read options "((*N3\"a\\\"b\"* c").value = .ok q
    ∧ q.toJson.depth = options.budget.toNat + 2
    ∧ (Json.parse? q.toJson.compact.toList).bind ofJson? = some q
  := by
  intro options q
  have hread : (read options "((*N3\"a\\\"b\"* c").value = .ok q := by decide +kernel
  exact ⟨hread, by decide +kernel, (shipped.2 options _ q hread).2 (by decide)⟩

end Query

end Retrieval
