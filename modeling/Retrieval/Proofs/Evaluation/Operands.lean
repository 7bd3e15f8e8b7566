import Retrieval.Proofs.Evaluation.Denotation

/-!
# Operands

An evaluation leaves out the right side of a connective that needs its left side, where it finds
nothing there. `evalBoth` leaves out nothing. Where looser lookups are not bounded, both make the
same records, so that the omission only saves lookups. A query can therefore be run operand by
operand as well: what the right side finds may be combined later with what the left side found.
-/

namespace Retrieval

theorem Operator.needsLeft_connective (operator : Operator) :
  operator.connective.needsLeft ↔ operator ≠ .or
  := by
  cases operator <;> simp [connective, Connective.needsLeft]

namespace Evaluator

/-! ### Both sides of each connective -/

/-- Evaluates an expression with so many looser lookups left, and both sides of each connective
whatever the left one finds. -/
def evalBoth (e : Evaluator) (allowance : Option Nat) : Expr → Evaluation
  | .empty => ⟨.empty e.shape, allowance, [], []⟩
  | .term t => e.evalTerm t allowance
  | .group child => e.evalBoth allowance child
  | .join connective left right =>
    let l := e.evalBoth allowance left
    let r := e.evalBoth l.allowance right
    { records := combine e.scoring connective l.records r.records
      allowance := r.allowance
      lookups := l.lookups ++ r.lookups
      remarks := l.remarks ++ r.remarks }

variable (e : Evaluator)

theorem allowance_evalBoth (x : Expr) :
  (e.evalBoth none x).allowance = none
  := by
  induction x with
  | empty => rfl
  | term t => apply allowance_evalTerm
  | group child ih => exact ih
  | join connective left right ihl ihr =>
    rw [evalBoth]
    dsimp only
    rw [ihl, ihr]

/-- A left side that is needed and finds nothing is what both sides come to. -/
theorem combine_of_isEmpty {scoring : Scoring} {connective : Connective} {left : RecordSet}
    {shape : Shape} (hleft : left.Fresh shape) (hempty : left.isEmpty)
    (hneeds : connective.needsLeft) (right : RecordSet) :
  combine scoring connective left right = left
  := by
  have hrewind : (combine scoring connective left right).rewind = left.rewind :=
    rewind_combine scoring connective hneeds hempty
  rwa [(fresh_combine scoring connective hleft).rewind_eq, hleft.rewind_eq] at hrewind

/-- What is left out would make no difference to the records. -/
theorem records_evalBoth (x : Expr) :
  (e.evalBoth none x).records = (e.eval none x).records
  := by
  induction x with
  | empty => rfl
  | term t => rfl
  | group child ih => exact ih
  | join connective left right ihl ihr =>
    rw [evalBoth, eval, allowance_evalBoth, allowance_eval]
    dsimp only
    rw [ihl, ihr]
    split
    · rename_i hleft
      apply combine_of_isEmpty (e.fresh_eval none left) hleft.1 hleft.2
    · rfl

/-- The lookups that are made are among those that both sides of each connective take, in the
same order. -/
theorem lookups_evalBoth (x : Expr) :
  (e.eval none x).lookups.Sublist (e.evalBoth none x).lookups
  := by
  induction x with
  | empty => apply List.Sublist.refl
  | term t => apply List.Sublist.refl
  | group child ih => exact ih
  | join connective left right ihl ihr =>
    rw [evalBoth, eval, allowance_evalBoth, allowance_eval]
    dsimp only
    split
    · apply ihl.trans (List.sublist_append_left _ _)
    · apply ihl.append ihr

end Evaluator

namespace Executor

/-- Where looser lookups are not bounded, it is not to be seen in the records that right sides are
left out. Whatever the shape of results, an expression is evaluated into the records that it has
if both sides of each connective are evaluated, and what is combined with a set, be it empty or
not, are those records. Only the cursor of an empty set may stay where it was. The lookups that
are made are some of those that both sides take, in the same order. -/
theorem executeInto_evalBoth (e : Executor) (q : Query)
    (hbound : (e.escalationOf q).bind Escalation.budget = none) (shape : Shape) :
  ((e.evaluator q shape).eval none q.root).records
      = ((e.evaluator q shape).evalBoth none q.root).records
    ∧ ((e.evaluator q shape).eval none q.root).lookups.Sublist
      ((e.evaluator q shape).evalBoth none q.root).lookups
    ∧ ∀ (operator : Operator) (s : RecordSet), s.shape = shape →
      (e.executeInto q operator s).records.rewind
        = (Evaluator.combine e.scoring operator.connective s
            ((e.evaluator q shape).evalBoth none q.root).records).rewind
  := by
  have hrecords : ∀ shape : Shape, ((e.evaluator q shape).evalBoth none q.root).records
      = ((e.evaluator q shape).eval none q.root).records := by
    intro shape
    apply Evaluator.records_evalBoth
  refine ⟨(hrecords shape).symm, Evaluator.lookups_evalBoth _ _, ?_⟩
  rintro operator s rfl
  rw [hrecords, executeInto, hbound]
  split
  · rename_i hskip
    obtain ⟨hempty, hor⟩ := hskip
    symm
    apply Evaluator.rewind_combine _ _ (operator.needsLeft_connective.mpr hor) hempty
  · rfl

/-- A query by section of which a left side is needed and finds nothing, so that one lookup is
left out. The records that are found make the better side of the connective around it. -/
theorem executeInto_evalBoth_below :
  let index : Index := fun lookup =>
    if lookup.term = "b" ∧ lookup.mode = .exact then
      [⟨⟨.number 1, 2, 5⟩, 3⟩, ⟨⟨.number 1, 4, 5⟩, 2⟩, ⟨⟨.number 1, 2, 9⟩, 1⟩]
    else []
  let e : Executor := ⟨index, .standard, .unspecified, .documents, some ⟨1, none⟩⟩
  let q : Query := ⟨.join .below (.join .and (.term ⟨"a", false, false, 5, none⟩)
    (.term ⟨"b", false, false, 5, none⟩)) (.term ⟨"b", false, false, 5, none⟩),
    .ofOperator .or, ""⟩
  let fine : Shape := ⟨.perSection, .nothing, 0⟩
  let found := (e.evaluator q fine).eval none q.root
  let both := (e.evaluator q fine).evalBoth none q.root
  (e.escalationOf q).bind Escalation.budget = none
    ∧ found.records = both.records
    ∧ both.records.records.map (fun r => (r.sectionNo, r.score)) = [(2, 24), (4, 12)]
    ∧ found.lookups.length + 1 = both.lookups.length
    ∧ (e.executeInto q .adjust (.empty fine)).records.rewind
      = (Evaluator.combine e.scoring .adjust (.empty fine) both.records).rewind
  := by
  intro index e q fine found both
  obtain ⟨hrecords, -, hinto⟩ := executeInto_evalBoth e q rfl fine
  exact ⟨rfl, hrecords, by decide, by decide, hinto .adjust (.empty fine) rfl⟩

/-! ### One operand after another -/

/-- A query can be run operand by operand: the right side of an operator may be run into the
records of the left side, as long as the looser lookups for the right side are not fewer for what
the left side has spent. This gives the very records of the query with both sides, and takes the
same lookups. -/
theorem executeInto_execute (e : Executor) (directives : Directives) (operator : Operator)
    (left right : Expr) (rest rest₁ rest₂ : String) (hvalid : e.shape.validate = .ok ()) :
  ∃ first whole, e.execute ⟨left, directives, rest₁⟩ = .ok first
    ∧ e.execute ⟨.join operator.connective left right, directives, rest⟩ = .ok whole
    ∧ ((e.escalationOf ⟨left, directives, rest₁⟩).bind Escalation.budget = none
        ∨ first.allowance
          = (e.escalationOf ⟨left, directives, rest₁⟩).bind Escalation.budget →
      let second := e.executeInto ⟨right, directives, rest₂⟩ operator first.records
      second.records = whole.records ∧ first.lookups ++ second.lookups = whole.lookups)
  := by
  let evaluator := e.evaluator ⟨left, directives, rest₁⟩ e.shape
  let bound := (e.escalationOf ⟨left, directives, rest₁⟩).bind Escalation.budget
  refine ⟨evaluator.eval bound left, evaluator.eval bound (.join operator.connective left right),
    execute_eq_eval hvalid _, execute_eq_eval hvalid _, ?_⟩
  intro hspent
  have hallowance : (evaluator.eval bound left).allowance = bound := by
    obtain hbound | hspent := hspent
    · rw [show bound = none from hbound, Evaluator.allowance_eval]
    · exact hspent
  have hshape : (evaluator.eval bound left).records.shape = e.shape :=
    (evaluator.fresh_eval bound left).shape_eq
  -- Both leave out the right side in the same case.
  simp only [executeInto, Evaluator.eval, Operator.needsLeft_connective]
  split
  · exact ⟨rfl, List.append_nil _⟩
  · rw [hshape, hallowance]
    exact ⟨rfl, rfl⟩

/-- Two terms by section with room for one part, run one after the other. The first one is found
in a looser way only. -/
theorem executeInto_execute_and :
  let index : Index := fun lookup =>
    if lookup.term = "a" ∧ lookup.mode = .unsplit then
      [⟨⟨.number 2, 1, 7⟩, 2⟩, ⟨⟨.number 1, 1, 3⟩, 1⟩, ⟨⟨.number 2, 1, 8⟩, 4⟩]
    else if lookup.term = "b" ∧ lookup.mode = .exact then
      [⟨⟨.number 2, 3, 0⟩, 1⟩, ⟨⟨.number 2, 1, 9⟩, 1⟩]
    else []
  let e : Executor :=
    ⟨index, .standard, .unspecified, ⟨.perSection, .perPosition, 1⟩, some ⟨-2, none⟩⟩
  let a : Expr := .term ⟨"a", false, false, 5, none⟩
  let b : Expr := .term ⟨"b", false, false, 5, none⟩
  e.shape.validate = .ok ()
    ∧ ∃ first whole, e.execute ⟨a, .ofOperator .or, " b"⟩ = .ok first
      ∧ e.execute ⟨.join .and a b, .ofOperator .or, ""⟩ = .ok whole
      ∧ (e.executeInto ⟨b, .ofOperator .or, ""⟩ .and first.records).records = whole.records
      ∧ whole.records.records.map (fun r => (r.sectionNo, r.score, r.hits, r.parts))
        = [(1, 23, 3, [⟨1, 8, 12⟩]), (3, 5, 1, [⟨3, 0, 5⟩])]
  := by
  intro index e a b
  obtain ⟨first, whole, hfirst, hwhole, hcompose⟩ :=
    executeInto_execute e (.ofOperator .or) .and a b "" " b" "" (by decide)
  have hlist : (e.execute ⟨.join .and a b, .ofOperator .or, ""⟩).toOption.map
      (fun found => found.records.records.map fun r => (r.sectionNo, r.score, r.hits, r.parts))
      = some [(1, 23, 3, [⟨1, 8, 12⟩]), (3, 5, 1, [⟨3, 0, 5⟩])] := by
    decide
  have hjoin : e.execute ⟨.join .and a b, .ofOperator .or, ""⟩ = .ok whole := hwhole
  rw [hjoin] at hlist
  exact ⟨by decide, first, whole, hfirst, hjoin, (hcompose (.inl rfl)).1,
    Option.some.inj hlist⟩

end Executor

end Retrieval
