import Retrieval.Index.Corpus
import Retrieval.Proofs.Evaluation.Denotation
import Retrieval.Proofs.Evaluation.Scoring

/-!
# Directional connectives

A directional connective finds what its sides find, and moves the scores of one side down and those
of the other side up. Two documents of one score, each of them found on one side only, are therefore
ranked as the connective says if the score is large enough to be moved. A score that is smaller than
a part of the step is not moved at all, and then both documents keep it.
-/

namespace Retrieval

namespace Evaluator

variable (e : Evaluator)

/-- A connective that does not need its left side joins the scores of both sides. -/
theorem find?_eval_join (hvalid : e.shape.validate = .ok ()) (hunit : e.shape.unit = .perDocument)
    (allowance : Option Nat) {connective : Connective} (h : connective.needsLeft = false)
    (left right : Expr) (key : Key) :
  (e.eval allowance (.join connective left right)).records.find? key
    = connective.score e.scoring ((e.eval allowance left).records.find? key)
        ((e.eval (e.eval allowance left).allowance right).records.find? key)
  := by
  have hl := e.fresh_eval allowance left
  have hr := e.fresh_eval (e.eval allowance left).allowance right
  rw [eval]
  dsimp only
  rw [if_neg (by simp [h])]
  apply find?_combine
  · apply hl.wellFormed hvalid
  · apply hr.wellFormed hvalid
  · rw [hl.shape_eq, hr.shape_eq]
  · rw [hl.shape_eq, hunit]

end Evaluator

namespace Executor

/-- By document, let `x` be found on the left side only and `y` on the right side only, both with one
score. Under a directional connective one of them is demoted and the other one promoted, and the
promoted one has the higher score exactly if the size of the score, times the step, is not smaller
than the term weight. Otherwise both keep their score. What the sides find is what they find on their
own, as far as looser lookups are not bounded. -/
theorem execute_directional (e : Executor) (q : Query) (left right : Expr) (x y : Key) (s : Score)
    (hvalid : e.shape.validate = .ok ()) (hunit : e.shape.unit = .perDocument)
    (hstep : 1 ≤ e.scoring.directionalStep) :
  let bound := (e.escalationOf q).bind Escalation.budget
  let l := (e.evaluator q e.shape).eval bound left
  let r := (e.evaluator q e.shape).eval l.allowance right
  let low := e.scoring.demote s
  let high := e.scoring.promote s
  e.execute { q with root := left } = .ok l
    ∧ (bound = none → e.execute { q with root := right } = .ok r)
    ∧ ∃ below above, e.execute { q with root := .join .below left right } = .ok below
      ∧ e.execute { q with root := .join .above left right } = .ok above
      ∧ (l.records.find? x = some s → r.records.find? x = none →
        l.records.find? y = none → r.records.find? y = some s →
        below.records.find? x = some low ∧ below.records.find? y = some high
          ∧ above.records.find? x = some high ∧ above.records.find? y = some low)
      ∧ low ≤ s ∧ s ≤ high
      ∧ (low < high
        ↔ max e.scoring.termWeight.toInt 1 ≤ e.scoring.directionalStep.toInt * s.toInt.natAbs)
      ∧ (¬ low < high → low = s ∧ high = s)
  := by
  intro bound l r low high
  let evaluator := e.evaluator q e.shape
  have hstep : 0 ≤ e.scoring.directionalStep := Int32.le_trans (by decide) hstep
  have hscore : ∀ connective : Connective, connective.needsLeft = false → ∀ key,
      (evaluator.eval bound (.join connective left right)).records.find? key
        = connective.score e.scoring (l.records.find? key) (r.records.find? key) := by
    intro connective h key
    apply evaluator.find?_eval_join hvalid hunit bound h
  refine ⟨execute_eq_eval hvalid _, ?_, evaluator.eval bound (.join .below left right),
    evaluator.eval bound (.join .above left right), execute_eq_eval hvalid _,
    execute_eq_eval hvalid _, ?_, ?_⟩
  · intro hbound
    have hallowance : l.allowance = bound := by
      change (evaluator.eval bound left).allowance = bound
      rw [hbound, Evaluator.allowance_eval]
    change _ = Except.ok (evaluator.eval l.allowance right)
    rw [hallowance]
    apply execute_eq_eval hvalid
  · intro hx hx' hy' hy
    rw [hscore .below rfl, hscore .below rfl, hscore .above rfl, hscore .above rfl, hx, hx', hy, hy']
    exact ⟨rfl, rfl, rfl, rfl⟩
  · have happart := Scoring.demote_lt_promote_iff hstep s
    refine ⟨Scoring.demote_le hstep s, Scoring.le_promote hstep s, ?_, ?_⟩
    · apply happart.trans Scoring.one_le_shift_iff
    · intro hlevel
      apply Scoring.demote_promote_of_shift hstep
      rwa [← happart]

/-- Two documents in a corpus, of which a term each finds one. -/
theorem execute_directional_words :
  let corpus := (Corpus.empty.add (.number 7) 1 "a").add (.number 8) 1 "b"
  let e : Executor := ⟨corpus.lookup, .standard, .unspecified, .documents, none⟩
  let q : Query := ⟨.empty, .ofOperator .or, ""⟩
  let a : Expr := .term ⟨"a", false, false, 5, none⟩
  let b : Expr := .term ⟨"b", false, false, 5, none⟩
  ∃ below above, e.execute { q with root := .join .below a b } = .ok below
    ∧ e.execute { q with root := .join .above a b } = .ok above
    ∧ below.records.find? (.number 7) = some 4 ∧ below.records.find? (.number 8) = some 6
    ∧ above.records.find? (.number 7) = some 6 ∧ above.records.find? (.number 8) = some 4
  := by
  intro corpus e q a b
  obtain ⟨-, -, below, above, hbelow, habove, hfound, -⟩ :=
    execute_directional e q a b (.number 7) (.number 8) 5 (by decide) rfl (by decide)
  obtain ⟨hx, hy, hx', hy'⟩ := hfound (by decide) (by decide) (by decide) (by decide)
  have hlow : e.scoring.demote 5 = 4 := by decide
  have hhigh : e.scoring.promote 5 = 6 := by decide
  rw [hlow] at hx hy'
  rw [hhigh] at hy hx'
  exact ⟨below, above, hbelow, habove, hx, hy, hx', hy'⟩

/-- Terms that are found in a looser way weigh less than a part of the step, so that the connective
leaves their documents level. -/
theorem execute_below_level :
  let corpus := (Corpus.empty.add (.number 7) 1 "xa").add (.number 8) 1 "yb"
  let e : Executor := ⟨corpus.lookup, .standard, .unspecified, .documents, none⟩
  let q : Query := ⟨.empty, { Directives.ofOperator .or with escalation := some ⟨-1, none⟩ }, ""⟩
  let a : Expr := .term ⟨"a", false, false, 5, none⟩
  let b : Expr := .term ⟨"b", false, false, 5, none⟩
  let scores (x : Expr) := (e.execute { q with root := x }).toOption.map fun found =>
    (found.records.find? (.number 7), found.records.find? (.number 8))
  1 ≤ e.scoring.directionalStep
    ∧ scores a = some (some 3, none) ∧ scores b = some (none, some 3)
    ∧ scores (.join .below a b) = some (some 3, some 3)
    ∧ scores (.join .above a b) = some (some 3, some 3)
  := by
  intro corpus e q a b scores
  refine ⟨?_, ?_, ?_, ?_, ?_⟩
  all_goals decide

end Executor

end Retrieval
