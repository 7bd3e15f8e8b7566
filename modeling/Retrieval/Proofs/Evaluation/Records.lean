import Retrieval.Evaluation
import Retrieval.Proofs.RecordSet.Partition

/-!
# Records of an evaluation

Whatever an index answers, and however many looser lookups are left, an expression is evaluated
into a well-formed set of the shape of results, with the cursor before the first record.
-/

namespace Retrieval

/-- A set of a shape that has been made and not been walked over. It is well-formed if the shape
can hold records at all. -/
structure RecordSet.Fresh (shape : Shape) (s : RecordSet) : Prop where
  shape_eq : s.shape = shape
  cursor_eq : s.cursor = .start
  wellFormed : shape.validate = .ok () → s.WellFormed

namespace RecordSet.Fresh

variable {shape : Shape} {s : RecordSet}

theorem empty (shape : Shape) :
  (RecordSet.empty shape).Fresh shape
  := ⟨rfl, rfl, fun hvalid => ⟨hvalid, .nil⟩⟩

theorem add (h : s.Fresh shape) (a : Address) (score : Score) :
  (s.add a score).Fresh shape
  := by
  constructor
  · exact h.shape_eq
  · rw [RecordSet.add, h.cursor_eq, ite_self]
  · intro hvalid
    apply (h.wellFormed hvalid).add

theorem rewind_eq (h : s.Fresh shape) :
  s.rewind = s
  := by
  rw [rewind, ← h.cursor_eq]

/-- A set is merged into an empty one of the same shape as it is. -/
theorem empty_union (h : s.Fresh shape) (hvalid : shape.validate = .ok ()) :
  (RecordSet.empty shape).union s = s
  := by
  obtain ⟨rfl, hcursor, hwell⟩ := h
  have hholds : s.shape.Holds ([] ++ s.records) := (hwell hvalid).holds
  have hrecords : s.records.foldl (mergeRecord s.shape) [] = s.records :=
    hholds.mergeRecords_append
  change RecordSet.mk s.shape (s.records.foldl (mergeRecord s.shape) []) .start = s
  rw [hrecords, ← hcursor]

end RecordSet.Fresh

namespace Evaluator

/-! ### Connectives -/

section combine

variable (scoring : Scoring) (connective : Connective) {left right : RecordSet}

@[simp]
theorem shape_combine :
  (combine scoring connective left right).shape = left.shape
  := by
  cases connective with
  | but => apply RecordSet.shape_retain
  | _ => rfl

theorem wellFormed_combine (h : left.WellFormed) :
  (combine scoring connective left right).WellFormed
  := by
  cases connective with
  | or => exact h.union right
  | and => exact h.intersect right
  | but => exact h.subtract right
  | adjust => exact h.adjust scoring.adjust right
  | below => exact (h.mapScores scoring.demote).union _
  | above => exact (h.mapScores scoring.promote).union _

theorem cursor_combine (h : left.cursor = .start) :
  (combine scoring connective left right).cursor = .start
  := by
  cases connective with
  | but =>
    unfold combine RecordSet.subtract RecordSet.retain
    dsimp only
    split
    · rfl
    · exact h
  | adjust => exact h
  | or | and | below | above => rfl

theorem fresh_combine {shape : Shape} (h : left.Fresh shape) :
  (combine scoring connective left right).Fresh shape
  := by
  constructor
  · rw [shape_combine, h.shape_eq]
  · apply cursor_combine scoring connective h.cursor_eq
  · intro hvalid
    apply wellFormed_combine scoring connective (h.wellFormed hvalid)

/-- With nothing on a left side that is needed, that side stays as it is. -/
theorem rewind_combine (hneeds : connective.needsLeft) (hempty : left.isEmpty) :
  (combine scoring connective left right).rewind = left.rewind
  := by
  obtain ⟨shape, records, cursor⟩ := left
  obtain rfl : records = [] := List.isEmpty_iff.mp hempty
  cases connective with
  | and =>
    have hadded : (right.records.filter fun r => Record.hasKey r.key []) = [] :=
      List.filter_eq_nil_iff.mpr fun _ _ => Bool.false_ne_true
    rw [combine, RecordSet.intersect]
    dsimp only
    rw [hadded]
    rfl
  | but => rfl
  | adjust => rfl
  | or | below | above => cases hneeds

end combine

/-! ### Evaluations -/

variable (e : Evaluator)

theorem fresh_collect (weight : Score) (postings : List Posting) :
  (e.collect weight postings).Fresh e.shape
  := by
  apply List.foldlRecOn
  · apply RecordSet.Fresh.empty
  · intro s hs p _
    apply hs.add

theorem fresh_escalate (t : Term) (modes : List MatchMode) (tier : Nat) {found : Evaluation}
    (h : found.records.Fresh e.shape) :
  (e.escalate t tier modes found).records.Fresh e.shape
  := by
  induction modes generalizing tier found with
  | nil => exact h
  | cons mode modes ih =>
    rw [escalate]
    split
    · exact h
    · split
      · exact h
      · apply ih
        apply fresh_collect

/-- An expression is evaluated into a set of the shape of results. -/
theorem fresh_eval (allowance : Option Nat) (x : Expr) :
  (e.eval allowance x).records.Fresh e.shape
  := by
  induction x generalizing allowance with
  | empty => apply RecordSet.Fresh.empty
  | term t =>
    rw [eval, evalTerm]
    split
    · apply fresh_collect
    · apply fresh_escalate
      apply fresh_collect
  | group child ih => apply ih
  | join connective left right ihl ihr =>
    rw [eval]
    dsimp only
    split
    · apply ihl
    · apply fresh_combine
      apply ihl

end Evaluator

namespace Executor

variable {e : Executor}

/-- A query runs if the shape of results is valid. -/
theorem execute_eq (h : e.shape.validate = .ok ()) (q : Query) :
  e.execute q = .ok (e.executeInto q .or (.empty e.shape))
  := by
  rw [execute, RecordSet.ofShape, h]
  rfl

/-- What a query finds is what its expression is evaluated into. -/
theorem execute_eq_eval (hvalid : e.shape.validate = .ok ()) (q : Query) :
  e.execute q = .ok
    ((e.evaluator q e.shape).eval ((e.escalationOf q).bind Escalation.budget) q.root)
  := by
  let found := (e.evaluator q e.shape).eval ((e.escalationOf q).bind Escalation.budget) q.root
  have hunion : (RecordSet.empty e.shape).union found.records = found.records :=
    ((e.evaluator q e.shape).fresh_eval _ q.root).empty_union hvalid
  rw [execute_eq hvalid, executeInto, if_neg (by simp)]
  exact congrArg (fun records => Except.ok { found with records }) hunion

end Executor

end Retrieval
