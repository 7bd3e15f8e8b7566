import Retrieval.Proofs.Evaluation.Records
import Retrieval.Proofs.RecordSet.Scores
import Mathlib.Data.List.Induction
import Mathlib.Order.BooleanAlgebra.Set

/-!
# The meaning of a query

A query means a set of documents: those that its terms are found in, combined by its
connectives. For results by document it also means a score of each of them. Both meanings are
defined by recursion on the expression, without record sets, and an executor whose looser
lookups are not bounded computes them.
-/

namespace Retrieval

/-- What decides which documents match. -/
structure Matching where
  index : Index
  encoding : Encoding
  /-- In how many looser ways a term may be looked up. -/
  steps : Nat

namespace Term

/-- The lookups for a term, of which the first one that finds something counts. Only a term
without a mode that is no prefix has more than one. -/
def lookups (m : Matching) (t : Term) : List Lookup :=
  match t.mode with
  | some choice => [⟨t.text, choice.mode, Evaluator.optionOf choice, m.encoding⟩]
  | none =>
    if t.isPrefix then [⟨t.text, .leading, 0, m.encoding⟩]
    else (.exact :: List.take m.steps [.unsplit, .within]).map fun mode =>
      ⟨t.text, mode, 0, m.encoding⟩

/-- The first answer with a posting, and how many lookups come before it. -/
def answer? (m : Matching) (t : Term) : Option (List Posting × Nat) :=
  ((t.lookups m).map m.index).zipIdx.find? fun answer => !answer.1.isEmpty

/-- The documents that a term is found in. -/
def documents (m : Matching) (t : Term) : Set Key :=
  {key | ∃ answer ∈ t.answer? m, ∃ p ∈ answer.1, p.key = key}

/-- The score of a document for a term: the sum over its postings, in their order. -/
def score (m : Matching) (scoring : Scoring) (weights : SectionWeights) (t : Term) (key : Key) :
    Option Score :=
  (t.answer? m).bind fun (postings, tier) =>
    Score.total? ((postings.filter fun p => p.key = key).map fun p =>
      (p.score.times (weights.weight p.sectionNo)).times
        (scoring.escalatedWeight t.weight tier))

end Term

/-- The documents of both sides under a connective. -/
def Connective.documents (left right : Set Key) : Connective → Set Key
  | and => left ∩ right
  | but => left \ right
  | adjust => left
  | or | below | above => left ∪ right

/-- The score of a document under a connective, out of its scores on both sides. -/
def Connective.score (scoring : Scoring) (left right : Option Score) :
    Connective → Option Score
  | or => Option.merge Score.plus left right
  | and => left.bind fun a => right.map fun b => a.plus b
  | but => if right.isSome then none else left
  | adjust => left.map fun a => right.elim a fun b => scoring.adjust a b
  | below => Option.merge Score.plus (left.map scoring.demote) (right.map scoring.promote)
  | above => Option.merge Score.plus (left.map scoring.promote) (right.map scoring.demote)

/-- Where the left side is needed there is nothing without it. -/
theorem Connective.documents_empty {connective : Connective} (h : connective.needsLeft)
    (right : Set Key) :
  connective.documents ∅ right = ∅
  := by
  cases connective with
  | and => apply Set.empty_inter
  | but => apply Set.empty_sdiff
  | adjust => rfl
  | or | below | above => cases h

theorem Connective.score_none {connective : Connective} (h : connective.needsLeft)
    (scoring : Scoring) (right : Option Score) :
  connective.score scoring none right = none
  := by
  cases connective with
  | and => rfl
  | but => cases right <;> rfl
  | adjust => rfl
  | or | below | above => cases h

namespace Expr

/-- The documents that an expression asks for. -/
def documents (m : Matching) : Expr → Set Key
  | empty => ∅
  | term t => t.documents m
  | group child => child.documents m
  | join connective left right => connective.documents (left.documents m) (right.documents m)

/-- The score of a document, if an expression asks for it. -/
def score (m : Matching) (scoring : Scoring) (weights : SectionWeights) :
    Expr → Key → Option Score
  | empty, _ => none
  | term t, key => t.score m scoring weights key
  | group child, key => child.score m scoring weights key
  | join connective left right, key =>
    connective.score scoring (left.score m scoring weights key)
      (right.score m scoring weights key)

/-- The expression without the weights of its terms. -/
def unweighted : Expr → Expr
  | empty => empty
  | term t => term { t with weight := 0 }
  | group child => group child.unweighted
  | join connective left right => join connective left.unweighted right.unweighted

/-- The documents do not depend on the weights of terms. -/
theorem documents_unweighted (m : Matching) (x : Expr) :
  x.unweighted.documents m = x.documents m
  := by
  induction x with
  | empty => rfl
  | term t => rfl
  | group child ih => exact ih
  | join connective left right ihl ihr => rw [unweighted, documents, ihl, ihr, documents]

end Expr

namespace Evaluator

variable (e : Evaluator)

/-- What decides which documents an evaluator finds. -/
def matching : Matching :=
  ⟨e.index, e.encoding, e.steps⟩

/-! ### Postings -/

theorem collect_eq_foldl (weight : Score) (postings : List Posting) :
  e.collect weight postings
    = (postings.map fun p => (p.toAddress, e.contribution weight p)).foldl
        (fun s h => s.add h.1 h.2) (.empty e.shape)
  := by
  rw [List.foldl_map]
  rfl

theorem keys_collect (weight : Score) (postings : List Posting) :
  (e.collect weight postings).keys = {key | ∃ p ∈ postings, p.key = key}
  := by
  induction postings using List.reverseRecOn with
  | nil => simp [collect]
  | append_singleton postings p ih =>
    have hlast : e.collect weight (postings ++ [p])
        = (e.collect weight postings).add p.toAddress (e.contribution weight p) := by
      simp [collect]
    ext key
    simp [hlast, RecordSet.keys_add, ih, or_comm, eq_comm, or_and_right, exists_or]

/-- Postings make no records only if there are none. -/
theorem isEmpty_collect (weight : Score) (postings : List Posting) :
  (e.collect weight postings).isEmpty = postings.isEmpty
  := by
  rw [Bool.eq_iff_iff, RecordSet.isEmpty_iff_keys_eq_empty, keys_collect, List.isEmpty_iff]
  cases postings with
  | nil => simp
  | cons p postings =>
    have hkey : p.key ∈ {key | ∃ q ∈ p :: postings, q.key = key} :=
      ⟨p, List.mem_cons_self, rfl⟩
    simpa using Set.nonempty_iff_ne_empty.mp ⟨_, hkey⟩

theorem find?_collect (hunit : e.shape.unit = .perDocument) (weight : Score)
    (postings : List Posting) (key : Key) :
  (e.collect weight postings).find? key
    = Score.total? ((postings.filter fun p => p.key = key).map (e.contribution weight))
  := by
  rw [collect_eq_foldl, RecordSet.find?_addAll hunit, RecordSet.find?_empty,
    Score.total?_eq_foldl, List.filter_map, List.map_map]
  rfl

/-! ### Terms -/

/-- The records of the answer that counts for a term. -/
def recordsOf (t : Term) (answer : Option (List Posting × Nat)) : RecordSet :=
  answer.elim (.empty e.shape) fun (postings, tier) =>
    e.collect (e.scoring.escalatedWeight t.weight tier) postings

theorem allowance_escalate (t : Term) (modes : List MatchMode) (tier : Nat)
    {found : Evaluation} (h : found.allowance = none) :
  (e.escalate t tier modes found).allowance = none
  := by
  induction modes generalizing tier found with
  | nil => exact h
  | cons mode modes ih =>
    rw [escalate]
    split
    · apply h
    · rw [h, if_neg (by simp)]
      apply ih
      rfl

/-- Looser lookups go on from an answer without postings, up to the first one with some. -/
theorem records_escalate (t : Term) (modes : List MatchMode) (tier : Nat) {found : Evaluation}
    (hallowance : found.allowance = none) {weight : Score} {postings : List Posting}
    (hfound : found.records = e.collect weight postings) :
  (e.escalate t tier modes found).records
    = if postings.isEmpty
      then e.recordsOf t
        (((modes.map fun mode => e.index (e.request t ⟨mode, 0⟩)).zipIdx tier).find?
          fun answer => !answer.1.isEmpty)
      else e.collect weight postings
  := by
  induction modes generalizing tier found weight postings with
  | nil =>
    cases postings with
    | nil => exact hfound
    | cons p postings => exact hfound
  | cons mode modes ih =>
    rw [escalate, hfound, isEmpty_collect]
    cases hp : postings.isEmpty with
    | false => simpa using hfound
    | true =>
      rw [hallowance, if_neg (by simp), if_neg (by simp), ih _ rfl rfl]
      cases hanswer : (e.index (e.request t ⟨mode, 0⟩)).isEmpty with
      | true => simp [hanswer]
      | false => simp [hanswer, recordsOf]

theorem escalatedWeight_zero (scoring : Scoring) (weight : Score) :
  scoring.escalatedWeight weight 0 = weight
  := by
  simp [Scoring.escalatedWeight]

theorem allowance_evalTerm (t : Term) :
  (e.evalTerm t none).allowance = none
  := by
  rw [evalTerm]
  split
  · rfl
  · apply allowance_escalate
    rfl

/-- The lookups for a term are the first one and those in looser ways, unless the term has a way
of its own. -/
theorem lookups_eq (t : Term) :
  t.lookups e.matching
    = e.request t (firstChoice t) ::
      if t.mode.isSome ∨ t.isPrefix then []
      else (looserModes.take e.steps).map fun mode => e.request t ⟨mode, 0⟩
  := by
  unfold Term.lookups firstChoice
  cases t.mode with
  | some choice => rfl
  | none =>
    cases t.isPrefix with
    | true => rfl
    | false =>
      simp only [Option.isSome_none, Bool.false_eq_true, or_self, if_false, List.map_cons]
      congr 1
      apply List.map_congr_left
      intro mode hmode
      have hloose : mode = .unsplit ∨ mode = .within := by
        simpa using List.mem_of_mem_take hmode
      obtain rfl | rfl := hloose <;> rfl

/-- A term is evaluated into the records of the answer that counts for it. -/
theorem records_evalTerm (t : Term) :
  (e.evalTerm t none).records = e.recordsOf t (t.answer? e.matching)
  := by
  have hfirst : ∀ (postings : List Posting) (more : List (List Posting)),
      e.recordsOf t ((postings :: more).zipIdx.find? fun answer => !answer.1.isEmpty)
        = if postings.isEmpty
          then e.recordsOf t ((more.zipIdx 1).find? fun answer => !answer.1.isEmpty)
          else e.collect t.weight postings := by
    intro postings more
    cases postings with
    | nil => rfl
    | cons p postings => simp [recordsOf, escalatedWeight_zero]
  rw [evalTerm, Term.answer?, lookups_eq, List.map_cons, hfirst]
  split
  · split
    · rename_i hempty
      change e.collect t.weight (e.matching.index _) = _
      rw [List.isEmpty_iff.mp hempty]
      rfl
    · rfl
  · rw [e.records_escalate t _ 1 rfl rfl, List.map_map]
    rfl

theorem keys_evalTerm (t : Term) :
  (e.evalTerm t none).records.keys = t.documents e.matching
  := by
  rw [records_evalTerm, recordsOf, Term.documents]
  cases t.answer? e.matching with
  | none => simp
  | some answer => simp [keys_collect]

theorem find?_evalTerm (hunit : e.shape.unit = .perDocument) (t : Term) (key : Key) :
  (e.evalTerm t none).records.find? key
    = t.score e.matching e.scoring e.sectionWeights key
  := by
  rw [records_evalTerm, recordsOf, Term.score]
  cases t.answer? e.matching with
  | none => apply RecordSet.find?_empty
  | some answer => apply e.find?_collect hunit

/-! ### Expressions -/

section combine

variable (scoring : Scoring) (connective : Connective) {left right : RecordSet}

theorem keys_combine :
  (combine scoring connective left right).keys = connective.documents left.keys right.keys
  := by
  cases connective with
  | or => apply RecordSet.keys_union
  | and => apply RecordSet.keys_intersect
  | but => apply RecordSet.keys_subtract
  | adjust => apply RecordSet.keys_adjust
  | below =>
    rw [combine, RecordSet.keys_union, RecordSet.keys_mapScores, RecordSet.keys_mapScores]
    rfl
  | above =>
    rw [combine, RecordSet.keys_union, RecordSet.keys_mapScores, RecordSet.keys_mapScores]
    rfl

theorem find?_combine (hleft : left.WellFormed) (hright : right.WellFormed)
    (hshape : left.shape = right.shape) (hunit : left.shape.unit = .perDocument) (key : Key) :
  (combine scoring connective left right).find? key
    = connective.score scoring (left.find? key) (right.find? key)
  := by
  have hunit' : right.shape.unit = .perDocument := hshape ▸ hunit
  have hbiased : ∀ f g : Score → Score,
      ((left.mapScores f).union (right.mapScores g)).find? key
        = Option.merge Score.plus ((left.find? key).map f) ((right.find? key).map g) := by
    intro f g
    rw [RecordSet.find?_union (s := left.mapScores f) (hright.mapScores g) hshape hunit,
      RecordSet.find?_mapScores hunit, RecordSet.find?_mapScores hunit']
  cases connective with
  | or => apply RecordSet.find?_union hright hshape hunit
  | and => apply RecordSet.find?_intersect hleft hright hshape hunit
  | but => apply RecordSet.find?_subtract hleft hright hshape hunit
  | adjust => apply RecordSet.find?_adjust hright hshape hunit
  | below => apply hbiased
  | above => apply hbiased

end combine

theorem allowance_eval (x : Expr) :
  (e.eval none x).allowance = none
  := by
  induction x with
  | empty => rfl
  | term t => apply allowance_evalTerm
  | group child ih => exact ih
  | join connective left right ihl ihr =>
    rw [eval]
    dsimp only
    split
    · apply ihl
    · rw [ihl]
      apply ihr

theorem shape_eval (x : Expr) :
  (e.eval none x).records.shape = e.shape
  := (e.fresh_eval none x).shape_eq

theorem wellFormed_eval (hvalid : e.shape.validate = .ok ()) (x : Expr) :
  (e.eval none x).records.WellFormed
  := (e.fresh_eval none x).wellFormed hvalid

/-- An expression is evaluated into records of the documents that it asks for. -/
theorem keys_eval (x : Expr) :
  (e.eval none x).records.keys = x.documents e.matching
  := by
  induction x with
  | empty => apply RecordSet.keys_empty
  | term t => apply keys_evalTerm
  | group child ih => exact ih
  | join connective left right ihl ihr =>
    rw [eval, allowance_eval, Expr.documents]
    dsimp only
    split
    · -- The right side is left out only where it does not matter.
      rename_i hleft
      obtain ⟨hempty, hneeds⟩ := hleft
      rw [RecordSet.isEmpty_iff_keys_eq_empty, ihl] at hempty
      change (e.eval none left).records.keys = _
      rw [ihl, hempty, Connective.documents_empty hneeds]
    · rw [keys_combine, ihl, ihr]

/-- By document, the record of a document has the score that the expression gives to it. -/
theorem find?_eval (hvalid : e.shape.validate = .ok ()) (hunit : e.shape.unit = .perDocument)
    (x : Expr) (key : Key) :
  (e.eval none x).records.find? key = x.score e.matching e.scoring e.sectionWeights key
  := by
  induction x with
  | empty => apply RecordSet.find?_empty
  | term t => apply e.find?_evalTerm hunit
  | group child ih => exact ih
  | join connective left right ihl ihr =>
    rw [eval, allowance_eval, Expr.score]
    dsimp only
    split
    · rename_i hleft
      obtain ⟨hempty, hneeds⟩ := hleft
      have hnone : (e.eval none left).records.find? key = none := by
        rw [(e.wellFormed_eval hvalid left).find?_eq_total?, List.isEmpty_iff.mp hempty]
        rfl
      change (e.eval none left).records.find? key = _
      rw [← ihl, hnone, Connective.score_none hneeds]
    · rw [← ihl, ← ihr]
      apply find?_combine
      · apply e.wellFormed_eval hvalid
      · apply e.wellFormed_eval hvalid
      · rw [shape_eval, shape_eval]
      · rw [shape_eval, hunit]

end Evaluator

/-! ### Queries -/

namespace Executor

/-- What decides which documents a query matches. -/
def matching (e : Executor) (q : Query) : Matching :=
  ⟨e.index, e.encoding, (e.escalationOf q).elim 0 Escalation.steps⟩

/-- A query runs if the shape of results is valid, and gives what its expression evaluates to. -/
theorem exists_execute {e : Executor} {q : Query} (hvalid : e.shape.validate = .ok ())
    (hbound : (e.escalationOf q).bind Escalation.budget = none) :
  ∃ found, e.execute q = .ok found
    ∧ found.records
      = (RecordSet.empty e.shape).union ((e.evaluator q e.shape).eval none q.root).records
  := by
  use e.executeInto q .or (.empty e.shape), execute_eq hvalid q
  rw [executeInto, if_neg (by simp), hbound]
  rfl

end Executor

end Retrieval
