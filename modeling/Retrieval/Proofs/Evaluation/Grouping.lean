import Retrieval.Proofs.Evaluation.Denotation
import Retrieval.Proofs.RecordSet.Groups
import Retrieval.Proofs.RecordSet.Totals
import Mathlib.Algebra.Order.BigOperators.Group.List

/-!
# Results by document out of finer results

A query that only merges, meets and subtracts can be run by section or by position and its results
grouped by document, which gives the documents and scores that running it by document gives. An
evaluation at any granularity collects the same hits, into more or fewer records. The hits are
defined here without record sets, by recursion on the expression. Whether something was found
depends on them alone, so that the same lookups are made at each granularity.
-/

namespace Retrieval

/-! ### Hits of an expression -/

/-- What an expression finds, before any of it is added up. -/
structure Findings where
  hits : List Hit
  /-- How many looser lookups are left, if they are bounded. -/
  allowance : Option Nat
  /-- The lookups in the order in which they were made, with the weights of what they found. -/
  lookups : List (Lookup × Score)

namespace Connective

/-- The connectives that give no new scores to what they keep. -/
def isBoolean : Connective → Bool
  | or | and | but => true
  | adjust | below | above => false

/-- The hits of both sides that a connective keeps. -/
def hits (left right : List Hit) : Connective → List Hit
  | and => (left.filter fun h => Hit.has h.1 right) ++ right.filter fun h => Hit.has h.1 left
  | but => left.filter fun h => !Hit.has h.1 right
  | adjust => left
  | or | below | above => left ++ right

/-- No hits come in addition to those of both sides. -/
theorem mass_hits_le (connective : Connective) (left right : List Hit) (key : Key) :
  Hit.mass key (connective.hits left right) ≤ Hit.mass key left + Hit.mass key right
  := by
  have hfilter : ∀ (p : Key → Bool) (hits : List Hit),
      Hit.mass key (hits.filter fun h => p h.1) ≤ Hit.mass key hits := by
    intro p hits
    rw [Hit.mass, Hit.sumOf_filter]
    split
    · apply Nat.le_refl
    · apply Nat.zero_le
  have happend : ∀ hits more : List Hit,
      Hit.mass key (hits ++ more) = Hit.mass key hits + Hit.mass key more := by
    intro hits more
    apply Hit.sumOf_append
  cases connective with
  | and =>
    rw [hits, happend]
    apply Nat.add_le_add
    · apply hfilter fun key => Hit.has key right
    · apply hfilter fun key => Hit.has key left
  | but =>
    apply Nat.le_trans (hfilter (fun key => !Hit.has key right) left)
    apply Nat.le_add_right
  | adjust => apply Nat.le_add_right
  | or | below | above => exact Nat.le_of_eq (happend left right)

end Connective

/-- Whether every connective of an expression gives no new scores. -/
def Expr.isBoolean : Expr → Bool
  | empty | term _ => true
  | group child => child.isBoolean
  | join connective left right => connective.isBoolean && left.isBoolean && right.isBoolean

namespace Evaluator

/-- The hits of postings for a term of a given weight. -/
def hitsOf (e : Evaluator) (weight : Score) (postings : List Posting) : List Hit :=
  postings.map fun p => (p.key, e.contribution weight p)

/-- The findings of one lookup. -/
def findChoice (e : Evaluator) (t : Term) (choice : ModeChoice) (weight : Score)
    (allowance : Option Nat) : Findings :=
  let request := e.request t choice
  ⟨e.hitsOf weight (e.index request), allowance, [(request, weight)]⟩

/-- The findings of looser lookups, of which the first one is the `tier`-th. -/
def findLooser (e : Evaluator) (t : Term) (tier : Nat) : List MatchMode → Findings → Findings
  | [], found => found
  | mode :: modes, found =>
    if !found.hits.isEmpty ∨ found.allowance = some 0 then found
    else
      let weight := e.scoring.escalatedWeight t.weight tier
      let next := e.findChoice t ⟨mode, 0⟩ weight (found.allowance.map (· - 1))
      e.findLooser t (tier + 1) modes { next with lookups := found.lookups ++ next.lookups }

/-- The findings of a term. -/
def findTerm (e : Evaluator) (t : Term) (allowance : Option Nat) : Findings :=
  let found := e.findChoice t (firstChoice t) t.weight allowance
  if t.mode.isSome ∨ t.isPrefix then found
  else e.findLooser t 1 (looserModes.take e.steps) found

/-- The findings of an expression. -/
def find (e : Evaluator) (allowance : Option Nat) : Expr → Findings
  | .empty => ⟨[], allowance, []⟩
  | .term t => e.findTerm t allowance
  | .group child => e.find allowance child
  | .join connective left right =>
    let l := e.find allowance left
    if l.hits.isEmpty ∧ connective.needsLeft then l
    else
      let r := e.find l.allowance right
      ⟨connective.hits l.hits r.hits, r.allowance, l.lookups ++ r.lookups⟩

/-! ### What lookups contribute -/

variable (e : Evaluator)

/-- The sizes of the scores that the postings of lookups contribute, added up. -/
def contributed (lookups : List (Lookup × Score)) : Nat :=
  (lookups.map fun l =>
    ((e.index l.1).map fun p => (e.contribution l.2 p).toInt.natAbs).sum).sum

/-- No score is larger than the product that it stands for. -/
theorem contributed_le (lookups : List (Lookup × Score)) :
  e.contributed lookups ≤ (lookups.map fun l => ((e.index l.1).map fun p =>
    p.score.toInt.natAbs * (e.sectionWeights.weight p.sectionNo).toInt.natAbs
      * l.2.toInt.natAbs).sum).sum
  := by
  have htimes : ∀ s t : Score, (s.times t).toInt.natAbs ≤ s.toInt.natAbs * t.toInt.natAbs := by
    intro s t
    have hmin : Int32.minValue.toInt = -2147483648 := rfl
    have hmax : Int32.maxValue.toInt = 2147483647 := rfl
    rw [← Int.natAbs_mul, Score.times, Score.saturate, Int32.ofIntClamp]
    split_ifs
    · rw [Int32.toInt_ofIntLE]
    · omega
    · omega
  apply List.sum_le_sum
  intro l _
  apply List.sum_le_sum
  intro p _
  apply Nat.le_trans (htimes _ _)
  apply Nat.mul_le_mul_right
  apply htimes

@[simp]
theorem contributed_append (l₁ l₂ : List (Lookup × Score)) :
  e.contributed (l₁ ++ l₂) = e.contributed l₁ + e.contributed l₂
  := by
  simp [contributed]

/-- The findings have no other hits than their lookups give. -/
theorem mass_findChoice_le (t : Term) (choice : ModeChoice) (weight : Score)
    (allowance : Option Nat) (key : Key) :
  Hit.mass key (e.findChoice t choice weight allowance).hits
    ≤ e.contributed (e.findChoice t choice weight allowance).lookups
  := by
  have hsum : e.contributed (e.findChoice t choice weight allowance).lookups
      = ((e.findChoice t choice weight allowance).hits.map fun h => h.2.toInt.natAbs).sum := by
    simp [contributed, findChoice, hitsOf, Function.comp_def]
  rw [hsum]
  apply Hit.mass_le

theorem mass_findLooser_le (t : Term) (tier : Nat) (modes : List MatchMode) {found : Findings}
    {key : Key} (h : Hit.mass key found.hits ≤ e.contributed found.lookups) :
  Hit.mass key (e.findLooser t tier modes found).hits
    ≤ e.contributed (e.findLooser t tier modes found).lookups
  := by
  induction modes generalizing tier found with
  | nil => exact h
  | cons mode modes ih =>
    rw [findLooser]
    split
    · exact h
    · apply ih
      rw [contributed_append]
      apply Nat.le_trans (e.mass_findChoice_le t _ _ _ key)
      apply Nat.le_add_left

theorem mass_find_le (allowance : Option Nat) (x : Expr) (key : Key) :
  Hit.mass key (e.find allowance x).hits ≤ e.contributed (e.find allowance x).lookups
  := by
  induction x generalizing allowance with
  | empty => apply Nat.zero_le
  | term t =>
    rw [find, findTerm]
    split
    · apply mass_findChoice_le
    · apply mass_findLooser_le
      apply mass_findChoice_le
  | group child ih => exact ih allowance
  | join connective left right ihl ihr =>
    rw [find]
    dsimp only
    split
    · apply ihl
    · rw [contributed_append]
      apply Nat.le_trans (connective.mass_hits_le _ _ key)
      apply Nat.add_le_add
      · apply ihl
      · apply ihr

end Evaluator

/-! ### Hits in records -/

/-- An evaluation collects the hits of findings, in the way in which they were found. -/
structure Evaluation.Collects (found : Evaluation) (findings : Findings) : Prop where
  hits : Hit.Condenses found.records.documentHits findings.hits
  allowance : found.allowance = findings.allowance
  lookups : found.lookups = findings.lookups.map Prod.fst

namespace Evaluation.Collects

variable {found more : Evaluation} {findings moreFindings : Findings}

/-- Both find something, or none of them does. -/
theorem isEmpty_eq (h : found.Collects findings) :
  found.records.isEmpty = findings.hits.isEmpty
  := (RecordSet.isEmpty_eq_documentHits _).trans h.hits.isEmpty_eq

theorem remark (h : found.Collects findings) (r : Remark) :
  (found.remark r).Collects findings
  := ⟨h.hits, h.allowance, h.lookups⟩

/-- Both sides are combined as their hits are. -/
theorem combine {connective : Connective} (hboolean : connective.isBoolean) (scoring : Scoring)
    (remarks : List Remark) (h : found.Collects findings) (hmore : more.Collects moreFindings) :
  Evaluation.Collects
    ⟨Evaluator.combine scoring connective found.records more.records, more.allowance,
      found.lookups ++ more.lookups, remarks⟩
    ⟨connective.hits findings.hits moreFindings.hits, moreFindings.allowance,
      findings.lookups ++ moreFindings.lookups⟩
  := by
  constructor
  · cases connective with
    | or => exact RecordSet.condenses_union h.hits hmore.hits
    | and => exact RecordSet.condenses_intersect h.hits hmore.hits
    | but => exact RecordSet.condenses_subtract h.hits hmore.hits
    | adjust | below | above => cases hboolean
  · exact hmore.allowance
  · simp [h.lookups, hmore.lookups]

end Evaluation.Collects

namespace Evaluator

variable (e : Evaluator)

/-- The evaluator of the same queries for results of another shape. -/
def reshape (shape : Shape) : Evaluator :=
  { e with shape }

variable (shape : Shape)

theorem condenses_collect (weight : Score) (postings : List Posting) :
  Hit.Condenses ((e.reshape shape).collect weight postings).documentHits (e.hitsOf weight postings)
  := by
  induction postings using List.reverseRecOn with
  | nil => apply Hit.Condenses.refl
  | append_singleton postings p ih =>
    have hlast : (e.reshape shape).collect weight (postings ++ [p])
        = ((e.reshape shape).collect weight postings).add p.toAddress
            (e.contribution weight p) := by
      simp only [collect, List.foldl_append]
      rfl
    have hmore := ih.append (Hit.Condenses.refl [(p.key, e.contribution weight p)])
    rw [hlast, hitsOf, List.map_append]
    apply (RecordSet.condenses_add _ _ _).trans hmore

theorem collects_look (t : Term) (choice : ModeChoice) (weight : Score)
    (allowance : Option Nat) :
  ((e.reshape shape).look t choice weight allowance).Collects
    (e.findChoice t choice weight allowance)
  := ⟨e.condenses_collect shape weight _, rfl, rfl⟩

/-- Looser lookups are made as long as nothing is found, which does not depend on the shape. -/
theorem collects_escalate (t : Term) (tier : Nat) (modes : List MatchMode) {found : Evaluation}
    {findings : Findings} (h : found.Collects findings) :
  ((e.reshape shape).escalate t tier modes found).Collects (e.findLooser t tier modes findings)
  := by
  induction modes generalizing tier found findings with
  | nil => exact h
  | cons mode modes ih =>
    rw [escalate, findLooser, h.isEmpty_eq, h.allowance]
    by_cases hfound : (!findings.hits.isEmpty) = true
    · rw [if_pos hfound, if_pos (.inl hfound)]
      exact h
    · by_cases hspent : findings.allowance = some 0
      · rw [if_neg hfound, if_pos hspent, if_pos (.inr hspent)]
        apply h.remark
      · rw [if_neg hfound, if_neg hspent, if_neg (by simp [hfound, hspent])]
        apply ih
        have hnext := e.collects_look shape t ⟨mode, 0⟩ (e.scoring.escalatedWeight t.weight tier)
          (findings.allowance.map (· - 1))
        constructor
        · exact hnext.hits
        · exact hnext.allowance
        · rw [List.map_append, ← h.lookups, ← hnext.lookups]
          rfl

theorem collects_evalTerm (t : Term) (allowance : Option Nat) :
  ((e.reshape shape).evalTerm t allowance).Collects (e.findTerm t allowance)
  := by
  rw [evalTerm, findTerm]
  split
  · apply collects_look
  · apply collects_escalate
    apply collects_look

/-- At each shape an expression is evaluated into records that collect its hits. -/
theorem collects_eval (allowance : Option Nat) (x : Expr) (hboolean : x.isBoolean) :
  ((e.reshape shape).eval allowance x).Collects (e.find allowance x)
  := by
  induction x generalizing allowance with
  | empty => exact ⟨.refl [], rfl, rfl⟩
  | term t => exact e.collects_evalTerm shape t allowance
  | group child ih => exact ih allowance hboolean
  | join connective left right ihl ihr =>
    simp only [Expr.isBoolean, Bool.and_eq_true] at hboolean
    obtain ⟨⟨hconnective, hleft⟩, hright⟩ := hboolean
    have hl := ihl allowance hleft
    rw [eval, find]
    dsimp only
    -- Either both leave out the right side or none of them does.
    rw [hl.isEmpty_eq]
    split
    · apply hl.remark
    · apply Evaluation.Collects.combine hconnective _ _ hl
      rw [hl.allowance]
      apply ihr _ hright

end Evaluator

/-! ### Groups by document -/

namespace RecordSet

variable {s t : RecordSet}

/-- By document, each document has one record. -/
theorem WellFormed.nodup_documentHits (h : s.WellFormed) (hunit : s.shape.unit = .perDocument) :
  (s.documentHits.map Prod.fst).Nodup
  := by
  rw [documentHits, Record.map_fst_documentHits]
  apply List.Nodup.map_on _ h.holds.distinct
  intro a ha b hb hkey
  have hplace : ∀ a ∈ Record.addresses s.records, a = .ofKey a.key := by
    intro a ha
    obtain ⟨r, hr, rfl⟩ := List.mem_map.mp ha
    apply h.eq_ofKey hunit r hr
  rw [hplace a ha, hplace b hb, hkey]

/-- Records by section or by position can be grouped by document, with room for as many parts as
can be counted. The groups add up the hits of the records. -/
theorem exists_group (hunit : s.shape.unit = .perSection ∨ s.shape.unit = .perPosition)
    {limit : Nat} (hlimit : limit < UInt32.size) :
  ∃ grouped, s.group limit = .ok grouped
    ∧ grouped.shape.unit = .perDocument
    ∧ Hit.Condenses grouped.documentHits s.documentHits
  := by
  have hunits : ¬(s.shape.unit ≠ .perSection ∧ s.shape.unit ≠ .perPosition) := by tauto
  have hgroup := group_eq limit s
  rw [if_neg hunits, if_neg (Nat.not_le.mpr hlimit)] at hgroup
  exact ⟨_, hgroup, rfl, condenses_groups limit .descending s.records⟩

end RecordSet

/-! ### Queries -/

namespace Executor

/-- What a query finds, before any of it is added up. -/
def findings (e : Executor) (q : Query) : Findings :=
  (e.evaluator q e.shape).find ((e.escalationOf q).bind Escalation.budget) q.root

/-- A query runs for each valid shape of results, and collects what it finds. -/
theorem exists_collects (e : Executor) {q : Query} (hboolean : q.root.isBoolean)
    {shape : Shape} (hvalid : shape.validate = .ok ()) :
  ∃ found, { e with shape }.execute q = .ok found
    ∧ found.Collects (e.findings q)
    ∧ found.records.WellFormed
    ∧ found.records.shape = shape
  := by
  have heval := (e.evaluator q e.shape).collects_eval shape
    ((e.escalationOf q).bind Escalation.budget) q.root hboolean
  have hempty : Hit.Condenses (RecordSet.empty shape).documentHits [] := .refl []
  refine ⟨{ e with shape }.executeInto q .or (.empty shape), execute_eq hvalid q, ?_, ?_, ?_⟩
  · rw [executeInto, if_neg (by simp)]
    constructor
    · exact RecordSet.condenses_union hempty heval.hits
    · exact heval.allowance
    · exact heval.lookups
  · rw [executeInto, if_neg (by simp)]
    apply RecordSet.WellFormed.union ⟨hvalid, .nil⟩
  · rw [executeInto, if_neg (by simp)]
    rfl

/-- Where a query only merges, meets and subtracts, running it by section or by position and
grouping the result by document gives the documents and scores that running it by document gives,
in the same order, and the same lookups are made, as long as the scores that the lookups contribute
do not add up beyond the range of scores. -/
theorem group_execute (e : Executor) (q : Query) (fine : Shape) (limit : Nat)
    (hboolean : q.root.isBoolean) (hvalid : e.shape.validate = .ok ())
    (hunit : e.shape.unit = .perDocument) (hfine : fine.validate = .ok ())
    (hfineUnit : fine.unit = .perSection ∨ fine.unit = .perPosition)
    (hlimit : limit < UInt32.size)
    (hcontributed : (e.evaluator q e.shape).contributed (e.findings q).lookups
      ≤ Int32.maxValue.toInt.toNat) :
  ∃ whole parts grouped, e.execute q = .ok whole
    ∧ { e with shape := fine }.execute q = .ok parts
    ∧ parts.records.group limit = .ok grouped
    ∧ grouped.records.map (fun r => (r.key, r.score))
      = whole.records.records.map (fun r => (r.key, r.score))
    ∧ parts.lookups = whole.lookups
    ∧ whole.lookups = (e.findings q).lookups.map Prod.fst
  := by
  obtain ⟨whole, hwhole, hwholeCollects, hwholeFormed, hwholeShape⟩ :=
    e.exists_collects hboolean hvalid
  obtain ⟨parts, hparts, hpartsCollects, -, rfl⟩ := e.exists_collects hboolean hfine
  obtain ⟨grouped, hgrouped, hgroupedUnit, hcondenses⟩ :=
    RecordSet.exists_group hfineUnit hlimit
  refine ⟨whole, parts, grouped, hwhole, hparts, hgrouped, ?_, ?_, hwholeCollects.lookups⟩
  · -- Both lists add up the hits of the query, and neither has two records of one document.
    apply Hit.Condenses.eq_of_nodup (hcondenses.trans hpartsCollects.hits) hwholeCollects.hits
    · apply (RecordSet.WellFormed.group hgrouped).nodup_documentHits hgroupedUnit
    · apply hwholeFormed.nodup_documentHits
      rw [hwholeShape, hunit]
    · intro key
      apply Nat.le_trans _ hcontributed
      apply Evaluator.mass_find_le
  · rw [hpartsCollects.lookups, hwholeCollects.lookups]

/-- A query for documents of which the first term is found in a looser way only, after which no
lookup is left for the third one. -/
theorem group_execute_positions :
  let index : Index := fun lookup =>
    if lookup.term = "a" ∧ lookup.mode = .unsplit then
      [⟨⟨.number 2, 0, 1⟩, 2⟩, ⟨⟨.number 1, 0, 0⟩, -1⟩, ⟨⟨.number 2, 3, 4⟩, 2⟩]
    else if lookup.term = "b" ∧ lookup.mode = .exact then
      [⟨⟨.number 1, 0, 5⟩, 1⟩, ⟨⟨.number 2, 0, 5⟩, 1⟩, ⟨⟨.number 3, 0, 5⟩, 1⟩]
    else []
  let e : Executor := ⟨index, .standard, .unspecified, .documents, some ⟨2, some 1⟩⟩
  let fine : Shape := ⟨.perPosition, .nothing, 0⟩
  let q : Query := ⟨.join .but (.join .and (.term ⟨"a", false, false, 5, none⟩)
    (.group (.term ⟨"b", false, false, 5, none⟩))) (.term ⟨"c", false, false, 5, none⟩),
    .ofOperator .or, ""⟩
  ∃ whole parts grouped, e.execute q = .ok whole
    ∧ { e with shape := fine }.execute q = .ok parts
    ∧ parts.records.group 7 = .ok grouped
    ∧ grouped.records.map (fun r => (r.key, r.score)) = [(.number 2, 17), (.number 1, 2)]
    ∧ parts.lookups = whole.lookups
    ∧ whole.lookups.map Lookup.mode = [.exact, .unsplit, .exact, .exact]
  := by
  intro index e fine q
  obtain ⟨whole, parts, grouped, hwhole, hparts, hgrouped, hrecords, hlookups, hperformed⟩ :=
    group_execute e q fine 7 rfl rfl rfl rfl (.inr rfl) (by decide) (by decide)
  have hlist : (e.execute q).toOption.map (fun found => found.records.documentHits)
      = some [(.number 2, 17), (.number 1, 2)] := by
    decide
  rw [hwhole] at hlist
  refine ⟨whole, parts, grouped, hwhole, hparts, hgrouped, ?_, hlookups, ?_⟩
  · rw [hrecords]
    exact Option.some.inj hlist
  · rw [hperformed]
    decide

end Executor

end Retrieval
