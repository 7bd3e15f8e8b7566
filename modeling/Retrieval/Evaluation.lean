import Retrieval.Query.Reader
import Retrieval.RecordSet.Basic
import Retrieval.Scoring
import Retrieval.Settings

/-!
# Evaluating queries

An expression is evaluated into a record set by looking up its terms from left to right and
combining what they find. A term that is found nowhere may be looked up again in looser ways,
as far as the escalation of the query allows. An evaluation keeps the lookups that were made,
and how many looser lookups are left.
-/

namespace Retrieval

/-- The connectives that find nothing if their left side finds nothing. -/
def Connective.needsLeft : Connective → Bool
  | .and | .but | .adjust => true
  | _ => false

/-- What an expression finds, how it was found, and what may still be spent. -/
structure Evaluation where
  records : RecordSet
  /-- How many looser lookups are left, if they are bounded. -/
  allowance : Option Nat
  /-- The lookups in the order in which they were made. -/
  lookups : List Lookup
  remarks : List Remark

namespace Evaluation

/-- The evaluation with one more remark. -/
def remark (r : Remark) (e : Evaluation) : Evaluation :=
  { e with remarks := e.remarks ++ [r] }

end Evaluation

/-- What an evaluation depends on besides the expression. -/
structure Evaluator where
  index : Index
  scoring : Scoring
  encoding : Encoding
  shape : Shape
  sectionWeights : SectionWeights
  /-- In how many looser ways a term may be looked up. -/
  steps : Nat

namespace Evaluator

/-- The records of both sides under a connective. -/
def combine (scoring : Scoring) (connective : Connective) (left right : RecordSet) : RecordSet :=
  match connective with
  | .or => left.union right
  | .and => left.intersect right
  | .but => left.subtract right
  | .adjust => left.adjust scoring.adjust right
  | .below => (left.mapScores scoring.demote).union (right.mapScores scoring.promote)
  | .above => (left.mapScores scoring.promote).union (right.mapScores scoring.demote)

/-- How a term is matched at first. -/
def firstChoice (t : Term) : ModeChoice :=
  match t.mode with
  | some choice => choice
  | none => if t.isPrefix then ⟨.leading, 0⟩ else ⟨.exact, 0⟩

/-- The option of a way of matching. Zero stands for the usual one. -/
def optionOf (choice : ModeChoice) : Int32 :=
  match choice.mode with
  | .near | .nearAny => if choice.option = 0 then defaultWindow else choice.option
  | .similar => if choice.option = 0 then defaultSimilarity else choice.option
  | _ => choice.option

/-- The looser ways of matching, the strictest first. -/
def looserModes : List MatchMode :=
  [.unsplit, .within]

/-- The lookup of a term. -/
def request (e : Evaluator) (t : Term) (choice : ModeChoice) : Lookup :=
  ⟨t.text, choice.mode, optionOf choice, e.encoding⟩

/-- The score that a posting contributes to the records of a term. -/
def contribution (e : Evaluator) (weight : Score) (p : Posting) : Score :=
  (p.score.times (e.sectionWeights.weight p.sectionNo)).times weight

/-- The records of postings for a term of a given weight. -/
def collect (e : Evaluator) (weight : Score) (postings : List Posting) : RecordSet :=
  postings.foldl (fun records p => records.add p.toAddress (e.contribution weight p))
    (.empty e.shape)

/-- Looks up a term. -/
def look (e : Evaluator) (t : Term) (choice : ModeChoice) (weight : Score)
    (allowance : Option Nat) : Evaluation :=
  let request := e.request t choice
  let records := e.collect weight (e.index request)
  ⟨records, allowance, [request], [.found choice.mode records.size]⟩

/-- Looks up a term in looser ways, until one of them finds something or no lookup is left. The
first of the given ways is the `tier`-th one. -/
def escalate (e : Evaluator) (t : Term) (tier : Nat) : List MatchMode → Evaluation → Evaluation
  | [], found => found
  | mode :: modes, found =>
    if !found.records.isEmpty then found
    else if found.allowance = some 0 then found.remark (.escalationSpent t.text)
    else
      let weight := e.scoring.escalatedWeight t.weight tier
      let next := e.look t ⟨mode, 0⟩ weight (found.allowance.map (· - 1))
      e.escalate t (tier + 1) modes
        { next with
          lookups := found.lookups ++ next.lookups
          remarks := found.remarks ++ .escalating t.text mode weight :: next.remarks }

/-- Looks up a term, in looser ways too if it asks for no way of its own. -/
def evalTerm (e : Evaluator) (t : Term) (allowance : Option Nat) : Evaluation :=
  let found := e.look t (firstChoice t) t.weight allowance
  if t.mode.isSome ∨ t.isPrefix then found
  else e.escalate t 1 (looserModes.take e.steps) found

/-- Evaluates an expression with so many looser lookups left. -/
def eval (e : Evaluator) (allowance : Option Nat) : Expr → Evaluation
  | .empty => ⟨.empty e.shape, allowance, [], []⟩
  | .term t => e.evalTerm t allowance
  | .group child => e.eval allowance child
  | .join connective left right =>
    let l := e.eval allowance left
    if l.records.isEmpty ∧ connective.needsLeft then l.remark (.leftEmpty connective)
    else
      let r := e.eval l.allowance right
      { records := combine e.scoring connective l.records r.records
        allowance := r.allowance
        lookups := l.lookups ++ r.lookups
        remarks := l.remarks ++ r.remarks }

end Evaluator

/-- What queries are run against, and how. -/
structure Executor where
  index : Index
  scoring : Scoring
  encoding : Encoding
  /-- The shape of results. -/
  shape : Shape
  /-- The escalation of queries that give none. -/
  escalation : Option Escalation

namespace Executor

/-- The executor that settings describe. -/
def ofSettings (index : Index) (settings : Settings) : Executor :=
  ⟨index, settings.scoring, settings.encoding, settings.shape, settings.escalation⟩

/-- The escalation of a query. -/
def escalationOf (e : Executor) (q : Query) : Option Escalation :=
  q.directives.escalation <|> e.escalation

/-- What the evaluation of a query depends on, for results of a shape. -/
def evaluator (e : Executor) (q : Query) (shape : Shape) : Evaluator :=
  { index := e.index
    scoring := e.scoring
    encoding := e.encoding
    shape
    sectionWeights := q.directives.sectionWeights
    steps := (e.escalationOf q).elim 0 Escalation.steps }

/-- Runs a query and combines its result with the records of a set. -/
def executeInto (e : Executor) (q : Query) (operator : Operator) (s : RecordSet) : Evaluation :=
  let allowance := (e.escalationOf q).bind Escalation.budget
  if s.isEmpty ∧ operator ≠ .or then ⟨s, allowance, [], [.nothingToCombine operator]⟩
  else
    let found := (e.evaluator q s.shape).eval allowance q.root
    { found with
      records := Evaluator.combine e.scoring operator.connective s found.records }

/-- Runs a query. -/
def execute (e : Executor) (q : Query) : Except Error Evaluation := do
  return e.executeInto q .or (← RecordSet.ofShape e.shape)

end Executor

end Retrieval
