import Retrieval.Error
import Retrieval.Index.Lookup

/-!
# Queries

A query is an expression over terms, together with directives that govern how the expression
is evaluated, and the text that was left over when the query was read.
-/

namespace Retrieval

/-- How the result of a query is combined with what is there, and how terms are combined that
stand side by side. -/
inductive Operator where
  | or
  | and
  | but
  | adjust
deriving DecidableEq, Repr

instance : Enumeration Operator where
  values := [.or, .and, .but, .adjust]
  name
    | .or => "or"
    | .and => "and"
    | .but => "but"
    | .adjust => "adjust"

/-- How two expressions are combined. -/
inductive Connective where
  | or
  | and
  | but
  | adjust
  /-- What either side finds, the left side ranked lower. -/
  | below
  /-- What either side finds, the left side ranked higher. -/
  | above
deriving DecidableEq, Repr

namespace Connective

instance : Enumeration Connective where
  values := [or, and, but, adjust, below, above]
  name
    | or => "or"
    | and => "and"
    | but => "but"
    | adjust => "adjust"
    | below => "lt"
    | above => "gt"

/-- The name of a connective in messages. -/
def label : Connective → String
  | or => "Or"
  | and => "And"
  | but => "But"
  | adjust => "Adjust"
  | below => "Lt"
  | above => "Gt"

end Connective

/-- The connective that an operator stands for. -/
def Operator.connective : Operator → Connective
  | .or => .or
  | .and => .and
  | .but => .but
  | .adjust => .adjust

/-- A way of matching that a query asks for. -/
structure ModeChoice where
  mode : MatchMode
  option : Int32
deriving DecidableEq, Repr

/-- A term of a query: a word or a phrase. -/
structure Term where
  text : String
  /-- Whether the term need only begin a word. -/
  isPrefix : Bool
  isPhrase : Bool
  weight : Score
  mode : Option ModeChoice
deriving DecidableEq, Repr

/-- What a query asks for. -/
inductive Expr where
  | empty
  | term (t : Term)
  | group (child : Expr)
  | join (connective : Connective) (left right : Expr)
deriving DecidableEq, Repr

namespace Expr

/-- The terms from left to right. -/
def terms : Expr → List Term
  | empty => []
  | term t => [t]
  | group child => child.terms
  | join _ left right => left.terms ++ right.terms

/-- Whether an expression asks for nothing. -/
def isEmpty : Expr → Bool
  | empty => true
  | _ => false

end Expr

/-- How a term that is found nowhere is looked up again in looser ways. -/
structure Escalation where
  threshold : Int32
  secondary : Option Int32
deriving DecidableEq, Repr

namespace Escalation

/-- How many looser ways a term may be looked up in. -/
def steps (e : Escalation) : Nat :=
  e.threshold.toInt.natAbs

/-- How many looser lookups the terms of a query may make together, if that is bounded. -/
def budget (e : Escalation) : Option Nat :=
  e.secondary.map fun n => n.toInt.natAbs

end Escalation

/-- Weights of sections, in the order of the sections. -/
structure WeightTable where
  entries : List (UInt32 × Score)
  ascending : entries.Pairwise fun a b => a.1 < b.1
deriving DecidableEq, Repr

namespace WeightTable

/-- No weights. -/
def empty : WeightTable :=
  ⟨[], .nil⟩

/-- The entries with the weight of a section put in its place. -/
def put (sectionNo : UInt32) (weight : Score) : List (UInt32 × Score) → List (UInt32 × Score)
  | [] => [(sectionNo, weight)]
  | e :: entries =>
    if sectionNo < e.1 then (sectionNo, weight) :: e :: entries
    else if sectionNo = e.1 then (sectionNo, weight) :: entries
    else e :: put sectionNo weight entries

theorem fst_of_mem_put {sectionNo : UInt32} {weight : Score} {l : List (UInt32 × Score)}
    {e : UInt32 × Score} (h : e ∈ put sectionNo weight l) :
  e.1 = sectionNo ∨ e ∈ l
  := by
  fun_induction put sectionNo weight l with
  | case1 =>
    left
    rw [List.mem_singleton.mp h]
  | case2 =>
    rcases List.mem_cons.mp h with rfl | h
    · exact .inl rfl
    · exact .inr h
  | case3 =>
    rcases List.mem_cons.mp h with rfl | h
    · exact .inl rfl
    · exact .inr (List.mem_cons_of_mem _ h)
  | case4 _ _ _ _ ih =>
    rcases List.mem_cons.mp h with rfl | h
    · exact .inr List.mem_cons_self
    · exact (ih h).imp_right (List.mem_cons_of_mem _)

theorem pairwise_put {sectionNo : UInt32} {weight : Score} {l : List (UInt32 × Score)}
    (h : l.Pairwise fun a b => a.1 < b.1) :
  (put sectionNo weight l).Pairwise fun a b => a.1 < b.1
  := by
  fun_induction put sectionNo weight l with
  | case1 => simp
  | case2 e l hlt =>
    refine .cons (fun b hb => ?_) h
    rcases List.mem_cons.mp hb with rfl | hb
    · exact hlt
    · exact UInt32.lt_trans hlt (List.rel_of_pairwise_cons h hb)
  | case3 e l _ heq =>
    refine .cons (fun b hb => ?_) h.of_cons
    exact heq ▸ List.rel_of_pairwise_cons h hb
  | case4 e l hle hne ih =>
    refine .cons (fun b hb => ?_) (ih h.of_cons)
    rcases fst_of_mem_put hb with hb | hb
    · exact hb ▸ UInt32.lt_of_le_of_ne (UInt32.not_lt.mp hle) (Ne.symm hne)
    · exact List.rel_of_pairwise_cons h hb

/-- The table with the weight of a section, in place of the one it had. -/
def insert (sectionNo : UInt32) (weight : Score) (table : WeightTable) : WeightTable :=
  ⟨put sectionNo weight table.entries, pairwise_put table.ascending⟩

/-- The table of the given weights, of which later ones replace earlier ones. -/
def ofList (l : List (UInt32 × Score)) : WeightTable :=
  l.foldl (fun table e => table.insert e.1 e.2) empty

end WeightTable

/-- By how much hits count in each section. -/
inductive SectionWeights where
  /-- Hits count once everywhere. -/
  | uniform
  /-- Hits count in the listed sections only. -/
  | listed (table : WeightTable)
deriving DecidableEq, Repr

/-- The weight of a section. -/
def SectionWeights.weight (sectionNo : UInt32) : SectionWeights → Score
  | uniform => 1
  | listed table => (table.entries.lookup sectionNo).getD 0

/-- What a query says about its own evaluation. -/
structure Directives where
  escalation : Option Escalation
  defaultOperator : Operator
  sectionWeights : SectionWeights
deriving DecidableEq, Repr

/-- The directives of a query that gives none. -/
def Directives.ofOperator (operator : Operator) : Directives :=
  ⟨none, operator, .uniform⟩

/-- A query. -/
structure Query where
  root : Expr
  directives : Directives
  /-- What was not read. -/
  rest : String
deriving DecidableEq, Repr

namespace Query

/-- The terms from left to right. -/
def terms (q : Query) : List Term :=
  q.root.terms

/-- Whether a query asks for nothing. -/
def isEmpty (q : Query) : Bool :=
  q.root.isEmpty

end Query

end Retrieval
