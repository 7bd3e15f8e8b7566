import Retrieval.Score

/-!
# Scoring

How scores change where a query shapes them: adjusting lowers the scores of documents that its
right side finds too, a directional connective demotes one side and promotes the other, and a
looser lookup weighs less than an exact one.
-/

namespace Retrieval

/-- The weights that govern scores. -/
structure Scoring where
  /-- The weight of every term. -/
  termWeight : Score
  /-- How far a directional connective moves each side, in parts of the term weight. -/
  directionalStep : Int32
  /-- By what the penalty of an adjustment is multiplied. -/
  adjustFactor : Int32
  /-- The weight that a term loses with each looser way of matching. -/
  escalationDecay : Int32
deriving DecidableEq, Repr

namespace Scoring

/-- The weights if nothing else is said. -/
def standard : Scoring :=
  ⟨5, 1, 1, 2⟩

/-- The score of a record that is penalised. -/
def adjust (w : Scoring) (score penalty : Score) : Score :=
  score.minus (penalty.times w.adjustFactor)

/-- The score moved by `delta` parts of its size, where the term weight says how many parts
there are. The quotient is rounded towards zero. -/
def scale (w : Scoring) (delta : Int) (score : Score) : Score :=
  let parts := max w.termWeight.toInt 1
  Score.saturate (score.toInt + (delta * score.toInt.natAbs).tdiv parts)

/-- The score of a record on the side that is ranked lower. The step is turned round as a word of 32
bits, so the lowest step stays what it is. -/
def demote (w : Scoring) (score : Score) : Score :=
  w.scale (-w.directionalStep).toInt score

/-- The score of a record on the side that is ranked higher. -/
def promote (w : Scoring) (score : Score) : Score :=
  w.scale w.directionalStep.toInt score

/-- The weight of a term after it has escalated so many times. A positive weight stays between
one and what it was. -/
def escalatedWeight (w : Scoring) (weight : Score) (tier : Nat) : Score :=
  if weight ≤ 0 ∨ tier = 0 then weight
  else
    let lowered := weight.toInt - w.escalationDecay.toInt * tier
    Score.saturate (min (max lowered 1) weight.toInt)

/-- The weights as JSON. -/
def toJson (w : Scoring) : Json :=
  Json.record [("term_weight", w.termWeight.toJson),
    ("directional_step", Json.integer w.directionalStep.toInt),
    ("adjust_factor", Json.integer w.adjustFactor.toInt),
    ("escalation_decay", Json.integer w.escalationDecay.toInt)]

/-- The weights that a value writes. -/
def ofJson? (j : Json) : Option Scoring := do
  let fields ←
    j.fields? ["term_weight", "directional_step", "adjust_factor", "escalation_decay"]
  return {
    termWeight := ← fields.withDefault "term_weight" Json.int32? standard.termWeight
    directionalStep :=
      ← fields.withDefault "directional_step" Json.int32? standard.directionalStep
    adjustFactor := ← fields.withDefault "adjust_factor" Json.int32? standard.adjustFactor
    escalationDecay :=
      ← fields.withDefault "escalation_decay" Json.int32? standard.escalationDecay }

end Scoring

end Retrieval
