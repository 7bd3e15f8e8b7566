import Mathlib.Algebra.Order.Group.Unbundled.Int
import Mathlib.Tactic.Use
import Retrieval.Proofs.RecordSet.Sorting
import Retrieval.Scoring

/-!
# The arithmetic of scores

A directional connective moves a score by its `shift`: the size of the score, times the step,
divided by the number of parts, and rounded down. A score is demoted by its shift and promoted by
it, as far as the range of scores goes. While the step is no longer than the parts are many, the
shifts of two scores differ by no more than the scores do, so neither way changes their order.

Scores are computed in words of 64 bits. The definitions ending in a question mark follow the
computation word by word and have no result where a word runs over. None does.
-/

namespace Retrieval

/-! ### Words -/

namespace Word

/-- An integer as a word of 64 bits, if it fits. -/
def ofInt? (i : Int) : Option Int64 :=
  if Int64.minValue.toInt ≤ i ∧ i ≤ Int64.maxValue.toInt then some (.ofInt i) else none

def add? (a b : Int64) : Option Int64 :=
  ofInt? (a.toInt + b.toInt)

def sub? (a b : Int64) : Option Int64 :=
  ofInt? (a.toInt - b.toInt)

def mul? (a b : Int64) : Option Int64 :=
  ofInt? (a.toInt * b.toInt)

/-- The quotient, rounded towards zero. -/
def div? (a b : Int64) : Option Int64 :=
  if b = 0 then none else ofInt? (a.toInt.tdiv b.toInt)

def abs? (a : Int64) : Option Int64 :=
  ofInt? a.toInt.natAbs

/-- The product, or the end of the range that it lies beyond. -/
def mulClamp (a b : Int64) : Int64 :=
  .ofIntClamp (a.toInt * b.toInt)

/-- The word nearest to `a` between two bounds, if there is one. -/
def clamp? (low high a : Int64) : Option Int64 :=
  if low ≤ high then some (max low (min a high)) else none

/-- What fits is a word. -/
theorem exists_ofInt? {i : Int} (hlow : -2 ^ 63 ≤ i) (hhigh : i < 2 ^ 63) :
  ∃ a : Int64, ofInt? i = some a ∧ a.toInt = i
  := by
  use .ofInt i
  constructor
  · rw [ofInt?, if_pos]
    rw [Int64.toInt_minValue, Int64.toInt_maxValue]
    omega
  · apply Int64.toInt_ofInt_of_le hlow hhigh

theorem toInt_max (a b : Int64) :
  (max a b).toInt = max a.toInt b.toInt
  := by
  rw [show max a b = if a ≤ b then b else a from rfl, Int.max_def]
  simp only [Int64.le_iff_toInt_le]
  split <;> rfl

theorem toInt_min (a b : Int64) :
  (min a b).toInt = min a.toInt b.toInt
  := by
  rw [show min a b = if a ≤ b then a else b from rfl, Int.min_def]
  simp only [Int64.le_iff_toInt_le]
  split <;> rfl

theorem exists_clamp? {low high : Int64} (h : low ≤ high) (a : Int64) :
  ∃ b, clamp? low high a = some b ∧ b.toInt = max low.toInt (min a.toInt high.toInt)
  := by
  use max low (min a high), if_pos h
  rw [toInt_max, toInt_min]

end Word

/-! ### The range of scores -/

namespace Score

theorem toInt_saturate (i : Int) :
  (saturate i).toInt = max (-2 ^ 31) (min i (2 ^ 31 - 1))
  := by
  rw [saturate, Int32.ofIntClamp]
  split
  · rename_i hlow
    rw [Int32.toInt_minValue] at hlow
    split
    · rename_i hhigh
      rw [Int32.toInt_maxValue] at hhigh
      rw [Int32.toInt_ofIntLE]
      omega
    · rename_i hhigh
      rw [Int32.toInt_maxValue] at hhigh ⊢
      omega
  · rename_i hlow
    rw [Int32.toInt_minValue] at hlow ⊢
    omega

theorem saturate_le_saturate {i j : Int} (h : i ≤ j) :
  saturate i ≤ saturate j
  := by
  rw [Int32.le_iff_toInt_le, toInt_saturate, toInt_saturate]
  omega

theorem saturate_toInt (s : Score) :
  saturate s.toInt = s
  := Int32.ofIntClamp_toInt s

theorem saturate_le {i : Int} {s : Score} (h : i ≤ s.toInt) :
  saturate i ≤ s
  := by
  conv_rhs => rw [← saturate_toInt s]
  apply saturate_le_saturate h

theorem le_saturate {i : Int} {s : Score} (h : s.toInt ≤ i) :
  s ≤ saturate i
  := by
  conv_lhs => rw [← saturate_toInt s]
  apply saturate_le_saturate h

/-- A word that was kept in the range is a score. -/
theorem toInt32_eq_saturate {a : Int64} {i : Int}
    (h : a.toInt = max (-2 ^ 31) (min i (2 ^ 31 - 1))) :
  a.toInt32 = saturate i
  := by
  rw [← Int32.toInt_inj, toInt_saturate, ← h, Int64.toInt_toInt32]
  apply Int.bmod_eq_of_le
  · omega
  · omega

end Score

/-! ### Directional connectives -/

namespace Scoring

variable (w : Scoring)

/-- Into how many parts a score is divided. -/
def parts : Int :=
  max w.termWeight.toInt 1

/-- By how much a directional connective moves a score. -/
def shift (s : Score) : Int :=
  w.directionalStep.toInt * s.toInt.natAbs / w.parts

variable {w}

theorem parts_pos :
  0 < w.parts
  := by
  rw [parts]
  omega

theorem promote_eq (hstep : 0 ≤ w.directionalStep) (s : Score) :
  w.promote s = .saturate (s.toInt + w.shift s)
  := by
  have hproduct : 0 ≤ w.directionalStep.toInt * s.toInt.natAbs :=
    Int.mul_nonneg (Int32.le_iff_toInt_le.mp hstep) (Int.natCast_nonneg _)
  rw [promote, scale, Int.tdiv_eq_ediv_of_nonneg hproduct]
  rfl

/-- A step that is not negative is turned round as a word as it is as a number. -/
theorem toInt_neg_directionalStep (hstep : 0 ≤ w.directionalStep) :
  (-w.directionalStep).toInt = -w.directionalStep.toInt
  := by
  have hle : 0 ≤ w.directionalStep.toInt := Int32.le_iff_toInt_le.mp hstep
  have hlt := w.directionalStep.toInt_lt
  rw [Int32.toInt_neg]
  apply Int.bmod_eq_of_le
  · omega
  · omega

theorem demote_eq (hstep : 0 ≤ w.directionalStep) (s : Score) :
  w.demote s = .saturate (s.toInt - w.shift s)
  := by
  have hproduct : 0 ≤ w.directionalStep.toInt * s.toInt.natAbs :=
    Int.mul_nonneg (Int32.le_iff_toInt_le.mp hstep) (Int.natCast_nonneg _)
  rw [demote, scale, toInt_neg_directionalStep hstep, Int.neg_mul, Int.neg_tdiv,
    Int.tdiv_eq_ediv_of_nonneg hproduct]
  rfl

theorem shift_nonneg (hstep : 0 ≤ w.directionalStep) (s : Score) :
  0 ≤ w.shift s
  := by
  apply Int.ediv_nonneg _ (Int.le_of_lt parts_pos)
  apply Int.mul_nonneg (Int32.le_iff_toInt_le.mp hstep) (Int.natCast_nonneg _)

/-- The shifts of two scores differ by no more than the scores do. -/
theorem shift_le_add (hstep : 0 ≤ w.directionalStep) (hparts : w.directionalStep.toInt ≤ w.parts)
    {s t : Score} (h : s ≤ t) :
  w.shift s ≤ w.shift t + (t.toInt - s.toInt) ∧ w.shift t ≤ w.shift s + (t.toInt - s.toInt)
  := by
  have hle : s.toInt ≤ t.toInt := Int32.le_iff_toInt_le.mp h
  have hstep : 0 ≤ w.directionalStep.toInt := Int32.le_iff_toInt_le.mp hstep
  have hshift : ∀ {m n d : Int}, 0 ≤ d → m ≤ n + d →
      w.directionalStep.toInt * m / w.parts ≤ w.directionalStep.toInt * n / w.parts + d := by
    intro m n d hd hmn
    have hproduct : w.directionalStep.toInt * m ≤ w.directionalStep.toInt * n + w.parts * d := by
      calc w.directionalStep.toInt * m
          ≤ w.directionalStep.toInt * (n + d) := Int.mul_le_mul_of_nonneg_left hmn hstep
        _ = w.directionalStep.toInt * n + w.directionalStep.toInt * d := Int.mul_add ..
        _ ≤ w.directionalStep.toInt * n + w.parts * d :=
          Int.add_le_add_left (Int.mul_le_mul_of_nonneg_right hparts hd) _
    calc w.directionalStep.toInt * m / w.parts
        ≤ (w.directionalStep.toInt * n + w.parts * d) / w.parts :=
          Int.ediv_le_ediv parts_pos hproduct
      _ = w.directionalStep.toInt * n / w.parts + d :=
          Int.add_mul_ediv_left _ _ (Int.ne_of_gt parts_pos)
  constructor
  · apply hshift <;> omega
  · apply hshift <;> omega

theorem one_le_shift_iff {s : Score} :
  1 ≤ w.shift s ↔ w.parts ≤ w.directionalStep.toInt * s.toInt.natAbs
  := by
  rw [shift, Int.le_ediv_iff_mul_le parts_pos, Int.one_mul]

/-- The two ways lead apart unless there is no shift. At an end of the range one of them stays where
it is, but not both. -/
theorem demote_lt_promote_iff (hstep : 0 ≤ w.directionalStep) (s : Score) :
  w.demote s < w.promote s ↔ 1 ≤ w.shift s
  := by
  have hlt := s.toInt_lt
  have hle := s.le_toInt
  rw [demote_eq hstep, promote_eq hstep, Int32.lt_iff_toInt_lt, Score.toInt_saturate,
    Score.toInt_saturate]
  omega

/-- Without a shift a score stays as it is. -/
theorem demote_promote_of_shift (hstep : 0 ≤ w.directionalStep) {s : Score}
    (h : ¬ 1 ≤ w.shift s) :
  w.demote s = s ∧ w.promote s = s
  := by
  have hzero : w.shift s = 0 := Int.le_antisymm (by omega) (shift_nonneg hstep s)
  rw [demote_eq hstep, promote_eq hstep, hzero, Int.sub_zero, Int.add_zero, Score.saturate_toInt]
  exact ⟨rfl, rfl⟩

variable {s t : Score}

theorem demote_le (hstep : 0 ≤ w.directionalStep) (s : Score) :
  w.demote s ≤ s
  := by
  have hshift : 0 ≤ w.shift s := shift_nonneg hstep s
  rw [demote_eq hstep]
  apply Score.saturate_le
  omega

theorem le_promote (hstep : 0 ≤ w.directionalStep) (s : Score) :
  s ≤ w.promote s
  := by
  have hshift : 0 ≤ w.shift s := shift_nonneg hstep s
  rw [promote_eq hstep]
  apply Score.le_saturate
  omega

theorem demote_le_demote (hstep : 0 ≤ w.directionalStep)
    (hparts : w.directionalStep.toInt ≤ w.parts) (h : s ≤ t) :
  w.demote s ≤ w.demote t
  := by
  obtain ⟨-, hshift⟩ := shift_le_add hstep hparts h
  rw [demote_eq hstep, demote_eq hstep]
  apply Score.saturate_le_saturate
  omega

theorem promote_le_promote (hstep : 0 ≤ w.directionalStep)
    (hparts : w.directionalStep.toInt ≤ w.parts) (h : s ≤ t) :
  w.promote s ≤ w.promote t
  := by
  obtain ⟨hshift, -⟩ := shift_le_add hstep hparts h
  rw [promote_eq hstep, promote_eq hstep]
  apply Score.saturate_le_saturate
  omega

/-! ### Words that do not run over -/

variable (w)

/-- Scaling a score, word by word. -/
def scale? (delta : Int32) (score : Score) : Option Score := do
  let size ← Word.abs? score.toInt64
  let product ← Word.mul? delta.toInt64 size
  let quotient ← Word.div? product (max w.termWeight 1).toInt64
  let moved ← Word.add? score.toInt64 quotient
  let kept ← Word.clamp? Int32.minValue.toInt64 Int32.maxValue.toInt64 moved
  return kept.toInt32

/-- Demoting a score, word by word. -/
def demote? (score : Score) : Option Score :=
  if w.directionalStep = Int32.minValue then none else w.scale? (-w.directionalStep) score

/-- Promoting a score, word by word. -/
def promote? (score : Score) : Option Score :=
  w.scale? w.directionalStep score

/-- Lowering the weight of a term, word by word. -/
def escalatedWeight? (weight : Score) (tier : Nat) : Option Score := do
  if weight ≤ 0 ∨ tier = 0 then return weight
  let tier ← Word.ofInt? tier
  let decay := Word.mulClamp w.escalationDecay.toInt64 tier
  let lowered ← Word.sub? weight.toInt64 decay
  let kept ← Word.clamp? 1 weight.toInt64 lowered
  return kept.toInt32

theorem toInt_termWeight_max :
  (max w.termWeight 1).toInt = w.parts
  := by
  rw [show max w.termWeight 1 = if w.termWeight ≤ 1 then 1 else w.termWeight from rfl, parts,
    Int.max_def]
  simp only [Int32.le_iff_toInt_le, Int32.toInt_one]
  split <;> rfl

/-- No word runs over when a score is scaled, whatever the weights are. -/
theorem scale?_eq (delta : Int32) (score : Score) :
  w.scale? delta score = some (w.scale delta.toInt score)
  := by
  have hlt := score.toInt_lt
  have hle := score.le_toInt
  have hproductLe : (delta.toInt * score.toInt.natAbs).natAbs ≤ 2 ^ 31 * 2 ^ 31 := by
    rw [Int.natAbs_mul]
    apply Nat.mul_le_mul
    · have hlt := delta.toInt_lt
      have hle := delta.le_toInt
      omega
    · omega
  have hquotientLe : ((delta.toInt * score.toInt.natAbs).tdiv w.parts).natAbs ≤ 2 ^ 31 * 2 ^ 31 :=
    Nat.le_trans (Int.natAbs_tdiv_le_natAbs _ _) hproductLe
  obtain ⟨size, hsize, hsizeInt⟩ :=
    Word.exists_ofInt? (i := score.toInt.natAbs) (by omega) (by omega)
  obtain ⟨product, hproduct, hproductInt⟩ :=
    Word.exists_ofInt? (i := delta.toInt * score.toInt.natAbs) (by omega) (by omega)
  obtain ⟨quotient, hquotient, hquotientInt⟩ :=
    Word.exists_ofInt? (i := (delta.toInt * score.toInt.natAbs).tdiv w.parts) (by omega) (by omega)
  obtain ⟨moved, hmoved, hmovedInt⟩ :=
    Word.exists_ofInt? (i := score.toInt + (delta.toInt * score.toInt.natAbs).tdiv w.parts)
      (by omega) (by omega)
  have hrange : Int32.minValue.toInt64 ≤ Int32.maxValue.toInt64 := by decide
  obtain ⟨kept, hkept, hkeptInt⟩ := Word.exists_clamp? hrange moved
  have hparts : (max w.termWeight 1).toInt64 ≠ 0 := by
    intro hzero
    have hpos : 0 < w.parts := parts_pos
    rw [← toInt_termWeight_max, ← Int32.toInt_toInt64, hzero] at hpos
    exact absurd hpos (by decide)
  have habs : Word.abs? score.toInt64 = some size := by rw [Word.abs?, Int32.toInt_toInt64, hsize]
  have hmul : Word.mul? delta.toInt64 size = some product := by
    rw [Word.mul?, Int32.toInt_toInt64, hsizeInt, hproduct]
  have hdiv : Word.div? product (max w.termWeight 1).toInt64 = some quotient := by
    rw [Word.div?, if_neg hparts, Int32.toInt_toInt64, toInt_termWeight_max, hproductInt, hquotient]
  have hadd : Word.add? score.toInt64 quotient = some moved := by
    rw [Word.add?, Int32.toInt_toInt64, hquotientInt, hmoved]
  have hresult : kept.toInt32 = w.scale delta.toInt score := by
    apply Score.toInt32_eq_saturate
    rw [hkeptInt, hmovedInt, Int32.toInt_toInt64, Int32.toInt_toInt64, Int32.toInt_minValue,
      Int32.toInt_maxValue]
    rfl
  rw [scale?, ← hresult]
  simp only [Option.bind_eq_bind, Option.bind_eq_some_iff]
  exact ⟨size, habs, product, hmul, quotient, hdiv, moved, hadd, kept, hkept, rfl⟩

theorem demote?_eq (hstep : 0 ≤ w.directionalStep) (score : Score) :
  w.demote? score = some (w.demote score)
  := by
  have hmin : w.directionalStep ≠ Int32.minValue := by
    rintro h
    rw [h] at hstep
    exact absurd hstep (by decide)
  rw [demote?, if_neg hmin, scale?_eq, demote]

/-! ### Escalated weights -/

variable {w} {weight : Score}

theorem escalatedWeight_of_nonpos (h : weight ≤ 0) (tier : Nat) :
  w.escalatedWeight weight tier = weight
  := if_pos (.inl h)

/-- A positive weight is lowered by the decay for each tier, but not below one. -/
theorem toInt_escalatedWeight (h : 0 < weight) (tier : Nat) :
  (w.escalatedWeight weight tier).toInt
    = min (max (weight.toInt - w.escalationDecay.toInt * tier) 1) weight.toInt
  := by
  have hpos : 0 < weight.toInt := Int32.lt_iff_toInt_lt.mp h
  have hlt := weight.toInt_lt
  rw [escalatedWeight]
  by_cases htier : tier = 0
  · rw [if_pos (.inr htier), htier]
    omega
  · rw [if_neg (not_or.mpr ⟨Int32.not_le.mpr h, htier⟩), Score.toInt_saturate]
    omega

theorem escalatedWeight_mem (h : 0 < weight) (tier : Nat) :
  1 ≤ w.escalatedWeight weight tier ∧ w.escalatedWeight weight tier ≤ weight
  := by
  have hpos : 0 < weight.toInt := Int32.lt_iff_toInt_lt.mp h
  rw [Int32.le_iff_toInt_le, Int32.le_iff_toInt_le, toInt_escalatedWeight h, Int32.toInt_one]
  omega

theorem escalatedWeight_le (hdecay : 0 ≤ w.escalationDecay) {tier tier' : Nat}
    (h : tier ≤ tier') :
  w.escalatedWeight weight tier' ≤ w.escalatedWeight weight tier
  := by
  by_cases hweight : weight ≤ 0
  · rw [escalatedWeight_of_nonpos hweight, escalatedWeight_of_nonpos hweight]
    apply Int32.le_refl
  · rw [Int32.not_le] at hweight
    have hlowered : w.escalationDecay.toInt * tier ≤ w.escalationDecay.toInt * tier' :=
      Int.mul_le_mul_of_nonneg_left (Int.ofNat_le.mpr h) (Int32.le_iff_toInt_le.mp hdecay)
    rw [Int32.le_iff_toInt_le, toInt_escalatedWeight hweight, toInt_escalatedWeight hweight]
    omega

/-- No word runs over when a weight is lowered, whatever the decay is. -/
theorem escalatedWeight?_eq (weight : Score) {tier : Nat} (h : tier < 2 ^ 32) :
  w.escalatedWeight? weight tier = some (w.escalatedWeight weight tier)
  := by
  rw [escalatedWeight?]
  by_cases hkeep : weight ≤ 0 ∨ tier = 0
  · rw [if_pos hkeep, escalatedWeight, if_pos hkeep]
    rfl
  · rw [if_neg hkeep]
    obtain ⟨hweight, -⟩ := not_or.mp hkeep
    rw [Int32.not_le] at hweight
    have hpos : 0 < weight.toInt := Int32.lt_iff_toInt_lt.mp hweight
    have hlt := weight.toInt_lt
    have hdecayLe : (w.escalationDecay.toInt * tier).natAbs ≤ 2 ^ 31 * (2 ^ 32 - 1) := by
      rw [Int.natAbs_mul]
      apply Nat.mul_le_mul
      · have hlt := w.escalationDecay.toInt_lt
        have hle := w.escalationDecay.le_toInt
        omega
      · omega
    obtain ⟨word, hword, hwordInt⟩ := Word.exists_ofInt? (i := tier) (by omega) (by omega)
    have hdecay : (Word.mulClamp w.escalationDecay.toInt64 word).toInt
        = w.escalationDecay.toInt * tier := by
      rw [Word.mulClamp, Int32.toInt_toInt64, hwordInt]
      apply Int64.toInt_ofIntClamp
      · rw [Int64.toInt_minValue]
        omega
      · rw [Int64.toInt_maxValue]
        omega
    -- With the lowest decay and the last tier the heaviest term comes to the largest word.
    obtain ⟨lowered, hlowered, hloweredInt⟩ :=
      Word.exists_ofInt? (i := weight.toInt - w.escalationDecay.toInt * tier) (by omega) (by omega)
    have hone : (1 : Int64) ≤ weight.toInt64 := by
      rw [Int64.le_iff_toInt_le, Int32.toInt_toInt64, Int64.toInt_one]
      omega
    obtain ⟨kept, hkept, hkeptInt⟩ := Word.exists_clamp? hone lowered
    have hsub : Word.sub? weight.toInt64 (Word.mulClamp w.escalationDecay.toInt64 word)
        = some lowered := by
      rw [Word.sub?, Int32.toInt_toInt64, hdecay, hlowered]
    have hresult : kept.toInt32 = w.escalatedWeight weight tier := by
      rw [escalatedWeight, if_neg hkeep]
      apply Score.toInt32_eq_saturate
      rw [hkeptInt, hloweredInt, Int32.toInt_toInt64, Int64.toInt_one]
      omega
    rw [← hresult]
    simp only [Option.bind_eq_bind, Option.bind_eq_some_iff]
    exact ⟨word, hword, lowered, hsub, kept, hkept, rfl⟩

end Scoring

/-- Scores that are changed without changing their order keep records in order. -/
theorem RecordSet.descends_mapScores {f : Score → Score} (hf : ∀ s t : Score, s ≤ t → f s ≤ f t)
    {s : RecordSet} (h : Record.Descends Record.byScore s.records) :
  Record.Descends Record.byScore (s.mapScores f).records
  := by
  have hbyScore : ∀ a b : Record, Record.byScore a b ≠ .lt ↔ b.score ≤ a.score := by
    intro a b
    rw [Record.byScore, ne_eq, Std.compare_eq_lt, Int32.not_lt]
  apply List.pairwise_map.mpr
  apply List.Pairwise.imp _ h
  intro a b hab
  rw [hbyScore] at hab ⊢
  apply hf _ _ hab

namespace Scoring

variable (w : Scoring)

/-- Scores are computed without running over and keep their order. If the step of a directional
connective is not negative and not longer than the term weight, no word runs over when a score is
demoted or promoted, a score is demoted to one that is not higher and promoted to one that is not
lower, and of two scores that are moved in the same way neither overtakes the other one, so records
of one side stay in order. Whatever the weights are, no word runs over when the weight of a term is
lowered for a tier below 2³². A positive weight then lies between one and what it was, any other one
is what it was, and if the decay is not negative then later tiers do not weigh more. -/
theorem exact_and_monotone :
  (0 ≤ w.directionalStep → w.directionalStep ≤ max w.termWeight 1 →
    (∀ s : Score, w.demote? s = some (w.demote s) ∧ w.promote? s = some (w.promote s)
      ∧ w.demote s ≤ s ∧ s ≤ w.promote s)
    ∧ (∀ s t : Score, s ≤ t → w.demote s ≤ w.demote t ∧ w.promote s ≤ w.promote t)
    ∧ ∀ s : RecordSet, Record.Descends Record.byScore s.records →
      Record.Descends Record.byScore (s.mapScores w.demote).records
        ∧ Record.Descends Record.byScore (s.mapScores w.promote).records)
  ∧ ∀ (weight : Score) (tier : Nat), tier < 2 ^ 32 →
    w.escalatedWeight? weight tier = some (w.escalatedWeight weight tier)
      ∧ (weight ≤ 0 → w.escalatedWeight weight tier = weight)
      ∧ (0 < weight →
        1 ≤ w.escalatedWeight weight tier ∧ w.escalatedWeight weight tier ≤ weight)
      ∧ (0 ≤ w.escalationDecay → ∀ earlier ≤ tier,
        w.escalatedWeight weight tier ≤ w.escalatedWeight weight earlier)
  := by
  constructor
  · intro hstep hparts
    have hparts : w.directionalStep.toInt ≤ w.parts := by
      rw [← toInt_termWeight_max]
      apply Int32.le_iff_toInt_le.mp hparts
    have hdemote : ∀ s t : Score, s ≤ t → w.demote s ≤ w.demote t :=
      fun _ _ => demote_le_demote hstep hparts
    have hpromote : ∀ s t : Score, s ≤ t → w.promote s ≤ w.promote t :=
      fun _ _ => promote_le_promote hstep hparts
    refine ⟨?_, ?_, ?_⟩
    · intro s
      exact ⟨w.demote?_eq hstep s, w.scale?_eq _ s, demote_le hstep s, le_promote hstep s⟩
    · intro s t h
      exact ⟨hdemote s t h, hpromote s t h⟩
    · intro s h
      exact ⟨RecordSet.descends_mapScores hdemote h, RecordSet.descends_mapScores hpromote h⟩
  · intro weight tier htier
    refine ⟨escalatedWeight?_eq weight htier, ?_, ?_, ?_⟩
    · intro h
      apply escalatedWeight_of_nonpos h
    · intro h
      apply escalatedWeight_mem h
    · intro hdecay earlier h
      apply escalatedWeight_le hdecay h

/-- The longest step, at the ends of the range of scores. With the lowest decay and the last tier the
heaviest term comes to the largest word. -/
theorem exact_and_monotone_extreme :
  let w : Scoring := ⟨3, 3, 1, Int32.minValue⟩
  0 ≤ w.directionalStep ∧ w.directionalStep ≤ max w.termWeight 1
    ∧ w.demote? Int32.minValue = some Int32.minValue ∧ w.promote? Int32.minValue = some 0
    ∧ w.demote Int32.minValue ≤ w.demote (-1) ∧ w.promote (-1) ≤ w.promote 1
    ∧ w.demote (-1) = -2 ∧ w.promote 1 = 2
    ∧ w.escalatedWeight? Int32.maxValue (2 ^ 32 - 1) = some Int32.maxValue
    ∧ 1 ≤ w.escalatedWeight Int32.maxValue (2 ^ 32 - 1)
  := by
  intro w
  have hstep : 0 ≤ w.directionalStep := by decide
  have hparts : w.directionalStep ≤ max w.termWeight 1 := by decide
  obtain ⟨hdirectional, hescalated⟩ := exact_and_monotone w
  obtain ⟨hwords, horder, -⟩ := hdirectional hstep hparts
  obtain ⟨hdemote, hpromote, -⟩ := hwords Int32.minValue
  obtain ⟨hweight, -, hmem, -⟩ := hescalated Int32.maxValue (2 ^ 32 - 1) (by decide)
  have hlowest : w.demote Int32.minValue = Int32.minValue := by decide
  have hzero : w.promote Int32.minValue = 0 := by decide
  have hheaviest : w.escalatedWeight Int32.maxValue (2 ^ 32 - 1) = Int32.maxValue := by decide
  rw [hlowest] at hdemote
  rw [hzero] at hpromote
  rw [hheaviest] at hweight
  refine ⟨hstep, hparts, hdemote, hpromote, (horder _ _ ?_).1, (horder _ _ ?_).2, ?_, ?_, hweight,
    (hmem ?_).1⟩
  all_goals decide

end Scoring

end Retrieval
