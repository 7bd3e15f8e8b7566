import Retrieval.Index.Lookup
import Retrieval.Proofs.RecordSet.WellFormed

/-!
# Stores of records

A `RecordStore` has the operations of record sets. The record sets that operations make from
sets without records are the reachable ones. They are well-formed, so that a lookup finds the
only record of an address, and the score of a document is the sum over its records.
-/

namespace Retrieval

/-- What collects scored records at addresses. -/
class RecordStore (σ : Type) where
  ofShape : Shape → Except Error σ
  /-- The store of the same shape without records. -/
  cleared : σ → σ
  add : Address → Score → σ → σ
  insert : Record → σ → σ
  union : σ → σ → σ
  intersect : σ → σ → σ
  subtract : σ → σ → σ
  difference : σ → σ → σ × σ
  adjust : (Score → Score → Score) → σ → σ → σ
  mapScores : (Score → Score) → σ → σ
  sortBy : Nat → Direction → Ranking → σ → σ
  group : Nat → σ → Except Error σ
  groupBy : Nat → Direction → (Record → Option (List UInt8)) → σ → Except Error σ

namespace RecordStore

variable {σ : Type} [RecordStore σ]

/-- The store with one more posting, for which a score has been computed. -/
def addPosting (p : Posting) (score : Score) (s : σ) : σ :=
  add p.toAddress score s

/-- The store in the order of the scores. -/
def sort (limit : Nat) (direction : Direction) (s : σ) : σ :=
  sortBy limit direction Record.byScore s

/-- The stores that operations make from stores without records. The other operand of an
operation may be of any shape. -/
inductive Reachable : σ → Prop where
  | ofShape {shape : Shape} {s : σ} (h : RecordStore.ofShape shape = .ok s) : Reachable s
  | cleared {s : σ} (h : Reachable s) : Reachable (cleared s)
  | add {s : σ} (h : Reachable s) (a : Address) (score : Score) : Reachable (add a score s)
  | addPosting {s : σ} (h : Reachable s) (p : Posting) (score : Score) :
      Reachable (addPosting p score s)
  | insert {s : σ} (h : Reachable s) (r : Record) : Reachable (insert r s)
  | union {s t : σ} (hs : Reachable s) (ht : Reachable t) : Reachable (union s t)
  | intersect {s t : σ} (hs : Reachable s) (ht : Reachable t) : Reachable (intersect s t)
  | subtract {s t : σ} (hs : Reachable s) (ht : Reachable t) : Reachable (subtract s t)
  | differenceLeft {s t : σ} (hs : Reachable s) (ht : Reachable t) :
      Reachable (difference s t).1
  | differenceRight {s t : σ} (hs : Reachable s) (ht : Reachable t) :
      Reachable (difference s t).2
  | adjust {s t : σ} (hs : Reachable s) (ht : Reachable t) (f : Score → Score → Score) :
      Reachable (adjust f s t)
  | mapScores {s : σ} (h : Reachable s) (f : Score → Score) : Reachable (mapScores f s)
  | sort {s : σ} (h : Reachable s) (limit : Nat) (direction : Direction) :
      Reachable (sort limit direction s)
  | sortBy {s : σ} (h : Reachable s) (limit : Nat) (direction : Direction) (rank : Ranking) :
      Reachable (sortBy limit direction rank s)
  | group {s t : σ} (h : Reachable s) {limit : Nat} (ht : group limit s = .ok t) : Reachable t
  | groupBy {s t : σ} (h : Reachable s) {limit : Nat} {direction : Direction}
      {keyOf : Record → Option (List UInt8)} (ht : groupBy limit direction keyOf s = .ok t) :
      Reachable t

end RecordStore

instance : RecordStore RecordSet where
  ofShape := RecordSet.ofShape
  cleared s := .empty s.shape
  add := RecordSet.add
  insert := RecordSet.insert
  union := RecordSet.union
  intersect := RecordSet.intersect
  subtract := RecordSet.subtract
  difference := RecordSet.difference
  adjust := RecordSet.adjust
  mapScores := RecordSet.mapScores
  sortBy := RecordSet.sortBy
  group := RecordSet.group
  groupBy := RecordSet.groupBy

/-- Every set that operations make is well-formed. -/
theorem RecordStore.Reachable.wellFormed {s : RecordSet} (h : Reachable s) :
  s.WellFormed
  := by
  induction h with
  | ofShape h => apply RecordSet.WellFormed.ofShape h
  | cleared _ ih => apply ih.empty
  | add _ a score ih => apply ih.add
  | addPosting _ p score ih => apply ih.add
  | insert _ r ih => apply ih.insert
  | union _ _ ih => apply ih.union
  | intersect _ _ ih => apply ih.intersect
  | subtract _ _ ih => apply ih.subtract
  | differenceLeft _ _ ih => apply ih.retain
  | differenceRight _ _ _ ih => apply ih.retain
  | adjust _ _ f ih => apply ih.adjust
  | mapScores _ f ih => apply ih.mapScores
  | sort _ limit direction ih => apply ih.sortBy
  | sortBy _ limit direction rank ih => apply ih.sortBy
  | group _ ht => apply RecordSet.WellFormed.group ht
  | groupBy _ ht => apply RecordSet.WellFormed.groupBy ht

/-! ### The score of a document -/

namespace Score

theorem zero_plus (s : Score) :
  plus 0 s = s
  := by
  simp [plus, saturate]

/-- The sum of scores from the first to the last, if there are any. -/
def total? : List Score → Option Score
  | [] => none
  | scores => some (scores.foldl plus 0)

theorem foldl_plus (scores : List Score) (total : Score) :
  scores.foldl (fun total s => some ((total.getD 0).plus s)) (some total)
    = some (scores.foldl plus total)
  := by
  induction scores generalizing total with
  | nil => rfl
  | cons s scores ih => apply ih

/-- A sum starts from zero with the first score. -/
theorem total?_eq_foldl (scores : List Score) :
  total? scores = scores.foldl (fun total s => some ((total.getD 0).plus s)) none
  := by
  cases scores with
  | nil => rfl
  | cons s scores => exact (foldl_plus scores (plus 0 s)).symm

theorem total?_singleton (s : Score) :
  total? [s] = some s
  := congrArg some (zero_plus s)

end Score

namespace Record

variable {key : Key} {records : List Record}

/-- The records of a document. -/
def ofKey (key : Key) (records : List Record) : List Record :=
  records.filter fun r => r.key = key

theorem totalScore?_eq (key : Key) (records : List Record) :
  totalScore? key records = Score.total? ((ofKey key records).map score)
  := by
  rw [Score.total?_eq_foldl, List.foldl_map, ofKey, List.foldl_filter]
  simp [totalScore?]

end Record

namespace RecordSet.WellFormed

variable {s : RecordSet}

/-- A lookup finds what going through the records for the projected address finds. -/
theorem get?_eq_find? (h : s.WellFormed) (a : Address) :
  s.get? a = s.records.find? fun r => r.toAddress = a.project s.shape.unit
  := by
  rw [RecordSet.get?]
  cases hfound : s.records.find? fun r => r.toAddress = a.project s.shape.unit with
  | none =>
    rw [List.find?_eq_none] at hfound
    apply Record.get?_eq_none_iff.mpr
    intro hmem
    obtain ⟨r, hr, ha⟩ := List.mem_map.mp hmem
    apply hfound r hr (by simpa using ha)
  | some r =>
    apply (Record.get?_eq_some_iff h.holds.distinct).mpr
    use List.mem_of_find?_eq_some hfound
    simpa using List.find?_some hfound

/-- A record is found at its own address. -/
theorem get?_eq_some_iff (h : s.WellFormed) {a : Address} {r : Record} :
  s.get? a = some r ↔ r ∈ s.records ∧ r.toAddress = a.project s.shape.unit
  := Record.get?_eq_some_iff h.holds.distinct

/-- Where addresses are those of whole documents, a document has at most one record. -/
theorem ofKey_eq (h : s.WellFormed)
    (hunit : ∀ a : Address, a.project s.shape.unit = .ofKey a.key) (key : Key) :
  Record.ofKey key s.records = (s.get? (.ofKey key)).toList
  := by
  have hkey : ∀ r ∈ s.records, r.key = key ↔ r.toAddress = .ofKey key := by
    intro r hr
    rw [← h.holds.projected r hr, hunit]
    simp [Address.ofKey]
  have hfilter : Record.ofKey key s.records
      = s.records.filter fun r => r.toAddress = Address.ofKey key := by
    apply List.filter_congr
    intro r hr
    simp [hkey r hr]
  rw [hfilter, h.get?_eq_find?, hunit]
  apply Record.filter_toAddress_eq h.holds.distinct

/-- The score of a document is the sum over its records. -/
theorem find?_eq_total? (h : s.WellFormed) (key : Key) :
  s.find? key = Score.total? ((Record.ofKey key s.records).map Record.score)
  := by
  have hdocument : (∀ a : Address, a.project s.shape.unit = .ofKey a.key) →
      (s.get? (Address.ofKey key)).map Record.score
        = Score.total? ((Record.ofKey key s.records).map Record.score) := by
    intro hunit
    rw [h.ofKey_eq hunit]
    cases s.get? (Address.ofKey key) with
    | none => rfl
    | some r => exact (Score.total?_singleton r.score).symm
  rw [RecordSet.find?]
  cases hunit : s.shape.unit with
  | perSection => apply Record.totalScore?_eq
  | perPosition => apply Record.totalScore?_eq
  | perDocument => exact hdocument fun a => by rw [hunit]; rfl
  | userDefined => exact hdocument fun a => by rw [hunit]; rfl
  | nothing => exact hdocument fun a => by rw [hunit]; rfl

end RecordSet.WellFormed

end Retrieval
