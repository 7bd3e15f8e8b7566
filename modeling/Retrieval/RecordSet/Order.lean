import Retrieval.RecordSet.Basic

/-!
# Sorting and grouping

The records of a set are put in order by a ranking, and records are folded into groups: one
for each document, or one for each key that a function derives from a record.
-/

namespace Retrieval

/-- Compares two records: `.gt` means that the first one ranks above the second one. -/
abbrev Ranking := Record → Record → Ordering

/-- The records from the highest rank to the lowest, those of one rank in the order in which
they were. -/
def Record.ranked (rank : Ranking) (records : List Record) : List Record :=
  records.mergeSort fun a b => rank b a != .gt

/-- The records in a direction. Ascending order is the reverse of descending order. -/
def Record.inDirection (rank : Ranking) (direction : Direction) (records : List Record) :
    List Record :=
  match direction with
  | .descending => ranked rank records
  | .ascending => (ranked rank records).reverse

/-- Ranks records by their scores. -/
def Record.byScore : Ranking :=
  fun a b => compare a.score b.score

/-- The first `limit` elements of a list, or all of them if `limit` is zero. -/
def upTo {α : Type} (limit : Nat) (l : List α) : List α :=
  if limit = 0 then l else l.take limit

namespace RecordSet

/-- The set in the order of a ranking, of which at most `limit` records are kept. -/
def sortBy (limit : Nat) (direction : Direction) (rank : Ranking) (s : RecordSet) : RecordSet :=
  s.withRecords (upTo limit (Record.inDirection rank direction s.records))

/-- The set in the order of the scores. -/
def sort (limit : Nat) (direction : Direction) (s : RecordSet) : RecordSet :=
  s.sortBy limit direction Record.byScore

/-- One group for each key that `keyOf` gives to records, in the order in which the keys come
first. A group counts its records, and keeps at most `limit` of them as parts. -/
def groups (limit : Nat) (direction : Direction) (keyOf : Record → Option Key)
    (records : List Record) : List Record :=
  records.foldl
    (fun groups r =>
      match keyOf r with
      | none => groups
      | some key =>
        let change := Record.addHit direction limit (r.toAddress.part r.score)
        let place := Address.ofKey key
        Record.upsert place change (change (.ofAddress place 0)) groups)
    []

/-- The shape of a set of groups with at most `limit` parts each. -/
def groupedShape (unit partUnit : Granularity) (limit : Nat) : Except Error Shape := do
  if UInt32.size ≤ limit then throw (.groupLimit limit)
  let shape : Shape := ⟨unit, partUnit, UInt32.ofNat limit⟩
  shape.validate
  return shape

/-- One record for each document, with at most `limit` of its sections or positions as parts. -/
def group (limit : Nat) (s : RecordSet) : Except Error RecordSet := do
  let unit := s.shape.unit
  if unit ≠ .perSection ∧ unit ≠ .perPosition then throw (.notGroupable unit)
  let shape ← groupedShape .perDocument unit limit
  return ofRecords shape (groups limit .descending (fun r => some r.key) s.records)

/-- One record for each key that `keyOf` derives, at most `limit` of them in the order of their
scores, with at most `limit` parts each. -/
def groupBy (limit : Nat) (direction : Direction) (keyOf : Record → Option (List UInt8))
    (s : RecordSet) : Except Error RecordSet := do
  let shape ← groupedShape .userDefined s.shape.unit limit
  let records := groups limit direction (fun r => (keyOf r).map Key.bytes) s.records
  return (ofRecords shape records).sort limit direction

end RecordSet

end Retrieval
