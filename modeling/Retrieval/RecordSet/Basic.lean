import Retrieval.RecordSet.Shape

/-!
# Record sets

A record set holds scored records in the order in which they came, each at an address
projected to the granularity of the set, and a cursor that walks over them. Sets are joined,
met and subtracted by the documents of their records, and records at one address are merged.
-/

namespace Retrieval

/-! ### Lists of records -/

namespace Record

/-- The place of the last record at an address. -/
def place? (a : Address) : List Record → Option Nat
  | [] => none
  | r :: records =>
    match place? a records with
    | some i => some (i + 1)
    | none => if r.toAddress = a then some 0 else none

/-- Changes the last record at an address by `change`, or puts `fresh` at the end if there is
none. -/
def upsert (a : Address) (change : Record → Record) (fresh : Record) (records : List Record) :
    List Record :=
  match place? a records with
  | some i => records.modify i change
  | none => records ++ [fresh]

/-- The last record at an address. -/
def get? (a : Address) (records : List Record) : Option Record := do
  records[← place? a records]?

/-- Whether a document has a record. -/
def hasKey (key : Key) (records : List Record) : Bool :=
  records.any fun r => r.key = key

/-- The sum of the scores of a document, if it has a record. -/
def totalScore? (key : Key) (records : List Record) : Option Score :=
  records.foldl
    (fun total r => if r.key = key then some ((total.getD 0).plus r.score) else total) none

end Record

/-- Where the cursor of a record set stands: before the first record, on a record, or after the
last one. -/
inductive Cursor where
  | start
  | on (place : Nat)
  | done
deriving DecidableEq, Repr

/-- Scored records in the order in which they came. -/
structure RecordSet where
  shape : Shape
  records : List Record
  cursor : Cursor
deriving DecidableEq, Repr

namespace RecordSet

/-- The set of a shape that holds the given records. -/
def ofRecords (shape : Shape) (records : List Record) : RecordSet :=
  ⟨shape, records, .start⟩

/-- The set of a shape without records. -/
def empty (shape : Shape) : RecordSet :=
  ofRecords shape []

/-- The set of a shape without records, unless the shape can hold none. -/
def ofShape (shape : Shape) : Except Error RecordSet := do
  shape.validate
  return empty shape

/-- The number of records. -/
def size (s : RecordSet) : Nat :=
  s.records.length

/-- Whether the set has no records. -/
def isEmpty (s : RecordSet) : Bool :=
  s.records.isEmpty

/-- The number of parts that each record has room for. -/
def room (s : RecordSet) : Nat :=
  s.shape.room.toNat

/-- The set with other records, and the cursor before the first of them. -/
def withRecords (s : RecordSet) (records : List Record) : RecordSet :=
  ofRecords s.shape records

/-! ### Looking up -/

/-- The record that collects the hits at an address. -/
def get? (s : RecordSet) (a : Address) : Option Record :=
  Record.get? (a.project s.shape.unit) s.records

/-- The score of a document. In a set by section or position it is the sum over its records. -/
def find? (s : RecordSet) (key : Key) : Option Score :=
  match s.shape.unit with
  | .perSection | .perPosition => Record.totalScore? key s.records
  | _ => (s.get? (Address.ofKey key)).map Record.score

/-! ### Walking over the records -/

/-- The set with its cursor before the first record. -/
def rewind (s : RecordSet) : RecordSet :=
  { s with cursor := .start }

/-- Moves the cursor to the next record, and gives that record. -/
def next (s : RecordSet) : Option Record × RecordSet :=
  let place := match s.cursor with
    | .start => some 0
    | .on i => some (i + 1)
    | .done => none
  match place with
  | none => (none, s)
  | some i =>
    match s.records[i]? with
    | some r => (some r, { s with cursor := .on i })
    | none => (none, { s with cursor := .done })

/-- The record the cursor stands on. -/
def current? (s : RecordSet) : Option Record :=
  match s.cursor with
  | .on i => s.records[i]?
  | _ => none

/-! ### Adding hits -/

/-- The set with one more hit. The cursor stays where it is if the hit falls on a record that
is there. -/
def add (a : Address) (score : Score) (s : RecordSet) : RecordSet :=
  let place := a.project s.shape.unit
  let change := Record.addHit .descending s.room ((a.project s.shape.partUnit).part score)
  { s with
    records := Record.upsert place change (change (.ofAddress place 0)) s.records
    cursor := if (Record.place? place s.records).isSome then s.cursor else .start }

/-- The records with the hits of one more record. -/
def mergeRecord (shape : Shape) (records : List Record) (r : Record) : List Record :=
  let place := r.toAddress.project shape.unit
  let fresh := { r with toAddress := place, parts := r.parts.take shape.room.toNat }
  Record.upsert place (Record.merge shape.room.toNat r) fresh records

/-- The set with the hits of one more record. -/
def insert (r : Record) (s : RecordSet) : RecordSet :=
  s.withRecords (mergeRecord s.shape s.records r)

/-! ### Algebra of sets -/

/-- Keeps the records that satisfy `p`. The cursor stays where it is if nothing is removed. -/
def retain (p : Record → Bool) (s : RecordSet) : RecordSet :=
  let kept := s.records.filter p
  if kept.length < s.size then s.withRecords kept else s

/-- The hits of both sets. -/
def union (s t : RecordSet) : RecordSet :=
  s.withRecords (t.records.foldl (mergeRecord s.shape) s.records)

/-- The hits of both sets in the documents that have records in both. -/
def intersect (s t : RecordSet) : RecordSet :=
  let shared := s.records.filter fun r => Record.hasKey r.key t.records
  let added := t.records.filter fun r => Record.hasKey r.key s.records
  s.withRecords (added.foldl (mergeRecord s.shape) shared)

/-- The records of `s` whose documents have no record in `t`. -/
def subtract (s t : RecordSet) : RecordSet :=
  s.retain fun r => !Record.hasKey r.key t.records

/-- Each of the sets without the documents that have records in both. -/
def difference (s t : RecordSet) : RecordSet × RecordSet :=
  let shared := t.records.filter fun r => Record.hasKey r.key s.records
  (s.retain fun r => !Record.hasKey r.key shared, t.retain fun r => !Record.hasKey r.key shared)

/-- How many records the first of two sets loses to their difference. -/
def differenceLoss (s t : RecordSet) : Nat :=
  s.size - (s.difference t).1.size

/-- Scores anew the records whose documents have records in `t`, by `f` of the score of the
record and that of the document in `t`. -/
def adjust (f : Score → Score → Score) (s t : RecordSet) : RecordSet :=
  { s with records := s.records.map fun r =>
      match Record.totalScore? r.key t.records with
      | some penalty => { r with score := f r.score penalty }
      | none => r }

/-- Scores every record anew. -/
def mapScores (f : Score → Score) (s : RecordSet) : RecordSet :=
  { s with records := s.records.map fun r => { r with score := f r.score } }

end RecordSet

end Retrieval
