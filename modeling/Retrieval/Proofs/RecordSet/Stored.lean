import Retrieval.Proofs.Query.RoundTrip
import Retrieval.Proofs.RecordSet.Walking
import Retrieval.Proofs.Session.Body
import Retrieval.RecordSet.Json

/-!
# Record sets that are stored

The text of a record set tells its shape and its records. The index is built anew when the text is
read, and the cursor is then before the first record. As the index of a set that operations have made
is that of its records, the set that is read differs from the one that was written in its cursor only.
No operation but a step of a walk reads a cursor, and what a step does is to move it. Hence operations
take sets that differ in their cursors only to sets that differ in their cursors only.
-/

namespace Retrieval

open RecordStore (Reachable)

/-! ### Reading back -/

theorem Granularity.ofName?_name (unit : Granularity) :
  Enumeration.ofName? (Enumeration.name unit) = some unit
  := by
  cases unit <;> decide

theorem Shape.written (shape : Shape) :
  Json.Written shape.toJson
  := by
  apply Json.written_record
  simp [Json.written_natural]

/-- A shape is read back, whether it is valid or not. -/
theorem Shape.ofJson?_toJson (shape : Shape) :
  ofJson? shape.toJson = some shape
  := by
  rw [toJson, ofJson?, Json.fields?_record (by simp) (by simp)]
  simp [Enumeration.ofJson?_toJson (Granularity.ofName?_name _)]

namespace RecordSet

theorem written (s : RecordSet) :
  Json.Written s.toJson
  := by
  have hrecords : Json.Written (.array (s.records.map Record.toJson)) := by
    apply Json.Written.array
    intro j hj
    obtain ⟨r, -, rfl⟩ := List.mem_map.mp hj
    apply Record.written
  apply Json.written_record
  simp [s.shape.written, hrecords]

/-- A record set is read back, with its cursor before the first record. -/
theorem ofJson?_toJson (s : RecordSet) :
  ofJson? s.toJson = some s.rewind
  := by
  have hrecords : (Json.array (s.records.map Record.toJson)).list? Record.ofJson?
      = some s.records := Json.list?_array fun r _ => r.ofJson?_toJson
  have hrewind : ofRecords s.shape s.records = s.rewind := rfl
  rw [toJson, ofJson?, Json.fields?_record (by simp) (by simp)]
  simp [Shape.ofJson?_toJson, hrecords, hrewind]

end RecordSet

namespace IndexedSet

/-- The text that is stored of a set. -/
def stored (i : IndexedSet) : String :=
  i.set.toJson.compact

/-- The set that a text writes, with an index that is built anew. -/
def restore? (text : String) : Option IndexedSet := do
  let s ← RecordSet.ofJson? (← Json.parse? text.toList)
  return ⟨s, .ofRecords s.records⟩

/-- A set with the index of its records is restored, with its cursor before the first record. -/
theorem restore?_stored (s : RecordSet) :
  restore? (ofSet s).stored = some (ofSet s).rewind
  := by
  have hparse : Json.parse? (ofSet s).stored.toList = some s.toJson := by
    rw [stored, Json.compact, String.toList_ofList]
    exact s.written.parse?_compactChars
  simp only [restore?, hparse, Option.bind_eq_bind, Option.bind_some, RecordSet.ofJson?_toJson,
    mk_ofRecords]
  rfl

/-! ### Sets that differ in their cursors -/

/-- Two sets that differ in their cursors only. -/
def Alike (i j : IndexedSet) : Prop :=
  i.rewind = j.rewind

/-- What is asked of two sets, other than where their cursors are, has the same answers. -/
structure AnswersAlike (i j : IndexedSet) : Prop where
  shape_eq : i.set.shape = j.set.shape
  records_eq : i.set.records = j.set.records
  get?_eq : ∀ a, i.get? a = j.get? a
  find?_eq : ∀ key, i.find? key = j.find? key
  cleared_eq : RecordStore.cleared i = RecordStore.cleared j
  group_eq : ∀ limit, RecordStore.group limit i = RecordStore.group limit j
  groupBy_eq : ∀ limit direction keyOf,
    RecordStore.groupBy limit direction keyOf i = RecordStore.groupBy limit direction keyOf j

variable {i j : IndexedSet}

theorem Alike.eq_withCursor (h : i.Alike j) :
  j = i.withCursor j.set.cursor
  := by
  have hj : j = j.rewind.withCursor j.set.cursor := rfl
  rw [← (h : i.rewind = j.rewind)] at hj
  exact hj

/-- No answer but that of a step depends on the cursor. -/
theorem Alike.answersAlike (h : i.Alike j) :
  i.AnswersAlike j
  := by
  have hcursor : i.AnswersAlike (i.withCursor j.set.cursor) :=
    ⟨rfl, rfl, fun _ => rfl, fun _ => rfl, rfl, fun _ => rfl, fun _ _ _ => rfl⟩
  rwa [← h.eq_withCursor] at hcursor

theorem rewind_next (i : IndexedSet) :
  i.next.2.rewind = i.rewind
  := by
  obtain ⟨p, r, -, hnext⟩ | hnext := i.next_cases
  · rw [hnext]
    rfl
  · rw [hnext]
    rfl

theorem rewind_add (a : Address) (score : Score) (i : IndexedSet) :
  (i.add a score).rewind = (i.rewind.add a score).rewind
  := by
  have hplace : i.rewind.index (a.project i.rewind.set.shape.unit)
      = i.index (a.project i.set.shape.unit) := rfl
  simp only [add, slot, hplace]
  cases i.index (a.project i.set.shape.unit) <;> rfl

theorem rewind_mergeRecord (i : IndexedSet) (r : Record) :
  (i.mergeRecord r).rewind = i.rewind.mergeRecord r
  := by
  have hplace : i.rewind.index (r.project i.rewind.set.shape.unit)
      = i.index (r.project i.set.shape.unit) := rfl
  simp only [mergeRecord, hplace]
  cases i.index (r.project i.set.shape.unit) <;> rfl

/-- Merging rewinds a set at its end, so it does not matter where the cursor is before. -/
theorem mergeRecords_rewind (records : List Record) (i : IndexedSet) :
  i.rewind.mergeRecords records = i.mergeRecords records
  := by
  have hfold : (records.foldl mergeRecord i).rewind = records.foldl mergeRecord i.rewind :=
    (List.foldl_hom rewind fun j r => (rewind_mergeRecord j r).symm).symm
  change (records.foldl mergeRecord i.rewind).rewind = (records.foldl mergeRecord i).rewind
  rw [← hfold]
  rfl

theorem rewind_retain (p : Record → Bool) (i : IndexedSet) :
  (i.retain p).rewind = (i.rewind.retain p).rewind
  := by
  have hretain : i.rewind.retain p = if (i.set.records.filter p).length < i.set.size
      then i.rewind.replaceRecords (i.set.records.filter p) else i.rewind := rfl
  rw [hretain, retain]
  split <;> rfl

theorem rewind_remains_written (i : IndexedSet) (result : Except Error RecordSet) :
  (remains (i.written result)).rewind = (remains (i.rewind.written result)).rewind
  := by
  cases result <;> rfl

namespace Operation

/-- The operation with its other operand changed by `f`, if it has one. -/
def mapOperand (f : IndexedSet → IndexedSet) : Operation → Operation
  | union t => union (f t)
  | intersect t => intersect (f t)
  | subtract t => subtract (f t)
  | differenceLeft t => differenceLeft (f t)
  | differenceRight t => differenceRight (f t)
  | adjust g t => adjust g (f t)
  | op => op

/-- Two operations that are the same, up to the cursors of their operands. -/
def Alike (op other : Operation) : Prop :=
  op.mapOperand IndexedSet.rewind = other.mapOperand IndexedSet.rewind

theorem alike_mapOperand (h : i.Alike j) (op : Operation) :
  (op.mapOperand fun _ => i).Alike (op.mapOperand fun _ => j)
  := by
  have h' : i.rewind = j.rewind := h
  cases op <;> simp only [Alike, mapOperand, h']

/-- No operation depends on where cursors are, except for where it leaves the cursor. -/
theorem rewind_apply (op : Operation) (i : IndexedSet) :
  (op.apply i).rewind = ((op.mapOperand IndexedSet.rewind).apply i.rewind).rewind
  := by
  cases op with
  | rewind => rfl
  | next => exact (rewind_next i).trans (rewind_next i.rewind).symm
  | add a score => exact rewind_add a score i
  | addPosting p score => exact rewind_add p.toAddress score i
  | insert r => exact congrArg IndexedSet.rewind (mergeRecords_rewind [r] i).symm
  | union t => exact congrArg IndexedSet.rewind (mergeRecords_rewind t.set.records i).symm
  | intersect t =>
    change (mergeRecords _ (i.retain _)).rewind = (mergeRecords _ (i.rewind.retain _)).rewind
    rw [← mergeRecords_rewind, rewind_retain, mergeRecords_rewind]
    rfl
  | subtract t => exact rewind_retain _ i
  | differenceLeft t => exact rewind_retain _ i
  | differenceRight t => exact rewind_retain _ i
  | adjust f t => rfl
  | mapScores f => rfl
  | sort limit direction => rfl
  | sortBy limit direction rank => rfl
  | group limit =>
    change (remains ((groupDocuments limit).run i)).rewind
      = (remains ((groupDocuments limit).run i.rewind)).rewind
    rw [run_groupDocuments_eq_written, run_groupDocuments_eq_written]
    exact rewind_remains_written i _
  | groupBy limit direction keyOf =>
    change (remains ((groupByKey limit direction keyOf).run i)).rewind
      = (remains ((groupByKey limit direction keyOf).run i.rewind)).rewind
    rw [run_groupByKey_eq_written, run_groupByKey_eq_written]
    exact rewind_remains_written i _

theorem Alike.apply {op other : Operation} (hop : op.Alike other) (h : i.Alike j) :
  (op.apply i).Alike (other.apply j)
  := by
  have hop' : op.mapOperand IndexedSet.rewind = other.mapOperand IndexedSet.rewind := hop
  have h' : i.rewind = j.rewind := h
  rw [IndexedSet.Alike, rewind_apply op, rewind_apply other, hop', h']

end Operation

/-- Operations that are the same up to the cursors of their operands take sets that differ in their
cursors only to sets that differ in their cursors only. -/
theorem Alike.run {ops more : List Operation} (hops : List.Forall₂ Operation.Alike ops more)
    (h : i.Alike j) :
  (run ops i).Alike (run more j)
  := by
  induction hops generalizing i j with
  | nil => exact h
  | cons hop _ ih => exact ih (hop.apply h)

/-- Storing a set that operations have made and reading it again changes its cursor only, which is
then before the first record. So the set that is read answers as the one that was stored, also after
further operations on it, and also where it is the other operand of operations on some set. -/
theorem survives_storage (h : Reachable i) (before : List Operation) :
  let j := run before i
  ∃ k, restore? j.stored = some k ∧ k.set.cursor = .start
    ∧ k.index.Exact k.set.records ∧ j.AnswersAlike k ∧ k = j.rewind
    ∧ (∀ op : Operation, (op.mapOperand fun _ => j).Alike (op.mapOperand fun _ => k))
    ∧ ∀ ops more, List.Forall₂ Operation.Alike ops more →
        (run ops j).AnswersAlike (run more k) ∧ ∀ t, (run ops t).AnswersAlike (run more t)
  := by
  intro j
  obtain ⟨s, hs, hj⟩ : ∃ s : RecordSet, s.WellFormed ∧ j = ofSet s :=
    exists_wellFormed_run h before
  have hrestore : restore? j.stored = some j.rewind := by
    rw [hj]
    exact restore?_stored s
  have hexact : j.rewind.index.Exact j.rewind.set.records := by
    rw [hj]
    exact (exact_ofSet hs).1
  have hjk : j.Alike j.rewind := rfl
  refine ⟨j.rewind, hrestore, rfl, hexact, hjk.answersAlike, rfl,
    Operation.alike_mapOperand hjk, ?_⟩
  intro ops more hops
  have hrefl : ∀ t : IndexedSet, t.Alike t := fun _ => rfl
  exact ⟨(hjk.run hops).answersAlike, fun t => ((hrefl t).run hops).answersAlike⟩

/-- Two groups, one under a number and one under bytes, of which the first is walked to before they are
stored. The set that is read has its cursor before them. A hit on it and its union with itself come out
as they do on the set that was stored. -/
theorem survives_storage_groups :
  let i : IndexedSet := ofSet (((RecordSet.empty ⟨.perSection, .perPosition, 1⟩).add
    ⟨.number 7, 1, 4⟩ 5).add ⟨.bytes [97, 255], 2, 9⟩ 3)
  let before : List Operation := [.group 2, .next]
  let j := run before i
  Reachable i ∧ j.set.cursor = .on 0
    ∧ ∃ k, restore? j.stored = some k ∧ k.set.cursor = .start
      ∧ k.set.records = [⟨⟨.number 7, 0, 0⟩, 5, 1, [⟨1, 0, 5⟩]⟩,
        ⟨⟨.bytes [97, 255], 0, 0⟩, 3, 1, [⟨2, 0, 3⟩]⟩]
      ∧ k.find? (.bytes [97, 255]) = some 3
      ∧ (run [.add ⟨.number 7, 3, 0⟩ 1, .union k] k).set.records
        = [⟨⟨.number 7, 0, 0⟩, 11, 3, [⟨1, 0, 5⟩, ⟨3, 0, 1⟩]⟩,
          ⟨⟨.bytes [97, 255], 0, 0⟩, 6, 2, [⟨2, 0, 3⟩, ⟨2, 0, 3⟩]⟩]
  := by
  intro i before j
  have hempty : Reachable (RecordSet.empty ⟨.perSection, .perPosition, 1⟩) :=
    .ofShape (rfl : RecordSet.ofShape ⟨.perSection, .perPosition, 1⟩ = _)
  have hi : Reachable i := reachable_ofSet ((hempty.add _ _).add _ _)
  obtain ⟨k, hrestore, hstart, -, hanswers, -, hoperand, hruns⟩ := survives_storage hi before
  have hops : List.Forall₂ Operation.Alike [.add ⟨.number 7, 3, 0⟩ 1, .union j]
      [.add ⟨.number 7, 3, 0⟩ 1, .union k] :=
    .cons rfl (.cons (hoperand (.union i)) .nil)
  refine ⟨hi, by decide, k, hrestore, hstart, ?_, ?_, ?_⟩
  · rw [← hanswers.records_eq]
    decide
  · rw [← hanswers.find?_eq]
    decide
  · rw [← (hruns _ _ hops).1.records_eq]
    decide

end IndexedSet

end Retrieval
