import Retrieval.Proofs.RecordSet.Store
import Mathlib.Data.List.Induction

/-!
# Record sets with an index

An `IndexedSet` is a record set that finds its records through an index from addresses to
places. Its operations edit the records and the index side by side: some patch the index, some
build it anew and some leave it alone. `IndexedSet.ofSet` is a record set with the index of its
records, and every operation gives the set that the plain operation gives, with the index of
that set. Hence the index of every set that operations make is exact.
-/

namespace Retrieval

namespace Record

theorem modify_append_singleton (change : Record → Record) (records : List Record) (r : Record) :
  (records ++ [r]).modify records.length change = records ++ [change r]
  := by
  induction records with
  | nil => rfl
  | cons x records ih => simp [ih]

end Record

/-! ### Indices -/

/-- For an address the place of its record, if it has one. -/
abbrev RecordIndex := Address → Option Nat

namespace RecordIndex

def empty : RecordIndex :=
  fun _ => none

/-- The index with a place for an address, instead of the one it had. -/
def put (a : Address) (place : Nat) (index : RecordIndex) : RecordIndex :=
  fun b => if b = a then some place else index b

/-- The index of records, each put in after those before it. -/
def ofRecords (records : List Record) : RecordIndex :=
  records.zipIdx.foldl (fun index (r, i) => index.put r.toAddress i) empty

/-- Putting in a new record at the end of a list gives the index of the longer list. -/
theorem put_length (records : List Record) (r : Record) :
  put r.toAddress records.length (fun a => Record.place? a records)
    = fun a => Record.place? a (records ++ [r])
  := by
  funext a
  rw [Record.place?_append_singleton, put]

theorem ofRecords_eq (records : List Record) :
  ofRecords records = fun a => Record.place? a records
  := by
  induction records using List.reverseRecOn with
  | nil => rfl
  | append_singleton records r ih =>
    rw [← put_length, ← ih]
    simp [ofRecords, List.zipIdx_append]

end RecordIndex

/-! ### Indexed sets -/

/-- A record set and an index. -/
structure IndexedSet where
  set : RecordSet
  index : RecordIndex

namespace IndexedSet

/-- The set with other records, and an index built anew. -/
def replaceRecords (records : List Record) (s : IndexedSet) : IndexedSet :=
  ⟨s.set.withRecords records, .ofRecords records⟩

/-- The place of the record at an address, and the set with a new record there if there was
none. -/
def slot (a : Address) (s : IndexedSet) : Nat × IndexedSet :=
  match s.index a with
  | some i => (i, s)
  | none => (s.set.size,
      ⟨s.set.withRecords (s.set.records ++ [.ofAddress a 0]), s.index.put a s.set.size⟩)

/-- The set with one more hit. -/
def add (a : Address) (score : Score) (s : IndexedSet) : IndexedSet :=
  let place := a.project s.set.shape.unit
  let change :=
    Record.addHit .descending s.set.room ((a.project s.set.shape.partUnit).part score)
  let (i, t) := s.slot place
  { t with set := { t.set with records := t.set.records.modify i change } }

/-- The set with the hits of one more record, and the cursor where it was. -/
def mergeRecord (s : IndexedSet) (r : Record) : IndexedSet :=
  let place := r.toAddress.project s.set.shape.unit
  match s.index place with
  | some i =>
    { s with set := { s.set with records := s.set.records.modify i (.merge s.set.room r) } }
  | none =>
    let fresh := { r with toAddress := place, parts := r.parts.take s.set.room }
    ⟨{ s.set with records := s.set.records ++ [fresh] }, s.index.put place s.set.size⟩

/-- The set with the hits of further records, and the cursor before the first record. -/
def mergeRecords (records : List Record) (s : IndexedSet) : IndexedSet :=
  let merged := records.foldl mergeRecord s
  { merged with set := merged.set.rewind }

/-- Keeps the records that satisfy `p`. The index stays if nothing is removed. -/
def retain (p : Record → Bool) (s : IndexedSet) : IndexedSet :=
  let kept := s.set.records.filter p
  if kept.length < s.set.size then s.replaceRecords kept else s

/-- Each of two sets without the documents of the second one that have records in the first. -/
def difference (s t : IndexedSet) : IndexedSet × IndexedSet :=
  let shared := t.set.records.filter fun r => Record.hasKey r.key s.set.records
  (s.retain fun r => !Record.hasKey r.key shared, t.retain fun r => !Record.hasKey r.key shared)

instance : RecordStore IndexedSet where
  ofShape shape := (RecordSet.ofShape shape).map fun s => ⟨s, .empty⟩
  cleared s := ⟨.empty s.set.shape, .empty⟩
  add := add
  insert r := mergeRecords [r]
  union s t := s.mergeRecords t.set.records
  intersect s t :=
    (s.retain fun r => Record.hasKey r.key t.set.records).mergeRecords
      (t.set.records.filter fun r => Record.hasKey r.key s.set.records)
  subtract s t := s.retain fun r => !Record.hasKey r.key t.set.records
  difference := difference
  adjust f s t := { s with set := s.set.adjust f t.set }
  mapScores f s := { s with set := s.set.mapScores f }
  sortBy limit direction rank s :=
    s.replaceRecords (upTo limit (Record.inDirection rank direction s.set.records))
  group limit s := (s.set.group limit).map fun t => ⟨t, .ofRecords t.records⟩
  groupBy limit direction keyOf s :=
    (s.set.groupBy limit direction keyOf).map fun t => ⟨t, .ofRecords t.records⟩

/-- The record that collects the hits at an address, found through the index. -/
def get? (s : IndexedSet) (a : Address) : Option Record :=
  (s.index (a.project s.set.shape.unit)).bind fun i => s.set.records[i]?

/-- The score of a document. In a set by section or position it is the sum over its records. -/
def find? (s : IndexedSet) (key : Key) : Option Score :=
  match s.set.shape.unit with
  | .perSection | .perPosition => Record.totalScore? key s.set.records
  | _ => (s.get? (.ofKey key)).map Record.score

/-! ### Operations keep the index exact -/

/-- A record set with the index of its records. -/
def ofSet (s : RecordSet) : IndexedSet :=
  ⟨s, fun a => Record.place? a s.records⟩

@[simp]
theorem set_ofSet (s : RecordSet) :
  (ofSet s).set = s
  := rfl

variable (s t : RecordSet)

theorem replaceRecords_ofSet (records : List Record) :
  (ofSet s).replaceRecords records = ofSet (s.withRecords records)
  := by
  rw [replaceRecords, RecordIndex.ofRecords_eq]
  rfl

theorem mk_ofRecords :
  (⟨s, .ofRecords s.records⟩ : IndexedSet) = ofSet s
  := by
  rw [RecordIndex.ofRecords_eq]
  rfl

/-- What keeps the addresses of records may leave the index alone. -/
theorem mk_index_ofSet (h : Record.addresses t.records = Record.addresses s.records) :
  (⟨t, (ofSet s).index⟩ : IndexedSet) = ofSet t
  := by
  simp only [ofSet, IndexedSet.mk.injEq, true_and]
  funext a
  apply Record.place?_congr h.symm

theorem add_ofSet (a : Address) (score : Score) :
  (ofSet s).add a score = ofSet (s.add a score)
  := by
  simp only [add, slot, RecordSet.add, Record.upsert, ofSet]
  cases hp : Record.place? (a.project s.shape.unit) s.records with
  | some i =>
    apply mk_index_ofSet
    apply Record.addresses_modify
    intro r
    rfl
  | none =>
    -- The new record is put in before it is changed, so the index is patched for the former.
    simp only [RecordSet.size, RecordSet.withRecords, RecordSet.ofRecords,
      Record.modify_append_singleton, IndexedSet.mk.injEq]
    refine ⟨rfl, ?_⟩
    apply RecordIndex.put_length _ (Record.addHit _ _ _ (.ofAddress (a.project s.shape.unit) 0))

theorem mergeRecord_ofSet (r : Record) :
  (ofSet s).mergeRecord r
    = ofSet { s with records := RecordSet.mergeRecord s.shape s.records r }
  := by
  simp only [mergeRecord, RecordSet.mergeRecord, Record.upsert, ofSet]
  cases hp : Record.place? (r.toAddress.project s.shape.unit) s.records with
  | some i =>
    apply mk_index_ofSet
    apply Record.addresses_modify
    intro r
    rfl
  | none =>
    simp only [IndexedSet.mk.injEq]
    refine ⟨rfl, ?_⟩
    apply RecordIndex.put_length s.records { r with
      toAddress := r.toAddress.project s.shape.unit
      parts := r.parts.take s.room }

theorem mergeRecords_ofSet (records : List Record) :
  (ofSet s).mergeRecords records
    = ofSet (s.withRecords (records.foldl (RecordSet.mergeRecord s.shape) s.records))
  := by
  have hfold : records.foldl mergeRecord (ofSet s)
      = ofSet { s with records := records.foldl (RecordSet.mergeRecord s.shape) s.records } := by
    induction records generalizing s with
    | nil => rfl
    | cons r records ih => rw [List.foldl_cons, mergeRecord_ofSet, ih, List.foldl_cons]
  rw [mergeRecords, hfold]
  rfl

theorem retain_ofSet (p : Record → Bool) :
  (ofSet s).retain p = ofSet (s.retain p)
  := by
  unfold retain RecordSet.retain
  simp only [set_ofSet, replaceRecords_ofSet]
  split <;> rfl

theorem intersect_ofSet :
  RecordStore.intersect (ofSet s) (ofSet t) = ofSet (s.intersect t)
  := by
  change ((ofSet s).retain _).mergeRecords _ = _
  rw [retain_ofSet, mergeRecords_ofSet]
  simp [RecordSet.withRecords, RecordSet.intersect]

theorem difference_ofSet :
  difference (ofSet s) (ofSet t) = (ofSet (s.difference t).1, ofSet (s.difference t).2)
  := by
  simp only [difference, set_ofSet, retain_ofSet]
  rfl

theorem adjust_ofSet (f : Score → Score → Score) :
  RecordStore.adjust f (ofSet s) (ofSet t) = ofSet (s.adjust f t)
  := by
  apply mk_index_ofSet
  apply Record.addresses_map
  intro r
  split <;> rfl

theorem mapScores_ofSet (f : Score → Score) :
  RecordStore.mapScores f (ofSet s) = ofSet (s.mapScores f)
  := by
  apply mk_index_ofSet
  apply Record.addresses_map
  intro r
  rfl

theorem ofShape_eq (shape : Shape) :
  RecordStore.ofShape shape = (RecordSet.ofShape shape).map ofSet
  := by
  change (RecordSet.ofShape shape).map _ = _
  rw [RecordSet.ofShape]
  cases Shape.validate shape <;> rfl

theorem group_ofSet (limit : Nat) :
  RecordStore.group limit (ofSet s) = (s.group limit).map ofSet
  := by
  change (s.group limit).map (fun t => IndexedSet.mk t (.ofRecords t.records)) = _
  rw [funext mk_ofRecords]

theorem groupBy_ofSet (limit : Nat) (direction : Direction)
    (keyOf : Record → Option (List UInt8)) :
  RecordStore.groupBy limit direction keyOf (ofSet s)
    = (s.groupBy limit direction keyOf).map ofSet
  := by
  change (s.groupBy limit direction keyOf).map (fun t => IndexedSet.mk t (.ofRecords t.records)) = _
  rw [funext mk_ofRecords]

theorem exists_of_map_ofSet_eq_ok {result : Except Error RecordSet} {i : IndexedSet}
    (h : result.map ofSet = .ok i) :
  ∃ t, result = .ok t ∧ i = ofSet t
  := by
  cases result with
  | error e => cases h
  | ok t =>
    cases h
    exact ⟨t, rfl, rfl⟩

end IndexedSet

open RecordStore (Reachable)

/-- What operations make with an index is a set that the plain operations make, with the index
of its records. -/
theorem IndexedSet.exists_reachable {i : IndexedSet} (h : Reachable i) :
  ∃ s : RecordSet, Reachable s ∧ i = ofSet s
  := by
  induction h with
  | ofShape h =>
    rw [ofShape_eq] at h
    obtain ⟨s, hs, rfl⟩ := exists_of_map_ofSet_eq_ok h
    exact ⟨s, .ofShape hs, rfl⟩
  | cleared _ ih =>
    obtain ⟨s, hs, rfl⟩ := ih
    exact ⟨_, hs.cleared, rfl⟩
  | add _ a score ih =>
    obtain ⟨s, hs, rfl⟩ := ih
    exact ⟨_, hs.add a score, add_ofSet s a score⟩
  | addPosting _ p score ih =>
    obtain ⟨s, hs, rfl⟩ := ih
    exact ⟨_, hs.addPosting p score, add_ofSet s p.toAddress score⟩
  | insert _ r ih =>
    obtain ⟨s, hs, rfl⟩ := ih
    exact ⟨_, hs.insert r, mergeRecords_ofSet s [r]⟩
  | union _ _ ihs iht =>
    obtain ⟨s, hs, rfl⟩ := ihs
    obtain ⟨t, ht, rfl⟩ := iht
    exact ⟨_, hs.union ht, mergeRecords_ofSet s t.records⟩
  | intersect _ _ ihs iht =>
    obtain ⟨s, hs, rfl⟩ := ihs
    obtain ⟨t, ht, rfl⟩ := iht
    exact ⟨_, hs.intersect ht, intersect_ofSet s t⟩
  | subtract _ _ ihs iht =>
    obtain ⟨s, hs, rfl⟩ := ihs
    obtain ⟨t, ht, rfl⟩ := iht
    exact ⟨_, hs.subtract ht, retain_ofSet s _⟩
  | differenceLeft _ _ ihs iht =>
    obtain ⟨s, hs, rfl⟩ := ihs
    obtain ⟨t, ht, rfl⟩ := iht
    exact ⟨_, hs.differenceLeft ht, congrArg Prod.fst (difference_ofSet s t)⟩
  | differenceRight _ _ ihs iht =>
    obtain ⟨s, hs, rfl⟩ := ihs
    obtain ⟨t, ht, rfl⟩ := iht
    exact ⟨_, hs.differenceRight ht, congrArg Prod.snd (difference_ofSet s t)⟩
  | adjust _ _ f ihs iht =>
    obtain ⟨s, hs, rfl⟩ := ihs
    obtain ⟨t, ht, rfl⟩ := iht
    exact ⟨_, hs.adjust ht f, adjust_ofSet s t f⟩
  | mapScores _ f ih =>
    obtain ⟨s, hs, rfl⟩ := ih
    exact ⟨_, hs.mapScores f, mapScores_ofSet s f⟩
  | sort _ limit direction ih =>
    obtain ⟨s, hs, rfl⟩ := ih
    exact ⟨_, hs.sort limit direction, replaceRecords_ofSet s _⟩
  | sortBy _ limit direction rank ih =>
    obtain ⟨s, hs, rfl⟩ := ih
    exact ⟨_, hs.sortBy limit direction rank, replaceRecords_ofSet s _⟩
  | group _ ht ih =>
    obtain ⟨s, hs, rfl⟩ := ih
    rw [group_ofSet] at ht
    obtain ⟨t, hgroup, rfl⟩ := exists_of_map_ofSet_eq_ok ht
    exact ⟨t, hs.group hgroup, rfl⟩
  | groupBy _ ht ih =>
    obtain ⟨s, hs, rfl⟩ := ih
    rw [groupBy_ofSet] at ht
    obtain ⟨t, hgroup, rfl⟩ := exists_of_map_ofSet_eq_ok ht
    exact ⟨t, hs.groupBy hgroup, rfl⟩

/-- Every set that the plain operations make is made by the operations with an index as well. -/
theorem IndexedSet.reachable_ofSet {s : RecordSet} (h : Reachable s) :
  Reachable (ofSet s)
  := by
  induction h with
  | ofShape h =>
    apply Reachable.ofShape
    rw [ofShape_eq]
    apply congrArg (Except.map ofSet) h
  | cleared _ ih => exact ih.cleared
  | add _ a score ih => exact add_ofSet _ a score ▸ ih.add a score
  | addPosting _ p score ih => exact add_ofSet _ p.toAddress score ▸ ih.addPosting p score
  | insert _ r ih => exact mergeRecords_ofSet _ [r] ▸ ih.insert r
  | union _ _ ihs iht => exact mergeRecords_ofSet _ _ ▸ ihs.union iht
  | intersect _ _ ihs iht => exact intersect_ofSet _ _ ▸ ihs.intersect iht
  | subtract _ _ ihs iht => exact retain_ofSet _ _ ▸ ihs.subtract iht
  | differenceLeft _ _ ihs iht =>
    have hdifference := ihs.differenceLeft iht
    rwa [show RecordStore.difference (ofSet _) (ofSet _) = _ from difference_ofSet _ _]
      at hdifference
  | differenceRight _ _ ihs iht =>
    have hdifference := ihs.differenceRight iht
    rwa [show RecordStore.difference (ofSet _) (ofSet _) = _ from difference_ofSet _ _]
      at hdifference
  | adjust _ _ f ihs iht => exact adjust_ofSet _ _ f ▸ ihs.adjust iht f
  | mapScores _ f ih => exact mapScores_ofSet _ f ▸ ih.mapScores f
  | sort _ limit direction ih =>
    exact replaceRecords_ofSet _ _ ▸ ih.sort limit direction
  | sortBy _ limit direction rank ih =>
    exact replaceRecords_ofSet _ _ ▸ ih.sortBy limit direction rank
  | group _ ht ih =>
    apply ih.group
    rw [group_ofSet]
    apply congrArg (Except.map ofSet) ht
  | groupBy _ ht ih =>
    apply ih.groupBy
    rw [groupBy_ofSet]
    apply congrArg (Except.map ofSet) ht

/-- An index maps the address of each record to the place of that record, and maps nothing
else. -/
def RecordIndex.Exact (index : RecordIndex) (records : List Record) : Prop :=
  ∀ a i, index a = some i ↔ (records[i]?).map Record.toAddress = some a

/-- What operations make with an index has an exact one, and finds through it what the plain
set finds. -/
theorem IndexedSet.exact_ofSet {s : RecordSet} (h : s.WellFormed) :
  (ofSet s).index.Exact s.records
    ∧ (∀ a, (ofSet s).get? a = s.get? a) ∧ ∀ key, (ofSet s).find? key = s.find? key
  := by
  refine ⟨?_, ?_, ?_⟩
  · intro a i
    apply Record.place?_eq_some_iff h.holds.distinct
  · intro a
    rfl
  · intro key
    cases hunit : s.shape.unit <;> simp [find?, RecordSet.find?, hunit] <;> rfl

/-- Looking up in a set that operations have made finds the only record at the projected address, and
the sum of the scores over the records of a document. -/
theorem IndexedSet.lookups {i : IndexedSet} (h : Reachable i) :
  i.index.Exact i.set.records
    ∧ (∀ a r, i.get? a = some r
      ↔ r ∈ i.set.records ∧ r.toAddress = a.project i.set.shape.unit)
    ∧ ∀ key, i.find? key
      = Score.total? ((i.set.records.filter fun r => r.key = key).map Record.score)
  := by
  obtain ⟨s, hs, rfl⟩ := exists_reachable h
  obtain ⟨hindex, hget, hfind⟩ := exact_ofSet hs.wellFormed
  refine ⟨hindex, ?_, ?_⟩
  · intro a r
    rw [hget]
    apply hs.wellFormed.get?_eq_some_iff
  · intro key
    rw [hfind]
    apply hs.wellFormed.find?_eq_total?

/-- Every set that operations make is of a valid shape, its records stand at distinct addresses
of the granularity of the set and have no more parts than there is room for, and its index is
exact. Hence a lookup finds the only record at the projected address, which is the one that
going through the records finds, and the score of a document is the sum over its records in
their order. The sets without an index that are made by the same operations agree with it. -/
theorem IndexedSet.invariant {i : IndexedSet} (h : Reachable i) :
  i.set.shape.validate = .ok ()
    ∧ (Record.addresses i.set.records).Nodup
    ∧ (∀ r ∈ i.set.records, r.toAddress.project i.set.shape.unit = r.toAddress)
    ∧ i.index.Exact i.set.records
    ∧ (∀ r ∈ i.set.records, r.parts.length ≤ i.set.shape.room.toNat)
    ∧ (∀ a r, i.get? a = some r
        ↔ r ∈ i.set.records ∧ r.toAddress = a.project i.set.shape.unit)
    ∧ (∀ a, i.get? a
        = i.set.records.find? fun r => r.toAddress = a.project i.set.shape.unit)
    ∧ (∀ key, i.find? key
        = Score.total? ((i.set.records.filter fun r => r.key = key).map Record.score))
    ∧ Reachable i.set
    ∧ (∀ a, i.get? a = i.set.get? a)
    ∧ ∀ key, i.find? key = i.set.find? key
  := by
  obtain ⟨s, hs, rfl⟩ := exists_reachable h
  have hwell := hs.wellFormed
  obtain ⟨hindex, hget, hfind⟩ := exact_ofSet hwell
  refine ⟨hwell.valid, hwell.holds.distinct, hwell.holds.projected, hindex, hwell.holds.fits,
    ?_, ?_, ?_, hs, hget, hfind⟩
  · intro a r
    rw [hget]
    apply hwell.get?_eq_some_iff
  · intro a
    rw [hget]
    apply hwell.get?_eq_find?
  · intro key
    rw [hfind]
    apply hwell.find?_eq_total?

/-- Two hits in sections of a document, and their union with the same hits by document. -/
theorem IndexedSet.invariant_union :
  ∃ i : IndexedSet, Reachable i
    ∧ Record.addresses i.set.records = [⟨.number 7, 1, 0⟩, ⟨.number 7, 2, 0⟩, ⟨.number 7, 0, 0⟩]
    ∧ i.index.Exact i.set.records
    ∧ i.find? (.number 7)
      = Score.total? ((i.set.records.filter fun r => r.key = .number 7).map Record.score)
    ∧ (i.find? (.number 7)).map Int32.toInt = some 16
  := by
  let hits (shape : Shape) : IndexedSet :=
    (IndexedSet.add ⟨.number 7, 1, 4⟩ 5 ⟨.empty shape, .empty⟩).add ⟨.number 7, 2, 9⟩ 3
  have hhits : ∀ shape, shape.validate = .ok () → Reachable (hits shape) := by
    intro shape hshape
    apply Reachable.add
    apply Reachable.add
    have hempty : RecordStore.ofShape shape = .ok (⟨.empty shape, .empty⟩ : IndexedSet) := by
      simp only [RecordStore.ofShape, RecordSet.ofShape, hshape]
      rfl
    apply Reachable.ofShape hempty
  have hsections := hhits ⟨.perSection, .perPosition, 1⟩ (by decide)
  have hdocuments := hhits .documents (by decide)
  have h := hsections.union hdocuments
  obtain ⟨-, -, -, hexact, -, -, -, hfind, -⟩ := invariant h
  refine ⟨_, h, ?_, hexact, hfind _, ?_⟩
  · decide
  · decide

end Retrieval
