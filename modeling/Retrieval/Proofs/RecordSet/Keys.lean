import Retrieval.Proofs.RecordSet.WellFormed
import Mathlib.Data.Set.Insert

/-!
# The documents of a record set

The algebra of record sets is the algebra of the sets of their documents, at any granularity
and for any records.
-/

namespace Retrieval

@[simp]
theorem Address.key_project (a : Address) (unit : Granularity) :
  (a.project unit).key = a.key
  := by
  cases unit <;> rfl

/-! ### The documents of records -/

namespace Record

/-- The documents that have records. -/
def keys (records : List Record) : Set Key :=
  {key | ∃ r ∈ records, r.key = key}

variable {key : Key} {records : List Record}

theorem mem_keys_iff_hasKey :
  key ∈ keys records ↔ hasKey key records = true
  := by
  simp [keys, hasKey]

theorem mem_keys_iff_addresses :
  key ∈ keys records ↔ ∃ a ∈ addresses records, a.key = key
  := by
  simp [keys, addresses]

@[simp]
theorem keys_nil :
  keys [] = ∅
  := by
  ext key
  simp [keys]

theorem keys_cons (r : Record) (records : List Record) :
  keys (r :: records) = insert r.key (keys records)
  := by
  ext key
  simp [keys, eq_comm]

theorem keys_eq_empty_iff :
  keys records = ∅ ↔ records = []
  := by
  cases records with
  | nil => simp
  | cons r records =>
    rw [keys_cons]
    simpa using Set.insert_nonempty r.key (keys records) |>.ne_empty

/-- An upsert at an address adds its document. -/
theorem keys_upsert {a : Address} {change : Record → Record} {fresh : Record}
    (hchange : ∀ r, (change r).toAddress = r.toAddress) (hfresh : fresh.toAddress = a) :
  keys (upsert a change fresh records) = insert a.key (keys records)
  := by
  ext key
  rw [mem_keys_iff_addresses, addresses_upsert hchange hfresh, Set.mem_insert_iff,
    mem_keys_iff_addresses]
  split
  · constructor
    · exact .inr
    · rintro (rfl | h)
      · exact ⟨a, by assumption, rfl⟩
      · apply h
  · simp [or_and_right, exists_or, or_comm, eq_comm]

theorem keys_map {f : Record → Record} (hf : ∀ r, (f r).toAddress = r.toAddress) :
  keys (records.map f) = keys records
  := by
  ext key
  rw [mem_keys_iff_addresses, mem_keys_iff_addresses, addresses_map hf]

/-- Keeping the records whose documents are among others meets the documents. -/
theorem keys_filter_hasKey (records others : List Record) :
  keys (records.filter fun r => hasKey r.key others) = keys records ∩ keys others
  := by
  ext key
  rw [Set.mem_inter_iff, (mem_keys_iff_hasKey : key ∈ keys others ↔ _)]
  constructor
  · rintro ⟨r, hr, rfl⟩
    obtain ⟨hr, hothers⟩ := List.mem_filter.mp hr
    exact ⟨⟨r, hr, rfl⟩, hothers⟩
  · rintro ⟨⟨r, hr, rfl⟩, hothers⟩
    exact ⟨r, List.mem_filter.mpr ⟨hr, hothers⟩, rfl⟩

/-- Keeping the records whose documents are not among others subtracts the documents. -/
theorem keys_filter_not_hasKey (records others : List Record) :
  keys (records.filter fun r => !hasKey r.key others) = keys records \ keys others
  := by
  ext key
  rw [Set.mem_sdiff, (mem_keys_iff_hasKey : key ∈ keys others ↔ _)]
  constructor
  · rintro ⟨r, hr, rfl⟩
    obtain ⟨hr, hothers⟩ := List.mem_filter.mp hr
    exact ⟨⟨r, hr, rfl⟩, by simpa using hothers⟩
  · rintro ⟨⟨r, hr, rfl⟩, hothers⟩
    exact ⟨r, List.mem_filter.mpr ⟨hr, by simpa using hothers⟩, rfl⟩

theorem keys_mergeRecord (shape : Shape) (records : List Record) (r : Record) :
  keys (RecordSet.mergeRecord shape records r) = insert r.key (keys records)
  := by
  rw [← Address.key_project r.toAddress shape.unit]
  apply keys_upsert
  · intro x
    rfl
  · rfl

/-- Merging further records joins the documents. -/
theorem keys_mergeRecords (shape : Shape) (records others : List Record) :
  keys (others.foldl (RecordSet.mergeRecord shape) records) = keys records ∪ keys others
  := by
  induction others generalizing records with
  | nil => simp
  | cons r others ih =>
    rw [List.foldl_cons, ih, keys_mergeRecord, keys_cons, Set.insert_union, Set.union_insert]

end Record

/-! ### The documents of sets -/

namespace RecordSet

/-- The documents that have records in a set. -/
def keys (s : RecordSet) : Set Key :=
  Record.keys s.records

theorem isEmpty_iff_keys_eq_empty {s : RecordSet} :
  s.isEmpty = true ↔ s.keys = ∅
  := by
  rw [keys, Record.keys_eq_empty_iff, isEmpty, List.isEmpty_iff]

@[simp]
theorem keys_empty (shape : Shape) :
  (empty shape).keys = ∅
  := Record.keys_nil

variable (s t : RecordSet)

theorem keys_add (a : Address) (score : Score) :
  (s.add a score).keys = {a.key} ∪ s.keys
  := by
  rw [Set.singleton_union, ← Address.key_project a s.shape.unit]
  apply Record.keys_upsert
  · intro r
    rfl
  · rfl

theorem keys_union :
  (s.union t).keys = s.keys ∪ t.keys
  := Record.keys_mergeRecords s.shape s.records t.records

theorem keys_intersect :
  (s.intersect t).keys = s.keys ∩ t.keys
  := by
  change Record.keys (List.foldl _ _ _) = _
  rw [Record.keys_mergeRecords, Record.keys_filter_hasKey, Record.keys_filter_hasKey,
    Set.inter_comm (Record.keys t.records), Set.union_self]
  rfl

theorem keys_subtract :
  (s.subtract t).keys = s.keys \ t.keys
  := by
  rw [keys, subtract, records_retain]
  apply Record.keys_filter_not_hasKey

theorem keys_adjust (f : Score → Score → Score) :
  (s.adjust f t).keys = s.keys
  := by
  apply Record.keys_map
  intro r
  split <;> rfl

theorem keys_mapScores (f : Score → Score) :
  (s.mapScores f).keys = s.keys
  := by
  apply Record.keys_map
  intro r
  rfl

end RecordSet

end Retrieval
