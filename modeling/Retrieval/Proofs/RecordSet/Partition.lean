import Retrieval.Proofs.RecordSet.Keys
import Retrieval.Proofs.RecordSet.Store
import Mathlib.Data.Set.Card

/-!
# The parts of a union

The records of a union of two sets fall into three parts by their documents: those of the left
set only are what subtracting the right set leaves, those of both sets are their intersection,
and those of the right set only are what subtracting the left set from it leaves. Keeping the
records of some documents may be done before or after merging, which is all that the parts have
in common.
-/

namespace Retrieval

namespace Record

variable {a : Address} {change : Record → Record} {fresh : Record} {records : List Record}
  {p : Key → Bool}

/-- An upsert into a list with one more record in front changes that record if it is the last
one of the address. -/
theorem upsert_cons (r : Record) (records : List Record) :
  upsert a change fresh (r :: records)
    = if r.toAddress = a ∧ a ∉ addresses records then change r :: records
      else r :: upsert a change fresh records
  := by
  rw [upsert, place?]
  cases hp : place? a records with
  | some i =>
    have hmem : a ∈ addresses records := by
      by_contra hn
      rw [place?_eq_none_iff.mpr hn] at hp
      cases hp
    simp [upsert, hp, hmem]
  | none =>
    rw [place?_eq_none_iff] at hp
    by_cases hr : r.toAddress = a
    · simp [hr, hp]
    · simp [upsert, hr, place?_eq_none_iff.mpr hp]

/-- Keeping the records of some documents keeps the addresses of those documents. -/
theorem mem_addresses_filter (hp : p a.key = true) :
  a ∈ addresses (records.filter fun r => p r.key) ↔ a ∈ addresses records
  := by
  constructor
  · intro h
    apply (List.filter_sublist.map _).subset h
  · intro h
    obtain ⟨r, hr, rfl⟩ := List.mem_map.mp h
    apply List.mem_map_of_mem
    apply List.mem_filter.mpr
    use hr, hp

/-- Records of documents that are kept may be upserted before or after the others are left
out. -/
theorem filter_upsert_of_true (hchange : ∀ r, (change r).toAddress = r.toAddress)
    (hfresh : fresh.toAddress = a) (hp : p a.key = true) :
  (upsert a change fresh records).filter (fun r => p r.key)
    = upsert a change fresh (records.filter fun r => p r.key)
  := by
  induction records with
  | nil => simp [upsert, place?, hfresh, hp]
  | cons r records ih =>
    have hmem : a ∈ addresses (records.filter fun r => p r.key) ↔ a ∈ addresses records :=
      mem_addresses_filter hp
    rw [upsert_cons]
    split
    · rename_i h
      obtain ⟨rfl, hn⟩ := h
      rw [List.filter_cons, List.filter_cons, hchange, if_pos hp, if_pos hp, upsert_cons,
        if_pos ⟨rfl, mt hmem.mp hn⟩]
    · rename_i h
      by_cases hr : p r.key = true
      · rw [List.filter_cons, List.filter_cons, if_pos hr, if_pos hr, upsert_cons, ih,
          if_neg (by rwa [hmem])]
      · rw [List.filter_cons, List.filter_cons, if_neg hr, if_neg hr, ih]

/-- Upserting a record of a document that is left out leaves no trace. -/
theorem filter_upsert_of_false (hchange : ∀ r, (change r).toAddress = r.toAddress)
    (hfresh : fresh.toAddress = a) (hp : p a.key = false) :
  (upsert a change fresh records).filter (fun r => p r.key) = records.filter fun r => p r.key
  := by
  induction records with
  | nil => simp [upsert, place?, hfresh, hp]
  | cons r records ih =>
    rw [upsert_cons]
    split
    · rename_i h
      obtain ⟨rfl, -⟩ := h
      rw [List.filter_cons, List.filter_cons, hchange, hp]
      rfl
    · rw [List.filter_cons, List.filter_cons, ih]

theorem filter_mergeRecord (shape : Shape) (records : List Record) (r : Record) :
  (RecordSet.mergeRecord shape records r).filter (fun r => p r.key)
    = if p r.key then RecordSet.mergeRecord shape (records.filter fun r => p r.key) r
      else records.filter fun r => p r.key
  := by
  have hkey : p (r.toAddress.project shape.unit).key = p r.key := by rw [Address.key_project]
  rw [RecordSet.mergeRecord]
  by_cases hp : p r.key = true
  · rw [if_pos hp]
    apply filter_upsert_of_true
    · intro x
      rfl
    · rfl
    · rw [hkey, hp]
  · rw [if_neg hp]
    apply filter_upsert_of_false
    · intro x
      rfl
    · rfl
    · rw [hkey, Bool.eq_false_iff]
      apply hp

/-- The records of some documents after merging are those before merging, with those of the
other records merged. -/
theorem filter_mergeRecords (shape : Shape) (records others : List Record) :
  (others.foldl (RecordSet.mergeRecord shape) records).filter (fun r => p r.key)
    = (others.filter fun r => p r.key).foldl (RecordSet.mergeRecord shape)
        (records.filter fun r => p r.key)
  := by
  induction others generalizing records with
  | nil => rfl
  | cons r others ih =>
    rw [List.foldl_cons, ih, filter_mergeRecord]
    by_cases hp : p r.key = true
    · rw [if_pos hp, List.filter_cons, if_pos hp, List.foldl_cons]
    · rw [if_neg hp, List.filter_cons, if_neg hp]

end Record

namespace Shape.Holds

variable {shape : Shape} {records : List Record}

/-- What a shape holds depends on its granularity and its room only. -/
theorem congr {shape' : Shape} (h : shape.Holds records) (hunit : shape'.unit = shape.unit)
    (hroom : shape'.room = shape.room) :
  shape'.Holds records
  := by
  constructor
  · apply h.distinct
  · rw [hunit]
    apply h.projected
  · rw [hroom]
    apply h.fits

/-- A record that a shape holds is merged as it is where its address is new. -/
theorem mergeRecord_append {r : Record} (h : shape.Holds (records ++ [r])) :
  RecordSet.mergeRecord shape records r = records ++ [r]
  := by
  have hr : r ∈ records ++ [r] := List.mem_append_right _ List.mem_cons_self
  have hnew : r.toAddress ∉ Record.addresses records := by
    have hdistinct := h.distinct
    rw [Record.addresses_append] at hdistinct
    apply List.disjoint_singleton.mp (List.disjoint_of_nodup_append hdistinct)
  rw [RecordSet.mergeRecord, h.projected r hr, List.take_of_length_le (h.fits r hr), Record.upsert,
    Record.place?_eq_none_iff.mpr hnew]

/-- Records that a shape holds are merged one after another as they are. -/
theorem mergeRecords_append {others : List Record} (h : shape.Holds (records ++ others)) :
  others.foldl (RecordSet.mergeRecord shape) records = records ++ others
  := by
  induction others generalizing records with
  | nil => simp
  | cons r others ih =>
    rw [List.append_cons] at h ⊢
    rw [List.foldl_cons, (h.sublist (List.sublist_append_left _ _)).mergeRecord_append, ih h]

end Shape.Holds

namespace RecordSet

instance (s : RecordSet) : DecidablePred (· ∈ s.keys) :=
  fun _ => decidable_of_iff _ Record.mem_keys_iff_hasKey.symm

variable (s t : RecordSet)

theorem decide_mem_keys (key : Key) :
  decide (key ∈ s.keys) = Record.hasKey key s.records
  := by
  rw [Bool.eq_iff_iff, decide_eq_true_iff]
  apply Record.mem_keys_iff_hasKey

theorem finite_keys :
  s.keys.Finite
  := by
  apply (s.records.map fun r => r.key).finite_toSet.subset
  rintro key ⟨r, hr, rfl⟩
  apply List.mem_map_of_mem hr

/-- The records of some documents in a union. -/
theorem filter_union (p : Key → Bool) :
  (s.union t).records.filter (fun r => p r.key)
    = (t.records.filter fun r => p r.key).foldl (mergeRecord s.shape)
        (s.records.filter fun r => p r.key)
  := Record.filter_mergeRecords s.shape s.records t.records

/-! ### The three parts -/

theorem filter_union_left :
  (s.union t).records.filter (fun r => r.key ∉ t.keys) = (s.subtract t).records
  := by
  have hnone : (t.records.filter fun r => decide (r.key ∉ t.keys)) = [] := by
    rw [List.filter_eq_nil_iff]
    intro r hr hn
    exact of_decide_eq_true hn ⟨r, hr, rfl⟩
  rw [filter_union s t fun key => decide (key ∉ t.keys), hnone, subtract, records_retain]
  simp only [decide_not, decide_mem_keys, List.foldl_nil]

theorem filter_union_both :
  (s.union t).records.filter (fun r => r.key ∈ s.keys ∧ r.key ∈ t.keys)
    = (s.intersect t).records
  := by
  have hs : (s.records.filter fun r => decide (r.key ∈ s.keys ∧ r.key ∈ t.keys))
      = s.records.filter fun r => Record.hasKey r.key t.records := by
    apply List.filter_congr
    intro r hr
    have hmem : r.key ∈ s.keys := ⟨r, hr, rfl⟩
    simp only [hmem, true_and, decide_mem_keys]
  have ht : (t.records.filter fun r => decide (r.key ∈ s.keys ∧ r.key ∈ t.keys))
      = t.records.filter fun r => Record.hasKey r.key s.records := by
    apply List.filter_congr
    intro r hr
    have hmem : r.key ∈ t.keys := ⟨r, hr, rfl⟩
    simp only [hmem, and_true, decide_mem_keys]
  rw [filter_union s t fun key => decide (key ∈ s.keys ∧ key ∈ t.keys), hs, ht]
  rfl

theorem filter_union_right (ht : t.WellFormed) (hunit : s.shape.unit = t.shape.unit)
    (hroom : s.shape.room = t.shape.room) :
  (s.union t).records.filter (fun r => r.key ∉ s.keys) = (t.subtract s).records
  := by
  have hnone : (s.records.filter fun r => decide (r.key ∉ s.keys)) = [] := by
    rw [List.filter_eq_nil_iff]
    intro r hr hn
    exact of_decide_eq_true hn ⟨r, hr, rfl⟩
  have hholds : s.shape.Holds ([] ++ t.records.filter fun r => decide (r.key ∉ s.keys)) :=
    (ht.holds.congr hunit hroom).sublist List.filter_sublist
  rw [filter_union s t fun key => decide (key ∉ s.keys), hnone, hholds.mergeRecords_append,
    subtract, records_retain]
  simp only [decide_not, decide_mem_keys, List.nil_append]

/-! ### Differences -/

/-- A document of either set has a record among the shared ones if it is a document of both. -/
theorem hasKey_shared (key : Key) :
  Record.hasKey key (t.records.filter fun r => Record.hasKey r.key s.records)
    = (decide (key ∈ s.keys) && decide (key ∈ t.keys))
  := by
  rw [Bool.eq_iff_iff, ← Record.mem_keys_iff_hasKey, Record.keys_filter_hasKey, Bool.and_eq_true,
    decide_eq_true_iff, decide_eq_true_iff, and_comm]
  rfl

theorem difference_eq :
  s.difference t = (s.subtract t, t.subtract s)
  := by
  have hleft : s.retain (fun r => !Record.hasKey r.key
        (t.records.filter fun r => Record.hasKey r.key s.records)) = s.subtract t := by
    unfold subtract retain
    rw [List.filter_congr]
    intro r hr
    have hmem : r.key ∈ s.keys := ⟨r, hr, rfl⟩
    rw [hasKey_shared, decide_eq_true hmem, Bool.true_and, decide_mem_keys]
  have hright : t.retain (fun r => !Record.hasKey r.key
        (t.records.filter fun r => Record.hasKey r.key s.records)) = t.subtract s := by
    unfold subtract retain
    rw [List.filter_congr]
    intro r hr
    have hmem : r.key ∈ t.keys := ⟨r, hr, rfl⟩
    rw [hasKey_shared, decide_eq_true hmem, Bool.and_true, decide_mem_keys]
  rw [difference, hleft, hright]

/-- What is lost are the records of the shared documents. -/
theorem differenceLoss_eq :
  s.differenceLoss t = (s.records.filter fun r => r.key ∈ t.keys).length
  := by
  have hlength := List.length_eq_length_filter_add (l := s.records) fun r => decide (r.key ∈ t.keys)
  simp only [decide_mem_keys] at hlength ⊢
  rw [differenceLoss, difference_eq, size, size, subtract, records_retain]
  omega

theorem size_difference_add :
  (s.difference t).1.size + s.differenceLoss t = s.size
  := by
  rw [differenceLoss, difference_eq]
  apply Nat.add_sub_cancel'
  rw [size, size, subtract, records_retain]
  apply List.length_filter_le

variable {s t}

/-- The partition law of the algebra of sets that operations have made, at any granularities.
In a union the records of documents without a record in the right set are what subtracting that
set leaves, and those of documents of both sets are the intersection. The documents are counted
by inclusion and exclusion. Where both sets are of one granularity and have equal room, the
records of documents without a record in the left set are what subtracting the left set from
the right one leaves. A difference is made of the two sets that subtracting leaves, and what
the left set loses by it are its records of shared documents. -/
theorem union_partition (ht : RecordStore.Reachable t) :
  (s.union t).records.filter (fun r => r.key ∉ t.keys) = (s.subtract t).records
    ∧ (s.union t).records.filter (fun r => r.key ∈ s.keys ∧ r.key ∈ t.keys)
      = (s.intersect t).records
    ∧ (s.union t).keys = s.keys ∪ t.keys
    ∧ (s.union t).keys.ncard + (s.intersect t).keys.ncard = s.keys.ncard + t.keys.ncard
    ∧ (s.shape.unit = t.shape.unit → s.shape.room = t.shape.room →
      (s.union t).records.filter (fun r => r.key ∉ s.keys) = (t.subtract s).records)
    ∧ s.difference t = (s.subtract t, t.subtract s)
    ∧ (s.subtract t).size + s.differenceLoss t = s.size
    ∧ s.differenceLoss t = (s.records.filter fun r => r.key ∈ t.keys).length
  := by
  refine ⟨filter_union_left s t, filter_union_both s t, keys_union s t, ?_, ?_,
    difference_eq s t, ?_, differenceLoss_eq s t⟩
  · rw [keys_union, keys_intersect]
    apply Set.ncard_union_add_ncard_inter _ _ s.finite_keys t.finite_keys
  · apply filter_union_right s t ht.wellFormed
  · rw [← size_difference_add s t, difference_eq]

/-- Two sets by section that share a document, but no section of it. -/
theorem union_partition_sections :
  ∃ s t : RecordSet, RecordStore.Reachable s ∧ RecordStore.Reachable t
    ∧ Record.addresses (s.union t).records
      = [⟨.number 7, 1, 0⟩, ⟨.number 7, 2, 0⟩, ⟨.number 8, 1, 0⟩, ⟨.number 7, 3, 0⟩,
        ⟨.number 9, 1, 0⟩]
    ∧ Record.addresses (s.intersect t).records
      = [⟨.number 7, 1, 0⟩, ⟨.number 7, 2, 0⟩, ⟨.number 7, 3, 0⟩]
    ∧ (s.union t).records.filter (fun r => r.key ∈ s.keys ∧ r.key ∈ t.keys)
      = (s.intersect t).records
    ∧ (s.union t).records.filter (fun r => r.key ∉ s.keys) = (t.subtract s).records
    ∧ s.differenceLoss t = 2
  := by
  have hsections : ∃ s : RecordSet, ofShape ⟨.perSection, .perPosition, 1⟩ = .ok s :=
    ⟨_, rfl⟩
  obtain ⟨empty, hempty⟩ := hsections
  have hreachable : RecordStore.Reachable empty := .ofShape hempty
  have hs := ((hreachable.add ⟨.number 7, 1, 4⟩ 5).add ⟨.number 7, 2, 9⟩ 3).add ⟨.number 8, 1, 0⟩ 2
  have ht := (hreachable.add ⟨.number 7, 3, 0⟩ 1).add ⟨.number 9, 1, 0⟩ 4
  cases hempty
  obtain ⟨-, hboth, -, -, hright, -, -, hloss⟩ := union_partition (s := _) ht
  exact ⟨_, _, hs, ht, by decide, by decide, hboth, hright rfl rfl, by decide⟩

end RecordSet

end Retrieval
