import Retrieval.Proofs.RecordSet.Upsert
import Retrieval.RecordSet.Order

/-!
# Well-formed record sets

The records of a well-formed set stand at distinct addresses, each of which is projected to the
granularity of the set, and none of them has more parts than there is room for. Every operation
on record sets keeps them well-formed.
-/

namespace Retrieval

/-- What is projected to a granularity lies at it. -/
theorem Address.project_project (a : Address) (unit : Granularity) :
  (a.project unit).project unit = a.project unit
  := by
  cases unit <;> rfl

/-- A part is kept only where there is room for it. -/
theorem Record.length_keep_le {direction : Direction} {room : Nat} {part : Part}
    {parts : List Part} (h : parts.length ≤ room) :
  (keep direction room part parts).length ≤ room
  := by
  unfold keep
  dsimp only
  split
  · apply h
  · apply List.length_take_le

/-- The parts of a merged record fill no more than the room that is left. -/
theorem Record.length_parts_merge_le {room : Nat} {other r : Record}
    (h : r.parts.length ≤ room) :
  (merge room other r).parts.length ≤ room
  := by
  simp only [merge, List.length_append, List.length_take]
  omega

/-- Putting records in order neither loses nor doubles any. -/
theorem Record.perm_inDirection (rank : Ranking) (direction : Direction) (records : List Record) :
  (inDirection rank direction records).Perm records
  := by
  cases direction with
  | descending => apply List.mergeSort_perm
  | ascending => exact (List.reverse_perm _).trans (List.mergeSort_perm _ _)

theorem upTo_sublist {α : Type} (limit : Nat) (l : List α) :
  (upTo limit l).Sublist l
  := by
  rw [upTo]
  split
  · apply List.Sublist.refl
  · apply List.take_sublist

/-- The records that a set of a shape may hold. -/
structure Shape.Holds (shape : Shape) (records : List Record) : Prop where
  distinct : (Record.addresses records).Nodup
  projected : ∀ r ∈ records, r.toAddress.project shape.unit = r.toAddress
  fits : ∀ r ∈ records, r.parts.length ≤ shape.room.toNat

namespace Shape.Holds

variable {shape : Shape} {records : List Record}

theorem nil :
  shape.Holds []
  := by
  constructor <;> simp

theorem sublist {l : List Record} (h : shape.Holds records) (hl : l.Sublist records) :
  shape.Holds l
  := by
  constructor
  · apply (hl.map _).nodup h.distinct
  · intro r hr
    apply h.projected r (hl.subset hr)
  · intro r hr
    apply h.fits r (hl.subset hr)

theorem perm {l : List Record} (h : shape.Holds records) (hl : l.Perm records) :
  shape.Holds l
  := by
  constructor
  · apply (hl.map _).nodup_iff.mpr h.distinct
  · intro r hr
    apply h.projected r (hl.subset hr)
  · intro r hr
    apply h.fits r (hl.subset hr)

/-- What changes neither addresses nor parts may be done to all records. -/
theorem map {f : Record → Record} (h : shape.Holds records)
    (haddress : ∀ r, (f r).toAddress = r.toAddress) (hparts : ∀ r, (f r).parts = r.parts) :
  shape.Holds (records.map f)
  := by
  constructor
  · rw [Record.addresses_map haddress]
    apply h.distinct
  · intro r hr
    obtain ⟨x, hx, rfl⟩ := List.mem_map.mp hr
    rw [haddress]
    apply h.projected x hx
  · intro r hr
    obtain ⟨x, hx, rfl⟩ := List.mem_map.mp hr
    rw [hparts]
    apply h.fits x hx

theorem upsert {a : Address} {change : Record → Record} {fresh : Record}
    (h : shape.Holds records) (hchange : ∀ r, (change r).toAddress = r.toAddress)
    (hroom : ∀ r, r.parts.length ≤ shape.room.toNat →
      (change r).parts.length ≤ shape.room.toNat)
    (hfresh : fresh.toAddress = a) (ha : a.project shape.unit = a)
    (hfits : fresh.parts.length ≤ shape.room.toNat) :
  shape.Holds (Record.upsert a change fresh records)
  := by
  constructor
  · apply Record.nodup_addresses_upsert hchange hfresh h.distinct
  · intro x hx
    rcases Record.mem_upsert hx with hx | ⟨r, hr, -, rfl⟩ | rfl
    · apply h.projected x hx
    · rw [hchange]
      apply h.projected r hr
    · rw [hfresh, ha]
  · intro x hx
    rcases Record.mem_upsert hx with hx | ⟨r, hr, -, rfl⟩ | rfl
    · apply h.fits x hx
    · apply hroom r (h.fits r hr)
    · apply hfits

theorem mergeRecord (h : shape.Holds records) (r : Record) :
  shape.Holds (RecordSet.mergeRecord shape records r)
  := by
  apply h.upsert
  · intro x
    rfl
  · intro x hx
    apply Record.length_parts_merge_le hx
  · rfl
  · apply Address.project_project
  · apply List.length_take_le

/-- The hits of further records are merged one record after another. -/
theorem mergeRecords (h : shape.Holds records) (others : List Record) :
  shape.Holds (others.foldl (RecordSet.mergeRecord shape) records)
  := by
  induction others generalizing records with
  | nil => exact h
  | cons r others ih => apply ih (h.mergeRecord r)

theorem addHit {place : Address} {part : Part} {direction : Direction}
    (h : shape.Holds records) (hplace : place.project shape.unit = place) :
  shape.Holds (Record.upsert place (Record.addHit direction shape.room.toNat part)
    (Record.addHit direction shape.room.toNat part (.ofAddress place 0)) records)
  := by
  apply h.upsert
  · intro x
    rfl
  · intro x hx
    apply Record.length_keep_le hx
  · rfl
  · apply hplace
  · apply Record.length_keep_le
    apply Nat.zero_le

/-- After further records are merged, what is found at an address is the record that was there,
merged with the one of the others. -/
theorem get?_mergeRecords {others : List Record} (h : shape.Holds others) (records : List Record)
    (a : Address) :
  Record.get? a (others.foldl (RecordSet.mergeRecord shape) records)
    = Option.merge (fun r x => Record.merge shape.room.toNat x r) (Record.get? a records)
        (Record.get? a others)
  := by
  induction others generalizing records with
  | nil =>
    have hnone : Record.get? a [] = none := rfl
    rw [List.foldl_nil, hnone]
    cases Record.get? a records <;> rfl
  | cons r others ih =>
    have hr : r.toAddress ∉ Record.addresses others := (List.nodup_cons.mp h.distinct).1
    have hplace : r.toAddress.project shape.unit = r.toAddress := h.projected r List.mem_cons_self
    have hparts : r.parts.take shape.room.toNat = r.parts :=
      List.take_of_length_le (h.fits r List.mem_cons_self)
    have hmerged : Record.get? a (RecordSet.mergeRecord shape records r)
        = if a = r.toAddress
          then some ((Record.get? r.toAddress records).elim r (Record.merge shape.room.toNat r))
          else Record.get? a records := by
      rw [RecordSet.mergeRecord, hplace, hparts]
      apply Record.get?_upsert
      · intro x
        rfl
      · rfl
    rw [List.foldl_cons, ih (h.sublist (List.sublist_cons_self r others)), hmerged,
      Record.get?_cons]
    by_cases ha : a = r.toAddress
    · subst ha
      rw [if_pos rfl, if_pos rfl, Record.get?_eq_none_iff.mpr hr]
      cases Record.get? r.toAddress records <;> rfl
    · rw [if_neg ha, if_neg (Ne.symm ha), Option.or_none]

end Shape.Holds

@[simp]
theorem RecordSet.records_retain (s : RecordSet) (p : Record → Bool) :
  (s.retain p).records = s.records.filter p
  := by
  unfold retain
  dsimp only
  split
  · rfl
  · rename_i hlength
    symm
    apply List.filter_sublist.eq_of_length_le
    apply Nat.le_of_not_lt hlength

@[simp]
theorem RecordSet.shape_retain (s : RecordSet) (p : Record → Bool) :
  (s.retain p).shape = s.shape
  := by
  unfold retain
  dsimp only
  split <;> rfl

/-- A new set is empty, and of a valid shape. -/
theorem RecordSet.ofShape_eq_ok_iff {shape : Shape} {s : RecordSet} :
  ofShape shape = .ok s ↔ shape.validate = .ok () ∧ s = empty shape
  := by
  rw [ofShape]
  cases shape.validate with
  | error e =>
    constructor
    · rintro ⟨⟩
    · rintro ⟨⟨⟩, -⟩
  | ok =>
    constructor
    · rintro ⟨⟩
      exact ⟨rfl, rfl⟩
    · rintro ⟨-, rfl⟩
      rfl

/-- A set that operations may have made. -/
structure RecordSet.WellFormed (s : RecordSet) : Prop where
  valid : s.shape.validate = .ok ()
  holds : s.shape.Holds s.records

namespace RecordSet.WellFormed

variable {s t : RecordSet}

theorem withRecords {records : List Record} (h : s.WellFormed)
    (hrecords : s.shape.Holds records) :
  (s.withRecords records).WellFormed
  := ⟨h.valid, hrecords⟩

theorem empty (h : s.WellFormed) :
  (RecordSet.empty s.shape).WellFormed
  := ⟨h.valid, .nil⟩

theorem ofShape {shape : Shape} (h : RecordSet.ofShape shape = .ok s) :
  s.WellFormed
  := by
  obtain ⟨hvalid, rfl⟩ := ofShape_eq_ok_iff.mp h
  exact ⟨hvalid, .nil⟩

theorem add (h : s.WellFormed) (a : Address) (score : Score) :
  (s.add a score).WellFormed
  := ⟨h.valid, h.holds.addHit (Address.project_project _ _)⟩

theorem insert (h : s.WellFormed) (r : Record) :
  (s.insert r).WellFormed
  := h.withRecords (h.holds.mergeRecord r)

theorem union (h : s.WellFormed) (t : RecordSet) :
  (s.union t).WellFormed
  := h.withRecords (h.holds.mergeRecords t.records)

theorem intersect (h : s.WellFormed) (t : RecordSet) :
  (s.intersect t).WellFormed
  := by
  apply h.withRecords
  apply Shape.Holds.mergeRecords
  apply h.holds.sublist List.filter_sublist

theorem retain (h : s.WellFormed) (p : Record → Bool) :
  (s.retain p).WellFormed
  := by
  unfold RecordSet.retain
  dsimp only
  split
  · apply h.withRecords
    apply h.holds.sublist List.filter_sublist
  · apply h

theorem subtract (h : s.WellFormed) (t : RecordSet) :
  (s.subtract t).WellFormed
  := h.retain _

theorem adjust (h : s.WellFormed) (f : Score → Score → Score) (t : RecordSet) :
  (s.adjust f t).WellFormed
  := by
  use h.valid
  apply h.holds.map
  · intro r
    split <;> rfl
  · intro r
    split <;> rfl

theorem mapScores (h : s.WellFormed) (f : Score → Score) :
  (s.mapScores f).WellFormed
  := ⟨h.valid, h.holds.map (fun _ => rfl) (fun _ => rfl)⟩

theorem sortBy (h : s.WellFormed) (limit : Nat) (direction : Direction) (rank : Ranking) :
  (s.sortBy limit direction rank).WellFormed
  := by
  apply h.withRecords
  apply (h.holds.perm (Record.perm_inDirection rank direction s.records)).sublist
  apply upTo_sublist

/-! ### Groups -/

/-- The shape of groups is a valid one, with room for as many parts as asked for. -/
theorem shape_of_groupedShape {unit partUnit : Granularity} {limit : Nat} {shape : Shape}
    (h : groupedShape unit partUnit limit = .ok shape) :
  shape.validate = .ok () ∧ shape.unit = unit ∧ shape.room.toNat = limit
  := by
  rw [groupedShape] at h
  by_cases hlimit : UInt32.size ≤ limit
  · rw [if_pos hlimit] at h
    cases h
  · rw [if_neg hlimit] at h
    cases hv : (⟨unit, partUnit, UInt32.ofNat limit⟩ : Shape).validate with
    | error e =>
      simp only [hv] at h
      cases h
    | ok =>
      simp only [hv] at h
      cases h
      refine ⟨hv, rfl, ?_⟩
      apply UInt32.toNat_ofNat_of_lt'
      apply Nat.lt_of_not_le hlimit

/-- Groups stand at the addresses of whole documents, which lie at any granularity that does not
tell sections apart. -/
theorem ofGroups {unit partUnit : Granularity} {limit : Nat} {shape : Shape}
    (h : groupedShape unit partUnit limit = .ok shape)
    (hunit : ∀ key, (Address.ofKey key).project unit = .ofKey key) (direction : Direction)
    (keyOf : Record → Option Key) (records : List Record) :
  (ofRecords shape (groups limit direction keyOf records)).WellFormed
  := by
  obtain ⟨hvalid, rfl, rfl⟩ := shape_of_groupedShape h
  use hvalid
  change shape.Holds (groups shape.room.toNat direction keyOf records)
  rw [groups]
  apply List.foldlRecOn (motive := shape.Holds)
  · apply Shape.Holds.nil
  · intro groups h r _
    split
    · apply h
    · apply h.addHit
      apply hunit

theorem group {limit : Nat} (h : s.group limit = .ok t) :
  t.WellFormed
  := by
  rw [RecordSet.group] at h
  dsimp only at h
  split at h
  · cases h
  · cases hshape : groupedShape .perDocument s.shape.unit limit with
    | error e =>
      rw [hshape] at h
      cases h
    | ok shape =>
      rw [hshape] at h
      cases h
      apply ofGroups hshape
      intro key
      rfl

theorem groupBy {limit : Nat} {direction : Direction} {keyOf : Record → Option (List UInt8)}
    (h : s.groupBy limit direction keyOf = .ok t) :
  t.WellFormed
  := by
  rw [RecordSet.groupBy] at h
  cases hshape : groupedShape .userDefined s.shape.unit limit with
  | error e =>
    rw [hshape] at h
    cases h
  | ok shape =>
    rw [hshape] at h
    cases h
    apply sortBy
    apply ofGroups hshape
    intro key
    rfl

end RecordSet.WellFormed

end Retrieval
