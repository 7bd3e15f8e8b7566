import Retrieval.Proofs.RecordSet.Groups
import Retrieval.Proofs.RecordSet.Sorting

/-!
# Groups by a derived key

A function derives keys from records. Each key makes one group of the records that give it, and the
groups are put in the order of their scores, so that the limit keeps the best of them. It also says
how many members a group keeps. Any set that operations have made can be grouped in this way, one of
groups again.
-/

namespace Retrieval

theorem Key.bytes_injective :
  Function.Injective Key.bytes
  := fun _ _ => Key.bytes.inj

/-- Ranking by score puts higher scores first. -/
theorem Record.inDirection_byScore (direction : Direction) (records : List Record) :
  inDirection byScore direction records
    = match direction with
      | .descending => records.mergeSort fun a b => b.score ≤ a.score
      | .ascending => (records.mergeSort fun a b => b.score ≤ a.score).reverse
  := by
  have horder : (fun a b => byScore b a != .gt) = fun a b => decide (b.score ≤ a.score) := by
    funext a b
    rw [Bool.eq_iff_iff, bne_iff_ne, decide_eq_true_iff, byScore, ne_eq, Std.compare_eq_gt,
      Int32.not_lt]
  cases direction with
  | descending => rw [inDirection, ranked, horder]
  | ascending => rw [inDirection, ranked, horder]

namespace RecordSet

variable (limit : Nat) (direction : Direction) (keyOf : Record → Option (List UInt8))
  (records : List Record)

theorem filterMap_map_bytes :
  (records.filterMap fun r => (keyOf r).map Key.bytes) = (records.filterMap keyOf).map Key.bytes
  := List.map_filterMap.symm

theorem members_bytes (key : List UInt8) :
  members (fun r => (keyOf r).map Key.bytes) records (.bytes key)
    = records.filter fun r => keyOf r = some key
  := by
  apply List.filter_congr
  intro r _
  cases hr : keyOf r <;> simp [hr]

/-- One group for each derived key, in the order in which the keys come first. -/
theorem groups_bytes_eq :
  groups limit direction (fun r => (keyOf r).map Key.bytes) records
    = (records.filterMap keyOf).eraseDups.map fun key =>
        Record.ofHits direction limit (.ofKey (.bytes key))
          ((records.filter fun r => keyOf r = some key).map fun r => r.toAddress.part r.score)
  := by
  rw [groups_eq, filterMap_map_bytes, eraseDups_map Key.bytes_injective, List.map_map]
  apply List.map_congr_left
  intro key _
  rw [Function.comp_apply, members_bytes]

/-- Every record with a derived key is a member of one group. -/
theorem sum_length_members_bytes :
  ((records.filterMap keyOf).eraseDups.map fun key =>
      (records.filter fun r => keyOf r = some key).length).sum
    = (records.filter fun r => (keyOf r).isSome).length
  := by
  have hsum := sum_length_members (fun r => (keyOf r).map Key.bytes) records
  rw [filterMap_map_bytes, eraseDups_map Key.bytes_injective, List.map_map, List.length_map] at hsum
  simp only [Function.comp_def, members_bytes] at hsum
  rw [hsum, ← List.countP_eq_length_filter]
  apply List.length_filterMap_eq_countP

variable {s : RecordSet}

/-- Groups of a user may lie in any records, so only a limit that cannot be counted is refused. -/
theorem groupBy_eq (hunit : s.shape.unit ≠ .nothing) :
  s.groupBy limit direction keyOf
    = if UInt32.size ≤ limit then .error (.groupLimit limit)
      else .ok (ofRecords ⟨.userDefined, s.shape.unit, UInt32.ofNat limit⟩
        (upTo limit (Record.inDirection Record.byScore direction
          (groups limit direction (fun r => (keyOf r).map Key.bytes) s.records))))
  := by
  have hnests : Shape.nests ⟨.userDefined, s.shape.unit, UInt32.ofNat limit⟩ = true := by
    cases h : s.shape.unit with
    | nothing => exact absurd h hunit
    | perDocument | perSection | perPosition | userDefined => rfl
  rw [groupBy, groupedShape_eq limit (by decide) hnests]
  split <;> rfl

/-- There are no more groups than records. -/
theorem size_groupBy_le {limit : Nat} {direction : Direction}
    {keyOf : Record → Option (List UInt8)} {t : RecordSet} (hunit : s.shape.unit ≠ .nothing)
    (h : s.groupBy limit direction keyOf = .ok t) :
  t.size ≤ s.size
  := by
  rw [groupBy_eq _ _ _ hunit] at h
  split at h
  · cases h
  · cases h
    have hkeys : (s.records.filterMap keyOf).eraseDups.Subperm (s.records.filterMap keyOf) :=
      List.subperm_of_subset (nodup_eraseDups _) fun _ => List.mem_eraseDups.mp
    calc (upTo limit (Record.inDirection Record.byScore direction _)).length
        ≤ (Record.inDirection Record.byScore direction _).length := (upTo_sublist _ _).length_le
      _ = (groups limit direction (fun r => (keyOf r).map Key.bytes) s.records).length :=
        (Record.perm_inDirection _ _ _).length_eq
      _ = (s.records.filterMap keyOf).eraseDups.length := by rw [groups_bytes_eq, List.length_map]
      _ ≤ (s.records.filterMap keyOf).length := hkeys.length_le
      _ ≤ s.records.length := List.length_filterMap_le _ _

/-- A set that can hold records is not of the granularity that holds nothing. -/
theorem WellFormed.unit_ne_nothing (h : s.WellFormed) :
  s.shape.unit ≠ .nothing
  := by
  intro hunit
  have hvalid := h.valid
  rw [Shape.validate, if_pos hunit] at hvalid
  cases hvalid

end RecordSet

/-- Parts are in order if each has a score that may come before those of the next ones. -/
theorem Part.inOrder_eq (direction : Direction) (parts : List Part) :
  inOrder direction parts
    = parts.mergeSort fun p q => match direction with
      | .descending => decide (q.score ≤ p.score)
      | .ascending => decide (p.score ≤ q.score)
  := by
  rw [inOrder]
  congr 1
  funext p q
  rw [Bool.eq_iff_iff, noLater_iff]
  cases direction <;> simp

open RecordStore (Reachable)

namespace IndexedSet

/-! ### Grouping in place -/

/-- Makes the set one of groups under derived keys, at most `limit` of them in the order of their
scores, with at most `limit` parts each. -/
def groupByKey (limit : Nat) (direction : Direction) (keyOf : Record → Option (List UInt8)) :
    EStateM Error IndexedSet Unit := do
  let i ← get
  let groups := RecordSet.groups limit direction (fun r => (keyOf r).map Key.bytes) i.set.records
  regroup .userDefined i.set.shape.unit limit groups
  modify (RecordStore.sort limit direction)

/-- Grouping in place writes what grouping gives, and nothing if grouping fails. -/
theorem run_groupByKey (i : IndexedSet) (limit : Nat) (direction : Direction)
    (keyOf : Record → Option (List UInt8)) :
  (groupByKey limit direction keyOf).run i
    = match i.set.groupBy limit direction keyOf with
      | .error e => .error e i
      | .ok s => .ok () (ofSet s)
  := by
  let groups := RecordSet.groups limit direction (fun r => (keyOf r).map Key.bytes) i.set.records
  have hrun : (groupByKey limit direction keyOf).run i
      = match (regroup .userDefined i.set.shape.unit limit groups).run i with
        | .error e j => .error e j
        | .ok () j => .ok () (RecordStore.sort limit direction j) := by
    change EStateM.bind (regroup _ _ _ _) _ i = _
    rw [EStateM.bind, EStateM.run]
    cases regroup .userDefined i.set.shape.unit limit groups i <;> rfl
  rw [hrun, run_regroup, RecordSet.groupBy]
  cases RecordSet.groupedShape .userDefined i.set.shape.unit limit with
  | error e => rfl
  | ok shape => exact congrArg (EStateM.Result.ok ()) (replaceRecords_ofSet _ _)

variable {i : IndexedSet}

/-- Grouping a set that operations have made by a derived key, in place. Only a limit that cannot be
counted makes it fail, and the set then is what it was. Otherwise there is one group for each key, in
the order in which the keys come first. It adds up the scores of its members from the first to the
last, counts them, and has the first of them in the direction as parts, where those of one score stay
in the order in which they were. The groups are put from the best one to the worst, where those of one
score stay in their order, or in exactly the reverse order if the direction is ascending. The limit
keeps the first of them, and a limit of zero keeps all. The counts do not run over if there are less
than 2³² records, so they add up to the number of records with a key. The result is a set that
operations have made again, with no more records, so all this holds when it is grouped once more. -/
theorem run_groupByKey_eq (h : Reachable i) (hsize : i.set.size < UInt32.size) (limit : Nat)
    (direction : Direction) (keyOf : Record → Option (List UInt8)) :
  let membersOf (key : List UInt8) := i.set.records.filter fun r => keyOf r = some key
  let comesFirst (p q : Part) : Bool := match direction with
    | .descending => q.score ≤ p.score
    | .ascending => p.score ≤ q.score
  let groups : List Record := (i.set.records.filterMap keyOf).eraseDups.map fun key =>
    { toAddress := ⟨.bytes key, 0, 0⟩
      score := ((membersOf key).map Record.score).foldl Score.plus 0
      hits := UInt32.ofNat (membersOf key).length
      parts := (((membersOf key).map fun r =>
        (⟨r.sectionNo, r.position, r.score⟩ : Part)).mergeSort comesFirst).take limit }
  let best := groups.mergeSort fun a b => b.score ≤ a.score
  let ordered := match direction with
    | .descending => best
    | .ascending => best.reverse
  let shape : Shape := ⟨.userDefined, i.set.shape.unit, UInt32.ofNat limit⟩
  let result : Except Error RecordSet :=
    if UInt32.size ≤ limit then .error (.groupLimit limit)
    else .ok ⟨shape, if limit = 0 then ordered else ordered.take limit, .start⟩
  i.set.groupBy limit direction keyOf = result
    ∧ (groupByKey limit direction keyOf).run i = (match result with
      | .error e => .error e i
      | .ok s => .ok () (ofSet s))
    ∧ (limit < UInt32.size → (UInt32.ofNat limit).toNat = limit)
    ∧ (∀ key, (UInt32.ofNat (membersOf key).length).toNat = (membersOf key).length)
    ∧ Record.InRankOrder Record.byScore groups best
    ∧ (ordered.map fun r => r.hits.toNat).sum
      = (i.set.records.filter fun r => (keyOf r).isSome).length
    ∧ ∀ s, result = .ok s → Reachable (ofSet s) ∧ s.size ≤ i.set.size
  := by
  intro membersOf comesFirst groups best ordered shape result
  obtain ⟨s, hs, rfl⟩ := exists_reachable h
  have hgroups : RecordSet.groups limit direction (fun r => (keyOf r).map Key.bytes) s.records
      = groups := by
    rw [RecordSet.groups_bytes_eq]
    simp only [Record.ofHits, Part.inOrder_eq, List.map_map, List.length_map]
    rfl
  have hordered : Record.inDirection Record.byScore direction groups = ordered :=
    Record.inDirection_byScore direction groups
  have hresult : s.groupBy limit direction keyOf = result := by
    rw [RecordSet.groupBy_eq _ _ _ hs.wellFormed.unit_ne_nothing, hgroups, hordered]
    rfl
  have hperm : ordered.Perm groups :=
    hordered ▸ Record.perm_inDirection Record.byScore direction groups
  have hcounted : ∀ key, (UInt32.ofNat (membersOf key).length).toNat = (membersOf key).length := by
    intro key
    apply UInt32.toNat_ofNat_of_lt'
    apply Nat.lt_of_le_of_lt (List.length_filter_le _ _) hsize
  refine ⟨hresult, ?_, UInt32.toNat_ofNat_of_lt', hcounted, ?_, ?_, ?_⟩
  · rw [run_groupByKey, set_ofSet, hresult]
  · apply Record.inRankOrder_iff.mpr
    exact (Record.inDirection_byScore .descending groups).symm
  · rw [(hperm.map _).sum_eq]
    simp only [groups, List.map_map, Function.comp_def, hcounted]
    apply RecordSet.sum_length_members_bytes
  · intro t ht
    have hgroupBy : RecordStore.groupBy limit direction keyOf (ofSet s) = .ok (ofSet t) := by
      rw [groupBy_ofSet, hresult, ht]
      rfl
    use h.groupBy hgroupBy
    exact RecordSet.size_groupBy_le hs.wellFormed.unit_ne_nothing (hresult.trans ht)

/-- Sections grouped by whether their numbers are odd, where one of them has no key, and then all the
groups in one. -/
theorem run_groupByKey_parity :
  let i : IndexedSet := ofSet ((((((RecordSet.empty ⟨.perSection, .nothing, 0⟩).add
    ⟨.number 7, 2, 0⟩ 5).add ⟨.number 8, 1, 0⟩ 5).add ⟨.number 7, 3, 0⟩ 7).add
    ⟨.number 9, 9, 0⟩ 8).add ⟨.number 9, 4, 0⟩ 1)
  let parity (r : Record) : Option (List UInt8) :=
    if r.sectionNo < 9 then some [r.sectionNo.toUInt8 % 2] else none
  let once : RecordSet := ⟨⟨.userDefined, .perSection, 2⟩,
    [⟨⟨.bytes [1], 0, 0⟩, 12, 2, [⟨3, 0, 7⟩, ⟨1, 0, 5⟩]⟩,
      ⟨⟨.bytes [0], 0, 0⟩, 6, 2, [⟨2, 0, 5⟩, ⟨4, 0, 1⟩]⟩], .start⟩
  let twice : RecordSet := ⟨⟨.userDefined, .userDefined, 1⟩,
    [⟨⟨.bytes [], 0, 0⟩, 18, 2, [⟨0, 0, 6⟩]⟩], .start⟩
  Reachable i ∧ i.set.size < UInt32.size
    ∧ (groupByKey 2 .descending parity).run i = .ok () (ofSet once)
    ∧ Reachable (ofSet once)
    ∧ (groupByKey 1 .ascending fun _ => some []).run (ofSet once) = .ok () (ofSet twice)
    ∧ (groupByKey UInt32.size .descending parity).run i = .error (.groupLimit UInt32.size) i
  := by
  intro i parity once twice
  have hempty : Reachable (RecordSet.empty ⟨.perSection, .nothing, 0⟩) :=
    .ofShape (rfl : RecordSet.ofShape ⟨.perSection, .nothing, 0⟩ = _)
  have hi : Reachable i :=
    reachable_ofSet (((((hempty.add _ _).add _ _).add _ _).add _ _).add _ _)
  have hsize : i.set.size < UInt32.size := by decide
  have honce : i.set.groupBy 2 .descending parity = .ok once := by
    rw [RecordSet.groupBy_eq _ _ _ (by decide), Record.inDirection, Record.ranked_eq_insertionSort]
    decide
  have htwice : once.groupBy 1 .ascending (fun _ => some []) = .ok twice := by
    rw [RecordSet.groupBy_eq _ _ _ (by decide), Record.inDirection, Record.ranked_eq_insertionSort]
    decide
  obtain ⟨hgroup, hrun, -, -, -, -, hagain⟩ := run_groupByKey_eq hi hsize 2 .descending parity
  obtain ⟨-, hfails, -⟩ := run_groupByKey_eq hi hsize UInt32.size .descending parity
  rw [← hgroup, honce] at hrun
  obtain ⟨hreachable, -⟩ := hagain once (hgroup.symm.trans honce)
  obtain ⟨hgroup', hrun', -⟩ :=
    run_groupByKey_eq hreachable (by decide) 1 .ascending fun _ => some []
  rw [← hgroup', set_ofSet, htwice] at hrun'
  exact ⟨hi, hsize, hrun, hreachable, hrun', hfails⟩

end IndexedSet

end Retrieval
