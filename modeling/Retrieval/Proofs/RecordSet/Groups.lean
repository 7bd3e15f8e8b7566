import Mathlib.Algebra.BigOperators.Group.List.Lemmas
import Retrieval.Proofs.RecordSet.Hits
import Retrieval.Proofs.RecordSet.Indexed
import Retrieval.Proofs.RecordSet.Scores

/-!
# Groups of records

Folding records into groups makes one group for each key that the records give, in the order in
which the keys come first. Its members are the records that give that key, and each of them falls on
the group as a hit does. So every record with a key is counted in exactly one group.

A set is grouped in place, in steps that may fail. The groups and their shape are made and checked
before anything is written, so that a failure leaves the set as it was.
-/

namespace Retrieval

section firstOccurrences

variable {α β : Type}

theorem eraseDups_map [BEq α] [LawfulBEq α] [BEq β] [LawfulBEq β] {f : α → β}
    (hf : Function.Injective f) (l : List α) :
  (l.map f).eraseDups = l.eraseDups.map f
  := by
  induction l using List.reverseRecOn with
  | nil => rfl
  | append_singleton l b ih =>
    rw [List.map_append, List.map_singleton]
    by_cases hb : b ∈ l
    · rw [Record.eraseDups_append_of_mem (List.mem_map_of_mem hb),
        Record.eraseDups_append_of_mem hb, ih]
    · have hfb : f b ∉ l.map f := fun h => hb ((List.mem_map_of_injective hf).mp h)
      rw [eraseDups_append_of_notMem hfb, eraseDups_append_of_notMem hb, ih, List.map_append,
        List.map_singleton]

/-- Each element of a list is counted once, with those that are equal to it. -/
theorem sum_count_eraseDups [DecidableEq α] (l : List α) :
  (l.eraseDups.map fun a => l.count a).sum = l.length
  := by
  have hperm : l.eraseDups.Perm l.dedup := by
    apply (List.perm_ext_iff_of_nodup (nodup_eraseDups l) (List.nodup_dedup l)).mpr
    intro a
    rw [List.mem_eraseDups, List.mem_dedup]
  rw [(hperm.map _).sum_eq, List.sum_map_count_dedup_eq_length]

end firstOccurrences

/-! ### Members of groups -/

namespace RecordSet

variable (limit : Nat) (direction : Direction) (keyOf : Record → Option Key)
  (records : List Record)

/-- The records that give a key. -/
def members (key : Key) : List Record :=
  records.filter fun r => keyOf r = some key

theorem members_some (f : Record → Key) (key : Key) :
  members (fun r => some (f r)) records key = records.filter fun r => f r = key
  := by
  simp only [members, Option.some.injEq]

/-- The groups are what collecting the records as hits at the addresses of their keys makes. -/
theorem groups_eq_collected :
  groups limit direction keyOf records
    = Record.collected (fun h : Key × Record => Address.ofKey h.1)
      (fun h => h.2.toAddress.part h.2.score) direction limit
      (records.filterMap fun r => (keyOf r).map fun key => (key, r))
  := by
  rw [← Record.foldl_addHit, List.foldl_filterMap, groups]
  congr 1
  funext groups r
  cases keyOf r <;> rfl

theorem partsAt_ofKey (key : Key) :
  Record.partsAt (fun h : Key × Record => Address.ofKey h.1)
      (fun h => h.2.toAddress.part h.2.score)
      (records.filterMap fun r => (keyOf r).map fun key => (key, r)) (.ofKey key)
    = (members keyOf records key).map fun r => r.toAddress.part r.score
  := by
  have hkey : ∀ k, Address.ofKey k = .ofKey key ↔ k = key :=
    fun k => ⟨Record.ofKey_injective, congrArg Address.ofKey⟩
  simp only [Record.partsAt, members, hkey]
  induction records with
  | nil => rfl
  | cons r records ih =>
    cases hr : keyOf r with
    | none => simpa [hr] using ih
    | some k => by_cases hk : k = key <;> simp [hr, hk, ih]

/-- One group for each key, in the order in which the keys come first. The members of the group fall
on it as hits do. -/
theorem groups_eq :
  groups limit direction keyOf records
    = (records.filterMap keyOf).eraseDups.map fun key =>
        Record.ofHits direction limit (.ofKey key)
          ((members keyOf records key).map fun r => r.toAddress.part r.score)
  := by
  have hkeys : (records.filterMap fun r => (keyOf r).map fun key => (key, r)).map
        (fun h => Address.ofKey h.1)
      = (records.filterMap keyOf).map Address.ofKey := by
    rw [List.map_filterMap, List.map_filterMap]
    congr 1
    funext r
    cases keyOf r <;> rfl
  rw [groups_eq_collected, Record.collected, hkeys, eraseDups_map fun _ _ => Record.ofKey_injective,
    List.map_map]
  apply List.map_congr_left
  intro key _
  rw [Function.comp_apply, partsAt_ofKey]

/-- Every record with a key is a member of one group. -/
theorem sum_length_members :
  ((records.filterMap keyOf).eraseDups.map fun key => (members keyOf records key).length).sum
    = (records.filterMap keyOf).length
  := by
  have hcount : ∀ key, (members keyOf records key).length = (records.filterMap keyOf).count key := by
    intro key
    simp only [members, List.count_filterMap, List.countP_eq_length_filter, beq_eq_decide]
  simp only [hcount]
  apply sum_count_eraseDups

end RecordSet

/-- In descending order the parts of hits are sorted by their scores. -/
theorem Record.ofHits_descending (room : Nat) (a : Address) (parts : List Part) :
  ofHits .descending room a parts
    = { toAddress := a
        score := (parts.map Part.score).foldl Score.plus 0
        hits := UInt32.ofNat parts.length
        parts := (parts.mergeSort fun p q => q.score ≤ p.score).take room }
  := by
  have horder : Part.noLater .descending = fun p q => decide (q.score ≤ p.score) := by
    funext p q
    rw [Bool.eq_iff_iff, Part.noLater_iff, decide_eq_true_iff]
  rw [ofHits, Part.inOrder, horder]

/-! ### The shape of groups -/

namespace RecordSet

/-- A limit that can be counted gives groups a shape, if the parts may lie in the records. -/
theorem groupedShape_eq {unit partUnit : Granularity} (limit : Nat) (hunit : unit ≠ .nothing)
    (hnests : Shape.nests ⟨unit, partUnit, UInt32.ofNat limit⟩) :
  groupedShape unit partUnit limit
    = if UInt32.size ≤ limit then .error (.groupLimit limit)
      else .ok ⟨unit, partUnit, UInt32.ofNat limit⟩
  := by
  have hvalid : Shape.validate ⟨unit, partUnit, UInt32.ofNat limit⟩ = .ok () := by
    rw [Shape.validate, if_neg hunit, if_neg (by simp [hnests])]
  rw [groupedShape]
  split
  · rfl
  · simp only [hvalid]
    rfl

/-- Records can be grouped by document if they are sections or positions, and if the limit can be
counted. -/
theorem group_eq (limit : Nat) (s : RecordSet) :
  s.group limit
    = if s.shape.unit ≠ .perSection ∧ s.shape.unit ≠ .perPosition then
        .error (.notGroupable s.shape.unit)
      else if UInt32.size ≤ limit then .error (.groupLimit limit)
      else .ok (ofRecords ⟨.perDocument, s.shape.unit, UInt32.ofNat limit⟩
        (groups limit .descending (fun r => some r.key) s.records))
  := by
  rw [group]
  by_cases hunit : s.shape.unit ≠ .perSection ∧ s.shape.unit ≠ .perPosition
  · simp only [if_pos hunit]
    rfl
  · have hnests : Shape.nests ⟨.perDocument, s.shape.unit, UInt32.ofNat limit⟩ = true := by
      obtain hunit | hunit := Decidable.not_and_iff_or_not.mp hunit
      · rw [Decidable.of_not_not hunit]
        rfl
      · rw [Decidable.of_not_not hunit]
        rfl
    have hshape := groupedShape_eq limit (by decide) hnests
    simp only [if_neg hunit, hshape]
    split <;> rfl

end RecordSet

/-! ### Grouping in place -/

namespace IndexedSet

/-- Makes the set one of groups. Nothing is written before the shape of the groups is found to be
valid. -/
def regroup (unit partUnit : Granularity) (limit : Nat) (groups : List Record) :
    EStateM Error IndexedSet Unit := do
  if UInt32.size ≤ limit then throw (.groupLimit limit)
  let shape : Shape := ⟨unit, partUnit, UInt32.ofNat limit⟩
  if let .error e := shape.validate then throw e
  modify fun i => { i with set := { i.set with shape } }
  modify (replaceRecords groups)

/-- Makes the set one of documents, with at most `limit` of their sections or positions as parts. -/
def groupDocuments (limit : Nat) : EStateM Error IndexedSet Unit := do
  let i ← get
  let unit := i.set.shape.unit
  if unit ≠ .perSection ∧ unit ≠ .perPosition then throw (.notGroupable unit)
  let groups := RecordSet.groups limit .descending (fun r => some r.key) i.set.records
  regroup .perDocument unit limit groups

theorem run_regroup (i : IndexedSet) (unit partUnit : Granularity) (limit : Nat)
    (groups : List Record) :
  (regroup unit partUnit limit groups).run i
    = match RecordSet.groupedShape unit partUnit limit with
      | .error e => .error e i
      | .ok shape => .ok () (ofSet (.ofRecords shape groups))
  := by
  rw [regroup, RecordSet.groupedShape]
  by_cases hlimit : UInt32.size ≤ limit
  · rw [if_pos hlimit, if_pos hlimit]
    rfl
  · rw [if_neg hlimit, if_neg hlimit]
    cases hvalid : (⟨unit, partUnit, UInt32.ofNat limit⟩ : Shape).validate with
    | error e =>
      simp only [hvalid]
      rfl
    | ok =>
      -- The index is built from the groups alone, so the shape may be written before them.
      simp only [hvalid]
      change _ = EStateM.Result.ok () (ofSet (.ofRecords ⟨unit, partUnit, UInt32.ofNat limit⟩ groups))
      rw [← mk_ofRecords]
      rfl

/-- Grouping in place writes what grouping gives, and nothing if grouping fails. -/
theorem run_groupDocuments (i : IndexedSet) (limit : Nat) :
  (groupDocuments limit).run i
    = match i.set.group limit with
      | .error e => .error e i
      | .ok s => .ok () (ofSet s)
  := by
  let groups := RecordSet.groups limit .descending (fun r => some r.key) i.set.records
  have hrun : (groupDocuments limit).run i
      = if i.set.shape.unit ≠ .perSection ∧ i.set.shape.unit ≠ .perPosition then
          .error (.notGroupable i.set.shape.unit) i
        else (regroup .perDocument i.set.shape.unit limit groups).run i := by
    change (ite _ _ _ : EStateM Error IndexedSet Unit).run i = _
    split <;> rfl
  rw [hrun, RecordSet.group]
  split
  · rfl
  · rw [run_regroup]
    cases RecordSet.groupedShape .perDocument i.set.shape.unit limit <;> rfl

variable {i : IndexedSet}

/-- Grouping by document in place. It fails exactly if the records are neither sections nor positions
or the limit cannot be counted, and the set then is what it was. Otherwise there is one record for
each document, in the order in which the documents come first. It adds up the scores of the records
of the document from the first to the last, counts them, and has the first of them as parts, in the
order of their scores from the best one on, where those of one score stay in the order in which they
were. The counts do not run over if there are less than 2³² records, so they add up to the number of
records. -/
theorem run_groupDocuments_eq (hsize : i.set.size < UInt32.size) (limit : Nat) :
  let unit := i.set.shape.unit
  let recordsOf (key : Key) := i.set.records.filter fun r => r.key = key
  let groups : List Record := (i.set.records.map fun r => r.key).eraseDups.map fun key =>
    { toAddress := ⟨key, 0, 0⟩
      score := ((recordsOf key).map Record.score).foldl Score.plus 0
      hits := UInt32.ofNat (recordsOf key).length
      parts := (((recordsOf key).map fun r => (⟨r.sectionNo, r.position, r.score⟩ : Part)).mergeSort
        fun p q => q.score ≤ p.score).take limit }
  let result : Except Error RecordSet :=
    if unit ≠ .perSection ∧ unit ≠ .perPosition then .error (.notGroupable unit)
    else if UInt32.size ≤ limit then .error (.groupLimit limit)
    else .ok ⟨⟨.perDocument, unit, UInt32.ofNat limit⟩, groups, .start⟩
  i.set.group limit = result
    ∧ (groupDocuments limit).run i = (match result with
      | .error e => .error e i
      | .ok s => .ok () (ofSet s))
    ∧ (limit < UInt32.size → (UInt32.ofNat limit).toNat = limit)
    ∧ (∀ key, (UInt32.ofNat (recordsOf key).length).toNat = (recordsOf key).length)
    ∧ (groups.map fun r => r.hits.toNat).sum = i.set.size
  := by
  intro unit recordsOf groups result
  have hgroups : RecordSet.groups limit .descending (fun r => some r.key) i.set.records = groups := by
    rw [RecordSet.groups_eq, List.filterMap_eq_map']
    simp only [RecordSet.members_some, Record.ofHits_descending, List.map_map, List.length_map]
    rfl
  have hgroup : i.set.group limit = result := by
    rw [RecordSet.group_eq, hgroups]
    rfl
  have hcounted : ∀ key, (UInt32.ofNat (recordsOf key).length).toNat = (recordsOf key).length := by
    intro key
    apply UInt32.toNat_ofNat_of_lt'
    apply Nat.lt_of_le_of_lt (List.length_filter_le _ _) hsize
  refine ⟨hgroup, ?_, UInt32.toNat_ofNat_of_lt', hcounted, ?_⟩
  · rw [run_groupDocuments, hgroup]
  · have hsum := RecordSet.sum_length_members (fun r => some r.key) i.set.records
    rw [List.filterMap_eq_map', List.length_map] at hsum
    simp only [RecordSet.members_some] at hsum
    simp only [groups, List.map_map, Function.comp_def, hcounted]
    apply hsum

/-- Four sections of two documents, with room for two of them in each group. -/
theorem run_groupDocuments_sections :
  let i : IndexedSet := ofSet (((((RecordSet.empty ⟨.perSection, .nothing, 0⟩).add
    ⟨.number 7, 1, 0⟩ 2).add ⟨.number 8, 1, 0⟩ 5).add ⟨.number 7, 2, 0⟩ 9).add ⟨.number 7, 3, 0⟩ 2)
  i.set.size < UInt32.size
    ∧ (groupDocuments 2).run i = .ok () (ofSet ⟨⟨.perDocument, .perSection, 2⟩,
      [⟨⟨.number 7, 0, 0⟩, 13, 3, [⟨2, 0, 9⟩, ⟨1, 0, 2⟩]⟩, ⟨⟨.number 8, 0, 0⟩, 5, 1, [⟨1, 0, 5⟩]⟩],
      .start⟩)
    ∧ (groupDocuments UInt32.size).run i = .error (.groupLimit UInt32.size) i
  := by
  intro i
  have hsize : i.set.size < UInt32.size := by decide
  obtain ⟨hgroup, hrun, -⟩ := run_groupDocuments_eq hsize 2
  obtain ⟨-, hfails, -⟩ := run_groupDocuments_eq hsize UInt32.size
  have hresult : i.set.group 2 = .ok ⟨⟨.perDocument, .perSection, 2⟩,
      [⟨⟨.number 7, 0, 0⟩, 13, 3, [⟨2, 0, 9⟩, ⟨1, 0, 2⟩]⟩, ⟨⟨.number 8, 0, 0⟩, 5, 1, [⟨1, 0, 5⟩]⟩],
      .start⟩ := rfl
  rw [← hgroup, hresult] at hrun
  exact ⟨hsize, hrun, hfails⟩

end IndexedSet

end Retrieval
