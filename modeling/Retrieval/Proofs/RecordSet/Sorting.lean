import Retrieval.Proofs.RecordSet.Hits
import Retrieval.Proofs.RecordSet.Indexed

/-!
# Records in order

Putting records in the order of a ranking keeps those of one rank in the order in which they were.
Ranks that descend and the order within each rank leave no choice: at most one list has both. So the
order of a ranking is described by them, sorting what is in descending order changes nothing, and
sorting twice in ascending order, which is the reverse of descending order, turns the records of each
rank around twice.
-/

namespace Retrieval

/-- A list without repetitions is its own reverse only if it is too short to be turned around. -/
theorem reverse_eq_self_iff {α : Type} {l : List α} (h : l.Nodup) :
  l.reverse = l ↔ l.length ≤ 1
  := by
  constructor
  · intro hreverse
    cases l with
    | nil => apply Nat.zero_le
    | cons a l =>
      cases l using List.reverseRecOn with
      | nil => apply Nat.le_refl
      | append_singleton l b =>
        have hab : b = a := by
          rw [List.reverse_cons, List.reverse_concat] at hreverse
          apply (List.cons.inj hreverse).1
        have hmem : a ∈ l ++ [b] := List.mem_append_right l (List.mem_singleton.mpr hab.symm)
        apply absurd hmem (List.nodup_cons.mp h).1
  · intro hlength
    rcases l with _ | ⟨a, _ | ⟨b, l⟩⟩
    · rfl
    · rfl
    · simp at hlength

/-! ### The order of a ranking -/

namespace Record

variable {rank : Ranking} {records l l₁ l₂ : List Record}

/-- Ranks descend from the first record to the last. -/
def Descends (rank : Ranking) (l : List Record) : Prop :=
  l.Pairwise fun a b => rank a b ≠ .lt

/-- The records of the rank of `r`, in their order. -/
def level (rank : Ranking) (r : Record) (l : List Record) : List Record :=
  l.filter fun x => rank x r = .eq

/-- A list holds records from the highest rank to the lowest, those of one rank in the order in which
they are. -/
structure InRankOrder (rank : Ranking) (records l : List Record) : Prop where
  perm : l.Perm records
  descends : Descends rank l
  level_eq : ∀ r, level rank r l = level rank r records

theorem level_reverse (rank : Ranking) (r : Record) (l : List Record) :
  level rank r l.reverse = (level rank r l).reverse
  := List.filter_reverse

theorem mem_level_iff {r x : Record} :
  x ∈ level rank r l ↔ x ∈ l ∧ rank x r = .eq
  := by
  rw [level, List.mem_filter, decide_eq_true_iff]

theorem level_cons_of_eq {r x : Record} (h : rank x r = .eq) :
  level rank r (x :: l) = x :: level rank r l
  := List.filter_cons_of_pos (decide_eq_true h)

theorem level_cons_of_ne {r x : Record} (h : rank x r ≠ .eq) :
  level rank r (x :: l) = level rank r l
  := List.filter_cons_of_neg (by rwa [decide_eq_true_iff])

theorem rank_self (rank : Ranking) [Std.TransCmp rank] (r : Record) :
  rank r r = .eq
  := Std.ReflCmp.compare_self

variable [Std.TransCmp rank]

/-- The first of some records with descending ranks has the highest rank. -/
theorem Descends.rank_ne_lt {r x : Record} (h : Descends rank (x :: l)) (hr : r ∈ x :: l) :
  rank x r ≠ .lt
  := by
  obtain rfl | hr := List.mem_cons.mp hr
  · rw [rank_self rank]
    rintro ⟨⟩
  · apply (List.pairwise_cons.mp h).1 r hr

/-- Records with descending ranks are given by the records of each rank. -/
theorem eq_of_level_eq (h₁ : Descends rank l₁) (h₂ : Descends rank l₂)
    (hlevel : ∀ r, level rank r l₁ = level rank r l₂) :
  l₁ = l₂
  := by
  have hmem : ∀ {l₁ l₂ : List Record}, (∀ r, level rank r l₁ = level rank r l₂) →
      ∀ r ∈ l₁, r ∈ l₂ := by
    intro l₁ l₂ hlevel r hr
    have hself : r ∈ level rank r l₁ := mem_level_iff.mpr ⟨hr, rank_self rank r⟩
    rw [hlevel] at hself
    apply (mem_level_iff.mp hself).1
  induction l₁ generalizing l₂ with
  | nil =>
    symm
    apply List.eq_nil_iff_forall_not_mem.mpr
    intro r hr
    cases hmem (fun r => (hlevel r).symm) r hr
  | cons x l₁ ih =>
    cases l₂ with
    | nil => cases hmem hlevel x List.mem_cons_self
    | cons y l₂ =>
      have hxy : rank x y ≠ .lt :=
        h₁.rank_ne_lt (hmem (fun r => (hlevel r).symm) y List.mem_cons_self)
      have hyx : rank y x ≠ .lt := h₂.rank_ne_lt (hmem hlevel x List.mem_cons_self)
      have heq : rank y x = .eq := by
        cases h : rank y x with
        | lt => exact absurd h hyx
        | eq => rfl
        | gt => exact absurd (Std.OrientedCmp.gt_iff_lt.mp h) hxy
      have hfirst := hlevel x
      rw [level_cons_of_eq (rank_self rank x), level_cons_of_eq heq] at hfirst
      obtain rfl : x = y := (List.cons.inj hfirst).1
      congr 1
      apply ih (List.pairwise_cons.mp h₁).2 (List.pairwise_cons.mp h₂).2
      intro r
      have h := hlevel r
      by_cases hr : rank x r = .eq
      · rw [level_cons_of_eq hr, level_cons_of_eq hr] at h
        apply (List.cons.inj h).2
      · rwa [level_cons_of_ne hr, level_cons_of_ne hr] at h

/-! ### Sorting by rank -/

/-- Not to rank above is the order in which records are sorted. -/
theorem noHigher_trans (a b c : Record) :
  (rank b a != .gt) = true → (rank c b != .gt) = true → (rank c a != .gt) = true
  := by
  rw [bne_iff_ne, bne_iff_ne, bne_iff_ne]
  intro hab hbc
  apply Std.TransCmp.le_trans hbc hab

theorem noHigher_total (a b : Record) :
  (rank b a != .gt || rank a b != .gt) = true
  := by
  rw [Bool.or_eq_true, bne_iff_ne, bne_iff_ne]
  by_cases h : rank b a = .gt
  · right
    rw [Std.OrientedCmp.gt_iff_lt.mp h]
    rintro ⟨⟩
  · left
    apply h

theorem descends_ranked (records : List Record) :
  Descends rank (ranked rank records)
  := by
  apply (List.pairwise_mergeSort noHigher_trans noHigher_total records).imp
  intro a b hab hlt
  apply bne_iff_ne.mp hab
  apply Std.OrientedCmp.gt_iff_lt.mpr hlt

/-- Sorting leaves records of one rank in their order. -/
theorem level_ranked (r : Record) (records : List Record) :
  level rank r (ranked rank records) = level rank r records
  := by
  have hlevel : (level rank r records).Pairwise fun a b => (rank b a != .gt) = true := by
    apply List.pairwise_of_forall_mem_list
    intro a ha b hb
    have har := (mem_level_iff.mp ha).2
    have hbr := (mem_level_iff.mp hb).2
    rw [Std.TransCmp.eq_trans hbr (Std.OrientedCmp.eq_comm.mp har)]
    rfl
  have hsublist : (level rank r records).Sublist (level rank r (ranked rank records)) := by
    have h := (List.sublist_mergeSort noHigher_trans noHigher_total hlevel
      List.filter_sublist).filter fun x => rank x r = .eq
    simp only [level, List.filter_filter, Bool.and_self] at h
    apply h
  symm
  apply hsublist.eq_of_length
  apply ((perm_inDirection rank .descending records).filter _).length_eq.symm

theorem inRankOrder_ranked (records : List Record) :
  InRankOrder rank records (ranked rank records)
  where
  perm := perm_inDirection rank .descending records
  descends := descends_ranked records
  level_eq := fun r => level_ranked r records

/-- The order of a ranking is what sorting gives. -/
theorem inRankOrder_iff :
  InRankOrder rank records l ↔ l = ranked rank records
  := by
  constructor
  · intro h
    apply eq_of_level_eq h.descends (descends_ranked records)
    intro r
    rw [h.level_eq, level_ranked]
  · rintro rfl
    apply inRankOrder_ranked

/-- Inserting the records one by one gives the same order. -/
theorem ranked_eq_insertionSort (records : List Record) :
  ranked rank records = records.insertionSort fun a b => rank b a != .gt
  := by
  induction records with
  | nil => exact List.mergeSort_nil
  | cons r records ih =>
    rw [ranked, mergeSort_cons_eq_orderedInsert noHigher_trans noHigher_total, ← ranked, ih]
    rfl

/-! ### Sorting again -/

/-- What is in order stays as it is. -/
theorem Descends.ranked_eq (h : Descends rank l) :
  ranked rank l = l
  := by
  symm
  apply inRankOrder_iff.mp
  exact ⟨List.Perm.refl l, h, fun _ => rfl⟩

/-- Ascending order turns the records of one rank around. -/
theorem level_reverse_ranked (r : Record) (records : List Record) :
  level rank r (ranked rank records).reverse = (level rank r records).reverse
  := by
  rw [level_reverse, level_ranked]

/-- What is in ascending order stays as it is if no rank has two records. -/
theorem reverse_ranked_eq_self_iff (h : Descends rank l.reverse) (hnodup : l.Nodup) :
  (ranked rank l).reverse = l ↔ ∀ r, (level rank r l).length ≤ 1
  := by
  have hlevel : ∀ r, (level rank r l).Nodup := fun r => hnodup.filter _
  constructor
  · intro heq r
    apply (reverse_eq_self_iff (hlevel r)).mp
    rw [← level_reverse_ranked, heq]
  · intro hlength
    have heq : ranked rank l = l.reverse := by
      apply eq_of_level_eq (descends_ranked l) h
      intro r
      rw [level_ranked, level_reverse]
      exact ((reverse_eq_self_iff (hlevel r)).mpr (hlength r)).symm
    rw [heq, List.reverse_reverse]

/-- What is in ascending order comes back if the records of each rank are turned around twice. -/
theorem reverse_ranked_reverse_ranked (h : Descends rank l.reverse) :
  (ranked rank (ranked rank l).reverse).reverse = l
  := by
  have heq : ranked rank (ranked rank l).reverse = l.reverse := by
    apply eq_of_level_eq (descends_ranked _) h
    intro r
    rw [level_ranked, level_reverse_ranked, level_reverse]
  rw [heq, List.reverse_reverse]

end Record

/-! ### Ranking by score -/

namespace Record

instance : Std.TransCmp byScore where
  eq_swap := Std.OrientedOrd.eq_swap
  isLE_trans := Std.TransOrd.isLE_trans

variable {l : List Record}

theorem level_byScore (r : Record) (l : List Record) :
  level byScore r l = l.filter fun x => x.score = r.score
  := by
  simp only [level, byScore, Std.compare_eq_iff_eq]

theorem pairwise_score_of_descends (h : Descends byScore l.reverse) :
  (l.map score).Pairwise (· ≤ ·)
  := by
  rw [List.pairwise_map]
  apply (List.pairwise_reverse.mp h).imp
  intro a b hab
  apply Int32.not_lt.mp
  intro hlt
  apply hab
  apply Std.compare_eq_lt.mpr hlt

/-- Sorting again in ascending order leaves the scores where they are. -/
theorem map_score_reverse_ranked (h : Descends byScore l.reverse) :
  (ranked byScore l).reverse.map score = l.map score
  := by
  have hdescends : Descends byScore (ranked byScore l).reverse.reverse := by
    rw [List.reverse_reverse]
    apply descends_ranked
  have hperm : (ranked byScore l).reverse.Perm l := perm_inDirection byScore .ascending l
  apply List.Perm.eq_of_pairwise _ (pairwise_score_of_descends hdescends)
    (pairwise_score_of_descends h) (hperm.map score)
  intro a b _ _ hab hba
  apply Int32.le_antisymm hab hba

/-- Scores are distinct if no rank has two records. -/
theorem nodup_score_iff :
  (l.map score).Nodup ↔ ∀ r, (level byScore r l).length ≤ 1
  := by
  have hcount : ∀ score, (l.map Record.score).count score
      = (l.filter fun x => x.score = score).length := by
    intro score
    rw [List.count_eq_countP, List.countP_map, List.countP_eq_length_filter]
    rfl
  rw [List.nodup_iff_count_le_one]
  constructor
  · intro h r
    rw [level_byScore, ← hcount]
    apply h
  · intro h score
    rw [hcount]
    have hr := h (.ofAddress default score)
    rwa [level_byScore] at hr

end Record

/-! ### Limits -/

section limits

variable {α : Type}

theorem upTo_of_pos {limit : Nat} (h : 0 < limit) (l : List α) :
  upTo limit l = l.take limit
  := if_neg (Nat.ne_of_gt h)

/-- A limit has no effect on as many elements as it has kept before. -/
theorem upTo_of_length_eq {limit : Nat} {l₁ l₂ : List α} (h : l₁.length = (upTo limit l₂).length) :
  upTo limit l₁ = l₁
  := by
  rw [upTo] at h ⊢
  split
  · rfl
  · rename_i hlimit
    rw [if_neg hlimit, List.length_take] at h
    apply List.take_of_length_le
    omega

end limits

/-! ### Sorting sets -/

namespace RecordSet

variable {s : RecordSet} {rank : Ranking} {limit : Nat}

/-- A limit keeps the first records of the whole order. -/
theorem records_sortBy_of_pos (h : 0 < limit) (direction : Direction) (rank : Ranking)
    (s : RecordSet) :
  (s.sortBy limit direction rank).records
      = (s.sortBy 0 direction rank).records.take (min limit s.size)
    ∧ (s.sortBy limit direction rank).size = min limit s.size
  := by
  have hlength : (Record.inDirection rank direction s.records).length = s.size :=
    (Record.perm_inDirection rank direction s.records).length_eq
  have htake : (s.sortBy limit direction rank).records
      = (Record.inDirection rank direction s.records).take limit := upTo_of_pos h _
  constructor
  · change _ = (Record.inDirection rank direction s.records).take (min limit s.size)
    rw [htake, ← hlength, ← List.take_take, List.take_length]
  · rw [size, htake, List.length_take, hlength]

/-! ### Sorting sets twice -/

/-- As many records are sorted again as have been kept, so the limit has no effect any more. -/
theorem sortBy_sortBy (limit : Nat) (direction : Direction) (rank : Ranking) (s : RecordSet) :
  (s.sortBy limit direction rank).sortBy limit direction rank
    = s.withRecords (Record.inDirection rank direction (s.sortBy limit direction rank).records)
  := by
  apply congrArg s.withRecords
  apply upTo_of_length_eq
  apply (Record.perm_inDirection rank direction _).length_eq

variable [Std.TransCmp rank]

theorem descends_sortBy_descending (limit : Nat) (s : RecordSet) :
  Record.Descends rank (s.sortBy limit .descending rank).records
  := List.Pairwise.sublist (upTo_sublist limit _) (Record.descends_ranked s.records)

theorem descends_sortBy_ascending (limit : Nat) (s : RecordSet) :
  Record.Descends rank (s.sortBy limit .ascending rank).records.reverse
  := by
  have hsublist : (s.sortBy limit .ascending rank).records.reverse.Sublist
      (Record.ranked rank s.records).reverse.reverse := (upTo_sublist limit _).reverse
  rw [List.reverse_reverse] at hsublist
  apply List.Pairwise.sublist hsublist (Record.descends_ranked s.records)

/-- Descending order is kept by sorting again. -/
theorem sortBy_sortBy_descending (limit : Nat) (s : RecordSet) :
  (s.sortBy limit .descending rank).sortBy limit .descending rank
    = s.sortBy limit .descending rank
  := by
  rw [sortBy_sortBy]
  exact congrArg s.withRecords (descends_sortBy_descending limit s).ranked_eq

end RecordSet

open RecordStore (Reachable)

namespace IndexedSet

variable {i : IndexedSet}

/-- The sorting law of sets that operations have made, for any ranking by a total preorder. -/
theorem sortBy_inRankOrder (h : Reachable i) (rank : Ranking) [Std.TransCmp rank] :
  let sorted (limit : Nat) (direction : Direction) := RecordStore.sortBy limit direction rank i
  (∀ l, Record.InRankOrder rank i.set.records l ↔ l = (sorted 0 .descending).set.records)
    ∧ (sorted 0 .ascending).set.records = (sorted 0 .descending).set.records.reverse
    ∧ ∀ limit direction,
      (0 < limit →
        (sorted limit direction).set.records
            = (sorted 0 direction).set.records.take (min limit i.set.size)
          ∧ (sorted limit direction).set.size = min limit i.set.size)
        ∧ (sorted limit direction).set.cursor = .start
        ∧ (sorted limit direction).index.Exact (sorted limit direction).set.records
        ∧ (∀ a r, (sorted limit direction).get? a = some r
          ↔ r ∈ (sorted limit direction).set.records ∧ r.toAddress = a.project i.set.shape.unit)
        ∧ (∀ key, (sorted limit direction).find? key
          = Score.total? (((sorted limit direction).set.records.filter fun r =>
              r.key = key).map Record.score))
        ∧ (sorted limit direction).set = i.set.sortBy limit direction rank
  := by
  intro sorted
  have hset : ∀ limit direction, (sorted limit direction).set = i.set.sortBy limit direction rank :=
    fun _ _ => rfl
  refine ⟨fun l => Record.inRankOrder_iff, rfl, ?_⟩
  intro limit direction
  obtain ⟨hindex, hget, hfind⟩ := lookups (h.sortBy limit direction rank)
  refine ⟨?_, rfl, hindex, hget, hfind, rfl⟩
  intro hlimit
  apply RecordSet.records_sortBy_of_pos hlimit

/-- Three sections, two of them with one number, in the order of their numbers. -/
theorem sortBy_inRankOrder_sections :
  let rank : Ranking := fun a b => compare a.sectionNo b.sectionNo
  let s : RecordSet := (((RecordSet.empty ⟨.perSection, .nothing, 0⟩).add ⟨.number 7, 1, 0⟩ 2).add
    ⟨.number 8, 2, 0⟩ 5).add ⟨.number 9, 1, 0⟩ 3
  let sorted (limit : Nat) (direction : Direction) :=
    RecordStore.sortBy limit direction rank (ofSet s)
  Std.TransCmp rank ∧ Reachable (ofSet s)
    ∧ Record.InRankOrder rank s.records (sorted 0 .descending).set.records
    ∧ Record.addresses (sorted 0 .descending).set.records
      = [⟨.number 8, 2, 0⟩, ⟨.number 7, 1, 0⟩, ⟨.number 9, 1, 0⟩]
    ∧ (sorted 2 .ascending).set.records
      = (sorted 0 .descending).set.records.reverse.take 2
    ∧ (sorted 2 .ascending).index.Exact (sorted 2 .ascending).set.records
    ∧ (sorted 2 .ascending).find? (.number 8) = none
  := by
  intro rank s sorted
  have hrank : Std.TransCmp rank :=
    { eq_swap := Std.OrientedOrd.eq_swap, isLE_trans := Std.TransOrd.isLE_trans }
  have hempty : Reachable (RecordSet.empty ⟨.perSection, .nothing, 0⟩) :=
    .ofShape (rfl : RecordSet.ofShape ⟨.perSection, .nothing, 0⟩ = _)
  have hs : Reachable (ofSet s) := reachable_ofSet (((hempty.add _ _).add _ _).add _ _)
  obtain ⟨hordered, hreverse, hlimit⟩ := sortBy_inRankOrder hs rank
  obtain ⟨htake, -, hindex, -, hfind, -⟩ := hlimit 2 .ascending
  refine ⟨hrank, hs, (hordered _).mpr rfl, ?_, ?_, hindex, ?_⟩
  · change Record.addresses (Record.ranked rank s.records) = _
    rw [Record.ranked_eq_insertionSort]
    decide
  · rw [← hreverse]
    apply (htake Nat.two_pos).1
  · apply (hfind _).trans
    change Score.total? ((((Record.ranked rank s.records).reverse.take 2).filter _).map _) = none
    rw [Record.ranked_eq_insertionSort]
    decide

end IndexedSet

namespace RecordSet

variable {s : RecordSet}

/-- Sorting by score again. Descending order is kept. Ascending order is the reverse of descending
order, records of one score included, so sorting again turns those around: there are records of the
same scores in the same places, nothing is changed exactly if the scores are distinct, and sorting
once more brings the first order back. -/
theorem sort_sort (h : Reachable s) (limit : Nat) :
  let once := s.sort limit .ascending
  let twice := once.sort limit .ascending
  (s.sort limit .descending).sort limit .descending = s.sort limit .descending
    ∧ twice.records.map Record.score = once.records.map Record.score
    ∧ (∀ score, twice.records.filter (fun r => r.score = score)
      = (once.records.filter fun r => r.score = score).reverse)
    ∧ (twice = once ↔ (once.records.map Record.score).Nodup)
    ∧ twice.sort limit .ascending = once
  := by
  intro once twice
  have hdescends : Record.Descends Record.byScore once.records.reverse :=
    descends_sortBy_ascending limit s
  have htwice : twice = once.withRecords (Record.ranked Record.byScore once.records).reverse :=
    sortBy_sortBy limit .ascending Record.byScore s
  have hnodup : once.records.Nodup :=
    (h.wellFormed.sortBy limit .ascending Record.byScore).holds.distinct.of_map
  refine ⟨sortBy_sortBy_descending limit s, ?_, ?_, ?_, ?_⟩
  · rw [htwice]
    apply Record.map_score_reverse_ranked hdescends
  · intro score
    have hlevel : Record.level Record.byScore _ (Record.ranked Record.byScore once.records).reverse
        = _ := Record.level_reverse_ranked (.ofAddress default score) once.records
    rw [Record.level_byScore, Record.level_byScore] at hlevel
    rw [htwice]
    apply hlevel
  · rw [Record.nodup_score_iff, ← Record.reverse_ranked_eq_self_iff hdescends hnodup, htwice]
    constructor
    · intro heq
      exact congrArg records heq
    · intro heq
      exact congrArg once.withRecords heq
  · have hthrice : twice.sort limit .ascending
        = once.withRecords (Record.ranked Record.byScore twice.records).reverse :=
      sortBy_sortBy limit .ascending Record.byScore once
    have hrecords : twice.records = (Record.ranked Record.byScore once.records).reverse :=
      congrArg records htwice
    rw [hthrice, hrecords, Record.reverse_ranked_reverse_ranked hdescends]
    rfl

/-- Two sections of one score and a better one. -/
theorem sort_sort_three :
  let s : RecordSet := (((empty ⟨.perSection, .nothing, 0⟩).add ⟨.number 7, 1, 0⟩ 2).add
    ⟨.number 7, 2, 0⟩ 5).add ⟨.number 8, 1, 0⟩ 2
  let once := s.sort 0 .ascending
  Reachable s
    ∧ (s.sort 0 .descending).sort 0 .descending = s.sort 0 .descending
    ∧ Record.addresses (s.sort 0 .descending).records
      = [⟨.number 7, 2, 0⟩, ⟨.number 7, 1, 0⟩, ⟨.number 8, 1, 0⟩]
    ∧ ((once.sort 0 .ascending).records.filter fun r => r.score = 2)
      = (once.records.filter fun r => r.score = 2).reverse
    ∧ (once.sort 0 .ascending).sort 0 .ascending = once
  := by
  intro s once
  have hempty : Reachable (empty ⟨.perSection, .nothing, 0⟩) :=
    .ofShape (rfl : ofShape ⟨.perSection, .nothing, 0⟩ = _)
  have hs : Reachable s := ((hempty.add _ _).add _ _).add _ _
  obtain ⟨hdescending, -, hturned, -, hthrice⟩ := sort_sort hs 0
  refine ⟨hs, hdescending, ?_, hturned 2, hthrice⟩
  change Record.addresses (Record.ranked Record.byScore s.records) = _
  rw [Record.ranked_eq_insertionSort]
  decide

/-- Two documents of one score change places whenever they are sorted in ascending order. -/
theorem sort_ascending_twice :
  let s : RecordSet := ((empty .documents).add ⟨.number 7, 0, 0⟩ 1).add ⟨.number 8, 0, 0⟩ 1
  Reachable s
    ∧ Record.addresses (s.sort 0 .ascending).records = [⟨.number 8, 0, 0⟩, ⟨.number 7, 0, 0⟩]
    ∧ Record.addresses ((s.sort 0 .ascending).sort 0 .ascending).records
      = [⟨.number 7, 0, 0⟩, ⟨.number 8, 0, 0⟩]
    ∧ ((s.sort 0 .ascending).sort 0 .ascending).records ≠ (s.sort 0 .ascending).records
  := by
  intro s
  have hempty : Reachable (empty .documents) := .ofShape (rfl : ofShape .documents = _)
  have hs : Reachable s := (hempty.add _ _).add _ _
  have honce : Record.addresses (s.sort 0 .ascending).records
      = [⟨.number 8, 0, 0⟩, ⟨.number 7, 0, 0⟩] := by
    change Record.addresses (Record.ranked Record.byScore s.records).reverse = _
    rw [Record.ranked_eq_insertionSort]
    decide
  have htwice : Record.addresses ((s.sort 0 .ascending).sort 0 .ascending).records
      = [⟨.number 7, 0, 0⟩, ⟨.number 8, 0, 0⟩] := by
    change Record.addresses
      (Record.ranked Record.byScore (Record.ranked Record.byScore s.records).reverse).reverse = _
    rw [Record.ranked_eq_insertionSort, Record.ranked_eq_insertionSort]
    decide
  refine ⟨hs, honce, htwice, ?_⟩
  intro heq
  rw [heq, honce] at htwice
  cases htwice

end RecordSet

end Retrieval
