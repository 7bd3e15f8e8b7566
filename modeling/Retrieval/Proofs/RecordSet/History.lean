import Retrieval.Proofs.RecordSet.Hits

/-!
# The parts that records keep

Hits come to a record one by one, or together with all others that another record has collected.
A hit by itself is put in its place among the parts, a merged record leaves its parts behind those
that are there. So a record that was never merged keeps the best of its hits in order, and a merged
one keeps what the two records kept, as far as there is room. How many hits it keeps is the same in
both cases.
-/

namespace Retrieval

namespace Part

/-- Those that are kept of some parts are in order from the best one on, and no part that is
dropped is better than one that is kept. -/
structure BestOf (parts kept : List Part) : Prop where
  ordered : kept.Pairwise fun p q => q.score ≤ p.score
  dropped : ∃ dropped, parts.Perm (kept ++ dropped)
    ∧ ∀ p ∈ kept, ∀ q ∈ dropped, q.score ≤ p.score

/-- The first parts in order are the best ones. -/
theorem bestOf_take_inOrder (parts : List Part) (room : Nat) :
  BestOf parts ((inOrder .descending parts).take room)
  := by
  have hordered : (inOrder .descending parts).Pairwise fun p q => q.score ≤ p.score := by
    apply (List.pairwise_mergeSort noLater_trans noLater_total parts).imp
    intro p q hpq
    apply noLater_iff.mp hpq
  constructor
  · apply hordered.sublist (List.take_sublist room _)
  · use (inOrder .descending parts).drop room
    rw [List.take_append_drop]
    constructor
    · apply (List.mergeSort_perm parts _).symm
    · rw [← List.take_append_drop room (inOrder .descending parts)] at hordered
      apply (List.pairwise_append.mp hordered).2.2

end Part

/-! ### Histories of records -/

/-- How the hits of a record came together. -/
inductive History where
  | start
  | hit (before : History) (part : Part)
  | merge (left right : History)
deriving DecidableEq, Repr

namespace History

/-- What the hits left as parts, in the order in which they came. -/
def arrived : History → List Part
  | start => []
  | hit before part => before.arrived ++ [part]
  | merge left right => left.arrived ++ right.arrived

/-- Those of the parts that a record keeps which has room for a number of them. -/
def kept (room : Nat) : History → List Part
  | start => []
  | hit before part => Record.keep .descending room part (before.kept room)
  | merge left right =>
    left.kept room ++ (right.kept room).take (room - (left.kept room).length)

/-- No record was merged into the record. -/
def Unmerged : History → Prop
  | start => True
  | hit before _ => before.Unmerged
  | merge _ _ => False

variable {room : Nat}

/-- All parts are kept for which there is room. -/
theorem length_kept (history : History) :
  (history.kept room).length = min room history.arrived.length
  := by
  induction history with
  | start => simp [kept, arrived]
  | hit before part ih =>
    have hfits : (before.kept room).length ≤ room := by omega
    rw [kept, Record.keep_eq hfits, List.length_take, (perm_insertLast part _).length_eq,
      List.length_cons, arrived, List.length_append, List.length_singleton]
    omega
  | merge left right ihleft ihright =>
    rw [kept, List.length_append, List.length_take, arrived, List.length_append]
    omega

theorem length_kept_le (history : History) :
  (history.kept room).length ≤ room
  := by
  rw [length_kept]
  apply Nat.min_le_left

/-- What is kept are parts that hits left, and each of them once. -/
theorem kept_subperm (history : History) :
  (history.kept room).Subperm history.arrived
  := by
  induction history with
  | start => apply List.Subperm.refl
  | hit before part ih =>
    have hinserted : (insertLast (Part.noLater .descending) part (before.kept room)).Perm
        (before.kept room ++ [part]) :=
      (perm_insertLast part _).trans (List.perm_append_singleton part _).symm
    rw [kept, Record.keep_eq before.length_kept_le, arrived]
    apply (List.take_sublist room _).subperm.trans
    apply hinserted.subperm.trans
    apply ih.append (List.Subperm.refl [part])
  | merge left right ihleft ihright =>
    apply ihleft.append
    apply (List.take_sublist _ _).subperm.trans ihright

/-- Hits that come one by one are kept in order, as long as no record is merged. -/
theorem Unmerged.kept_eq {history : History} (h : history.Unmerged) :
  history.kept room = (Part.inOrder .descending history.arrived).take room
  := by
  induction history with
  | start => simp [kept, arrived, Part.inOrder]
  | hit before part ih => rw [kept, ih h, Record.keep_take, arrived]
  | merge left right => cases h

/-- A merged record keeps the parts of the merged history. -/
theorem map_parts_merge {r x : Option Record} {left right : Option History}
    (hr : r.map Record.parts = left.map (kept room))
    (hx : x.map Record.parts = right.map (kept room)) :
  (Option.merge (fun r x => Record.merge room x r) r x).map Record.parts
    = (Option.merge merge left right).map (kept room)
  := by
  cases left with
  | none =>
    obtain rfl : r = none := by simpa using hr
    simpa using hx
  | some left =>
    obtain ⟨r, rfl, hleft⟩ := Option.map_eq_some_iff.mp hr
    cases right with
    | none =>
      obtain rfl : x = none := by simpa using hx
      simpa using hr
    | some right =>
      obtain ⟨x, rfl, hright⟩ := Option.map_eq_some_iff.mp hx
      simp [Record.merge, kept, hleft, hright]

end History

/-! ### What an operation leaves at an address -/

namespace RecordSet

variable {s t : RecordSet}

theorem get?_records_add (s : RecordSet) (place : Address) (score : Score) (a : Address) :
  Record.get? a (s.add place score).records
    = if a = place.project s.shape.unit
      then some (((Record.get? a s.records).getD (.ofAddress a 0)).addHit .descending s.room
        ((place.project s.shape.partUnit).part score))
      else Record.get? a s.records
  := by
  rw [add]
  dsimp only
  rw [Record.get?_upsert]
  · split
    · rename_i ha
      rw [← ha]
      cases Record.get? a s.records <;> rfl
    · rfl
  · intro r
    rfl
  · rfl

theorem get?_records_union (ht : s.shape.Holds t.records) (a : Address) :
  Record.get? a (s.union t).records
    = Option.merge (fun r x => Record.merge s.room x r) (Record.get? a s.records)
        (Record.get? a t.records)
  := ht.get?_mergeRecords s.records a

theorem get?_records_intersect (hs : s.shape.Holds s.records) (ht : s.shape.Holds t.records)
    (a : Address) :
  Record.get? a (s.intersect t).records
    = Option.merge (fun r x => Record.merge s.room x r)
        (if Record.hasKey a.key t.records then Record.get? a s.records else none)
        (if Record.hasKey a.key s.records then Record.get? a t.records else none)
  := by
  rw [← Record.get?_filter_key (p := fun key => Record.hasKey key t.records) hs.distinct,
    ← Record.get?_filter_key (p := fun key => Record.hasKey key s.records) ht.distinct]
  apply (ht.sublist List.filter_sublist).get?_mergeRecords

theorem get?_records_subtract (hs : s.shape.Holds s.records) (t : RecordSet) (a : Address) :
  Record.get? a (s.subtract t).records
    = if Record.hasKey a.key t.records then none else Record.get? a s.records
  := by
  rw [subtract, records_retain,
    Record.get?_filter_key (p := fun key => !Record.hasKey key t.records) hs.distinct]
  cases Record.hasKey a.key t.records <;> rfl

end RecordSet

/-! ### Sets that are built from new ones -/

/-- How a set is built, where `start` stands for a new one. -/
inductive Construction where
  | start
  | add (before : Construction) (place : Address) (score : Score)
  | union (left right : Construction)
  | intersect (left right : Construction)
  | subtract (left right : Construction)

namespace Construction

variable (s : RecordSet)

/-- The set that is built, each time from the same new one. -/
def run : Construction → RecordSet
  | start => s
  | add before place score => before.run.add place score
  | union left right => left.run.union right.run
  | intersect left right => left.run.intersect right.run
  | subtract left right => left.run.subtract right.run

/-- For an address the history of its record, if the set that is built has one. -/
def history : Construction → Address → Option History
  | start, _ => none
  | add before place score, a =>
    if a = place.project s.shape.unit
    then some (.hit ((before.history a).getD .start) ((place.project s.shape.partUnit).part score))
    else before.history a
  | union left right, a => Option.merge .merge (left.history a) (right.history a)
  | intersect left right, a =>
    Option.merge .merge
      (if Record.hasKey a.key (right.run s).records then left.history a else none)
      (if Record.hasKey a.key (left.run s).records then right.history a else none)
  | subtract left right, a =>
    if Record.hasKey a.key (right.run s).records then none else left.history a

variable {s}

theorem shape_run (c : Construction) :
  (c.run s).shape = s.shape
  := by
  induction c with
  | start => rfl
  | add before place score ih => exact ih
  | union left right ihleft ihright => exact ihleft
  | intersect left right ihleft ihright => exact ihleft
  | subtract left right ihleft ihright => exact (RecordSet.shape_retain _ _).trans ihleft

theorem wellFormed_run (hs : s.WellFormed) (c : Construction) :
  (c.run s).WellFormed
  := by
  induction c with
  | start => exact hs
  | add before place score ih => apply ih.add
  | union left right ihleft ihright => apply ihleft.union
  | intersect left right ihleft ihright => apply ihleft.intersect
  | subtract left right ihleft ihright => apply ihleft.subtract

theorem room_run (c : Construction) :
  (c.run s).room = s.room
  := by
  rw [RecordSet.room, shape_run, RecordSet.room]

/-- The sets are all of one shape, so each of them may be merged into another one. -/
theorem holds_run (hs : s.WellFormed) (c d : Construction) :
  (c.run s).shape.Holds (d.run s).records
  := by
  rw [c.shape_run, ← d.shape_run]
  apply (wellFormed_run hs d).holds

/-- Each record of the set keeps the parts of its history. -/
theorem parts_run (hs : s.WellFormed) (hnew : s.records = []) (c : Construction) (a : Address) :
  (Record.get? a (c.run s).records).map Record.parts = (c.history s a).map (History.kept s.room)
  := by
  induction c with
  | start =>
    rw [run, hnew]
    rfl
  | add before place score ih =>
    rw [run, RecordSet.get?_records_add, room_run, before.shape_run, history]
    split
    · cases hr : Record.get? a (before.run s).records with
      | none =>
        have hnone : before.history s a = none := by simpa [hr] using ih
        simp [hnone, History.kept, Record.addHit, Record.ofAddress]
      | some r =>
        obtain ⟨h, hh, hparts⟩ := Option.map_eq_some_iff.mp (ih.symm.trans (congrArg _ hr))
        simp [hh, History.kept, Record.addHit, hparts]
    · apply ih
  | union left right ihleft ihright =>
    rw [run, RecordSet.get?_records_union (holds_run hs left right), room_run, history]
    apply History.map_parts_merge ihleft ihright
  | intersect left right ihleft ihright =>
    rw [run, RecordSet.get?_records_intersect (holds_run hs left left) (holds_run hs left right),
      room_run, history]
    apply History.map_parts_merge
    · split
      · apply ihleft
      · rfl
    · split
      · apply ihright
      · rfl
  | subtract left right ihleft ihright =>
    rw [run, RecordSet.get?_records_subtract (holds_run hs left left), history]
    split
    · rfl
    · apply ihleft

/-- A record that is found where both operands have one has the parts of both. -/
theorem exists_merged (hs : s.WellFormed) (left right : Construction) {x y : Record}
    (hx : x ∈ (left.run s).records) (hy : y ∈ (right.run s).records)
    (hxy : x.toAddress = y.toAddress) {c : Construction}
    (hc : c ∈ [union left right, intersect left right]) :
  ∃ r ∈ (c.run s).records, r.toAddress = x.toAddress
    ∧ r.parts = x.parts ++ y.parts.take (s.room - x.parts.length)
  := by
  have hgetx : Record.get? x.toAddress (left.run s).records = some x :=
    (Record.get?_eq_some_iff (holds_run hs left left).distinct).mpr ⟨hx, rfl⟩
  have hgety : Record.get? x.toAddress (right.run s).records = some y :=
    (Record.get?_eq_some_iff (holds_run hs right right).distinct).mpr ⟨hy, hxy.symm⟩
  have hget : Record.get? x.toAddress (c.run s).records
      = some (Record.merge (left.run s).room y x) := by
    rcases List.mem_pair.mp hc with rfl | rfl
    · rw [run, RecordSet.get?_records_union (holds_run hs left right), hgetx, hgety]
      rfl
    · have hkeyx : Record.hasKey x.key (left.run s).records = true :=
        Record.mem_keys_iff_hasKey.mp ⟨x, hx, rfl⟩
      have hkeyy : Record.hasKey x.key (right.run s).records = true :=
        Record.mem_keys_iff_hasKey.mp ⟨y, hy, congrArg Address.key hxy.symm⟩
      rw [run, RecordSet.get?_records_intersect (holds_run hs left left) (holds_run hs left right),
        if_pos hkeyy, if_pos hkeyx, hgetx, hgety]
      rfl
  obtain ⟨hmem, haddress⟩ := Record.mem_of_get?_eq_some hget
  refine ⟨_, hmem, haddress, ?_⟩
  rw [Record.merge, room_run]

variable {shape : Shape}

/-- However a set is built from new ones, each of its records keeps as many of its hits as there is
room for. If no record was merged into it, these are the best ones, from the best one on. Where a
union or an intersection merges two records, the parts of the right one follow those of the left one
as far as there is room, however good they are. -/
theorem kept_parts (h : RecordSet.ofShape shape = .ok s) :
  (∀ c : Construction, ∀ r ∈ (c.run s).records, ∃ history,
    c.history s r.toAddress = some history
      ∧ r.parts.Subperm history.arrived
      ∧ r.parts.length = min shape.room.toNat history.arrived.length
      ∧ (history.Unmerged → Part.BestOf history.arrived r.parts))
    ∧ ∀ left right : Construction, ∀ x ∈ (left.run s).records, ∀ y ∈ (right.run s).records,
      x.toAddress = y.toAddress → ∀ c ∈ [union left right, intersect left right],
        ∃ r ∈ (c.run s).records, r.toAddress = x.toAddress
          ∧ r.parts = x.parts ++ y.parts.take (shape.room.toNat - x.parts.length)
  := by
  obtain ⟨-, rfl⟩ := RecordSet.ofShape_eq_ok_iff.mp h
  have hs : (RecordSet.empty shape).WellFormed := .ofShape h
  constructor
  · intro c r hr
    have hget := (Record.get?_eq_some_iff (wellFormed_run hs c).holds.distinct).mpr ⟨hr, rfl⟩
    have hparts := parts_run hs rfl c r.toAddress
    rw [hget] at hparts
    obtain ⟨history, hhistory, hkept⟩ := Option.map_eq_some_iff.mp hparts.symm
    have hkept : r.parts = history.kept shape.room.toNat := hkept.symm
    use history, hhistory
    rw [hkept]
    use history.kept_subperm, history.length_kept
    intro hunmerged
    rw [hunmerged.kept_eq]
    apply Part.bestOf_take_inOrder
  · intro left right x hx y hy hxy c hc
    apply exists_merged hs left right hx hy hxy hc

/-- A set of one hit and one of three, where there is room for two of them. -/
theorem kept_parts_three :
  let shape : Shape := ⟨.perDocument, .perSection, 2⟩
  let left := add start ⟨.number 7, 1, 0⟩ 1
  let right := add (add (add start ⟨.number 7, 2, 0⟩ 7) ⟨.number 7, 3, 0⟩ 9) ⟨.number 7, 4, 0⟩ 8
  RecordSet.ofShape shape = .ok (.empty shape)
    ∧ Part.BestOf [⟨2, 0, 7⟩, ⟨3, 0, 9⟩, ⟨4, 0, 8⟩] [⟨3, 0, 9⟩, ⟨4, 0, 8⟩]
    ∧ ∃ r ∈ ((union left right).run (.empty shape)).records, r.parts = [⟨1, 0, 1⟩, ⟨3, 0, 9⟩]
  := by
  intro shape left right
  have hshape : RecordSet.ofShape shape = .ok (.empty shape) := rfl
  obtain ⟨hkept, hmerged⟩ := kept_parts hshape
  have hx : ⟨⟨.number 7, 0, 0⟩, 1, 1, [⟨1, 0, 1⟩]⟩ ∈ (left.run (.empty shape)).records := by decide
  have hy : ⟨⟨.number 7, 0, 0⟩, 24, 3, [⟨3, 0, 9⟩, ⟨4, 0, 8⟩]⟩
      ∈ (right.run (.empty shape)).records := by decide
  refine ⟨hshape, ?_, ?_⟩
  · obtain ⟨history, hhistory, -, -, hbest⟩ := hkept right _ hy
    obtain rfl := Option.some.inj hhistory
    exact hbest trivial
  · obtain ⟨r, hr, -, hparts⟩ := hmerged left right _ hx _ hy rfl _ List.mem_cons_self
    exact ⟨r, hr, hparts⟩

/-- When records are merged, the best hits may come last, and a better hit than one that is kept may
be dropped. -/
theorem union_unordered :
  let shape : Shape := ⟨.perDocument, .perSection, 2⟩
  let c := union (add start ⟨.number 7, 1, 0⟩ 1)
    (add (add start ⟨.number 7, 2, 0⟩ 9) ⟨.number 7, 3, 0⟩ 8)
  let kept : List Part := [⟨1, 0, 1⟩, ⟨2, 0, 9⟩]
  RecordSet.ofShape shape = .ok (.empty shape)
    ∧ (c.run (.empty shape)).records = [⟨⟨.number 7, 0, 0⟩, 18, 3, kept⟩]
    ∧ (c.history (.empty shape) ⟨.number 7, 0, 0⟩).map History.arrived
      = some (kept ++ [⟨3, 0, 8⟩])
    ∧ ¬ (kept.Pairwise fun p q => q.score ≤ p.score)
    ∧ ¬ ∀ p ∈ kept, (8 : Score) ≤ p.score
  := by
  intro shape c kept
  exact ⟨rfl, by decide, by decide, by decide, by decide⟩

end Construction

end Retrieval
