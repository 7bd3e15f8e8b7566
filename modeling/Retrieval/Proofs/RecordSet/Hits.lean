import Mathlib.Data.List.Sort
import Retrieval.Proofs.RecordSet.Totals

/-!
# What hits make of a record

Hits that fall on one record are added up one after another: their scores are summed, they are
counted, and as many of them as there is room for are kept in order. A part is put after those that
are no worse, and what then does not fit is dropped. This is what sorting all parts and keeping the
first of them gives, since what is dropped once would be dropped at the end as well.
-/

namespace Retrieval

/-! ### First occurrences -/

section firstOccurrences

variable {α : Type} [BEq α] [LawfulBEq α]

/-- What comes for the first time at the end comes last. -/
theorem eraseDups_append_of_notMem {l : List α} {b : α} (h : b ∉ l) :
  (l ++ [b]).eraseDups = l.eraseDups ++ [b]
  := by
  rw [List.eraseDups_append, List.removeAll, List.filter_cons_of_pos (by simp [h])]
  rfl

theorem nodup_eraseDups (l : List α) :
  l.eraseDups.Nodup
  := by
  induction l using List.reverseRecOn with
  | nil => simp
  | append_singleton l b ih =>
    by_cases hb : b ∈ l
    · rw [Record.eraseDups_append_of_mem hb]
      apply ih
    · rw [eraseDups_append_of_notMem hb, List.nodup_append_comm, List.singleton_append,
        List.nodup_cons, List.mem_eraseDups]
      use hb

end firstOccurrences

/-! ### Stable orders -/

section stable

variable {α : Type} {le : α → α → Bool} (trans : ∀ a b c, le a b → le b c → le a c)
  (total : ∀ a b, le a b || le b a)

/-- The list with one more element, put after those at the start that come no later. -/
def insertLast (le : α → α → Bool) (a : α) (l : List α) : List α :=
  l.insertIdx (l.findIdx fun b => !le b a) a

@[simp]
theorem insertLast_nil (a : α) :
  insertLast le a [] = [a]
  := rfl

theorem insertLast_cons (a b : α) (l : List α) :
  insertLast le a (b :: l) = if le b a then b :: insertLast le a l else a :: b :: l
  := by
  by_cases h : le b a
  · simp [insertLast, List.findIdx_cons, h]
  · simp [insertLast, List.findIdx_cons, h]

theorem perm_insertLast (a : α) (l : List α) :
  (insertLast le a l).Perm (a :: l)
  := List.perm_insertIdx a l List.findIdx_le_length

include trans total

/-- Sorting puts the first element of a list before those that come no earlier. -/
theorem mergeSort_cons_eq_orderedInsert (a : α) (l : List α) :
  (a :: l).mergeSort le = (l.mergeSort le).orderedInsert (le · ·) a
  := by
  obtain ⟨l₁, l₂, hsorted, hl, hbefore⟩ := List.mergeSort_cons trans total a l
  have hpairwise := List.pairwise_mergeSort trans total (a :: l)
  rw [hsorted] at hpairwise
  have hafter := (List.pairwise_cons.mp (List.pairwise_append.mp hpairwise).2.1).1
  rw [hsorted, hl]
  clear hsorted hl hpairwise
  induction l₁ with
  | nil =>
    cases l₂ with
    | nil => rfl
    | cons b l₂ => simp [hafter b List.mem_cons_self]
  | cons b l₁ ih =>
    have hb : le a b = false := by simpa using hbefore b List.mem_cons_self
    have hrest := ih fun c hc => hbefore c (List.mem_cons_of_mem b hc)
    simp [hb, hrest]

/-- One element goes before those that are level with it, the other one after them, so they may be
inserted in either order. -/
theorem orderedInsert_insertLast (a b : α) (l : List α) :
  (insertLast le b l).orderedInsert (le · ·) a = insertLast le b (l.orderedInsert (le · ·) a)
  := by
  induction l with
  | nil => by_cases hab : le a b <;> simp [insertLast_cons, hab]
  | cons c l ih =>
    by_cases hcb : le c b
    · by_cases hac : le a c
      · simp [insertLast_cons, hcb, hac, trans a c b hac hcb]
      · simp [insertLast_cons, hcb, hac, ih]
    · have hbc : le b c = true := by simpa [hcb] using total b c
      by_cases hab : le a b
      · simp [insertLast_cons, hcb, hab, trans a b c hab hbc]
      · by_cases hac : le a c
        · simp [insertLast_cons, hcb, hab, hac]
        · simp [insertLast_cons, hcb, hab, hac]

/-- Sorting puts the last element of a list after those that come no later. -/
theorem mergeSort_append_singleton (a : α) (l : List α) :
  (l ++ [a]).mergeSort le = insertLast le a (l.mergeSort le)
  := by
  induction l with
  | nil => simp
  | cons b l ih =>
    rw [List.cons_append, mergeSort_cons_eq_orderedInsert trans total, ih,
      orderedInsert_insertLast trans total, ← mergeSort_cons_eq_orderedInsert trans total]

omit trans total

/-- What comes after the first `n` elements makes no difference to them. -/
theorem take_insertLast_take (n : Nat) (a : α) (l : List α) :
  (insertLast le a (l.take n)).take n = (insertLast le a l).take n
  := by
  induction l generalizing n with
  | nil => simp
  | cons b l ih =>
    cases n with
    | zero => simp
    | succ n =>
      rw [List.take_succ_cons, insertLast_cons, insertLast_cons]
      split
      · rw [List.take_succ_cons, List.take_succ_cons, ih]
      · rw [List.take_succ_cons, List.take_succ_cons]
        cases n with
        | zero => rfl
        | succ n => simp [List.take_take]

end stable

/-! ### Parts in order -/

namespace Part

/-- Whether a part comes no later than another one in a direction. -/
def noLater (direction : Direction) (p q : Part) : Bool :=
  !direction.before q.score p.score

/-- The parts in a direction, those of one score in the order in which they were. -/
def inOrder (direction : Direction) (parts : List Part) : List Part :=
  parts.mergeSort (noLater direction)

variable {direction : Direction}

theorem noLater_iff {p q : Part} :
  noLater direction p q = true
    ↔ match direction with
      | .descending => q.score ≤ p.score
      | .ascending => p.score ≤ q.score
  := by
  cases direction <;> simp [noLater, Direction.before, Int32.not_lt]

theorem noLater_trans (p q r : Part) :
  noLater direction p q → noLater direction q r → noLater direction p r
  := by
  rw [noLater_iff, noLater_iff, noLater_iff]
  cases direction with
  | descending => exact fun hpq hqr => Int32.le_trans hqr hpq
  | ascending => exact Int32.le_trans

theorem noLater_total (p q : Part) :
  noLater direction p q || noLater direction q p
  := by
  rw [Bool.or_eq_true, noLater_iff, noLater_iff]
  cases direction with
  | descending => apply Int32.le_total
  | ascending => apply Int32.le_total

theorem inOrder_append_singleton (parts : List Part) (p : Part) :
  inOrder direction (parts ++ [p]) = insertLast (noLater direction) p (inOrder direction parts)
  := mergeSort_append_singleton noLater_trans noLater_total p parts

end Part

namespace Record

variable {direction : Direction} {room : Nat}

/-- Where the parts fit, one more of them is inserted, and the last one is dropped if they do not
fit any more. -/
theorem keep_eq {parts : List Part} (h : parts.length ≤ room) (p : Part) :
  keep direction room p parts = (insertLast (Part.noLater direction) p parts).take room
  := by
  have hidx : (parts.findIdx fun q => direction.before p.score q.score)
      = parts.findIdx fun q => !Part.noLater direction q p := by simp [Part.noLater]
  rw [keep, hidx]
  split
  · rename_i hfull
    have hle : (parts.findIdx fun q => !Part.noLater direction q p) ≤ parts.length :=
      List.findIdx_le_length
    have hlast : (parts.findIdx fun q => !Part.noLater direction q p) = parts.length := by omega
    rw [insertLast, hlast, List.insertIdx_length_self,
      List.take_append_of_le_length (by omega), List.take_of_length_le h]
  · rfl

/-- Keeping the first parts and adding one more keeps the first of all of them. -/
theorem keep_take (p : Part) (parts : List Part) :
  keep direction room p ((Part.inOrder direction parts).take room)
    = (Part.inOrder direction (parts ++ [p])).take room
  := by
  rw [keep_eq (List.length_take_le _ _), take_insertLast_take, Part.inOrder_append_singleton]

/-! ### Records of hits -/

/-- The record at an address on which hits have fallen that leave the given parts: the sum of the
scores from the first to the last, the number of hits, and the first of the parts in order. -/
def ofHits (direction : Direction) (room : Nat) (a : Address) (parts : List Part) : Record :=
  { toAddress := a
    score := (parts.map Part.score).foldl Score.plus 0
    hits := UInt32.ofNat parts.length
    parts := (Part.inOrder direction parts).take room }

theorem ofHits_nil (direction : Direction) (room : Nat) (a : Address) :
  ofHits direction room a [] = .ofAddress a 0
  := by simp [ofHits, ofAddress, Part.inOrder]

/-- One more hit. -/
theorem addHit_ofHits (a : Address) (parts : List Part) (p : Part) :
  addHit direction room p (ofHits direction room a parts)
    = ofHits direction room a (parts ++ [p])
  := by
  rw [addHit, ofHits, ofHits, keep_take]
  simp [UInt32.ofNat_add]

/-- An upsert into records, one for each of some addresses. -/
theorem upsert_map {f : Address → Record} (hf : ∀ a, (f a).toAddress = a)
    {change : Record → Record} {fresh : Record} {as : List Address} (distinct : as.Nodup)
    (a : Address) :
  upsert a change fresh (as.map f)
    = if a ∈ as then as.map fun b => if b = a then change (f b) else f b else as.map f ++ [fresh]
  := by
  induction as with
  | nil => simp [upsert, place?]
  | cons b as ih =>
    obtain ⟨hb, htail⟩ := List.nodup_cons.mp distinct
    have haddresses : addresses (as.map f) = as := by simp [addresses, Function.comp_def, hf]
    rw [List.map_cons, upsert_cons, hf, haddresses, ih htail]
    by_cases hba : b = a
    · subst hba
      have hrest : (as.map fun c => if c = b then change (f c) else f c) = as.map f := by
        apply List.map_congr_left
        intro c hc
        rw [if_neg]
        rintro rfl
        exact hb hc
      simp [hb, hrest]
    · have hab : a ≠ b := Ne.symm hba
      by_cases ha : a ∈ as
      · simp [hba, ha]
      · simp [hba, hab, ha]

section collecting

variable {α : Type} (place : α → Address) (part : α → Part)

/-- What the hits at an address leave as parts. -/
def partsAt (hits : List α) (a : Address) : List Part :=
  (hits.filter fun h => place h = a).map part

/-- One record for each address, in the order in which the addresses come first. -/
def collected (direction : Direction) (room : Nat) (hits : List α) : List Record :=
  (hits.map place).eraseDups.map fun a => ofHits direction room a (partsAt place part hits a)

theorem partsAt_append_singleton (hits : List α) (h : α) (a : Address) :
  partsAt place part (hits ++ [h]) a
    = if a = place h then partsAt place part hits a ++ [part h] else partsAt place part hits a
  := by
  by_cases ha : a = place h
  · simp [partsAt, ha]
  · simp [partsAt, ha, Ne.symm ha]

theorem partsAt_of_notMem {hits : List α} {a : Address} (h : a ∉ hits.map place) :
  partsAt place part hits a = []
  := by
  rw [partsAt, List.map_eq_nil_iff, List.filter_eq_nil_iff]
  intro x hx ha
  apply h
  rw [← of_decide_eq_true ha]
  apply List.mem_map_of_mem hx

/-- Adding hits one after another to the records at their addresses. -/
theorem foldl_addHit (hits : List α) :
  hits.foldl (fun records h =>
      let change := addHit direction room (part h)
      upsert (place h) change (change (.ofAddress (place h) 0)) records) []
    = collected place part direction room hits
  := by
  induction hits using List.reverseRecOn with
  | nil => rfl
  | append_singleton hits h ih =>
    rw [List.foldl_append, ih]
    simp only [List.foldl_cons, List.foldl_nil, collected]
    rw [upsert_map (fun _ => rfl) (nodup_eraseDups _), List.map_append, List.map_singleton]
    simp only [List.mem_eraseDups, partsAt_append_singleton]
    split
    · rename_i hmem
      rw [eraseDups_append_of_mem hmem]
      apply List.map_congr_left
      intro a _
      split
      · apply addHit_ofHits
      · rfl
    · rename_i hnew
      have hold : ((hits.map place).eraseDups.map fun a => ofHits direction room a
            (if a = place h then partsAt place part hits a ++ [part h]
              else partsAt place part hits a))
          = (hits.map place).eraseDups.map fun a =>
              ofHits direction room a (partsAt place part hits a) := by
        apply List.map_congr_left
        intro a ha
        rw [if_neg]
        rintro rfl
        exact hnew (List.mem_eraseDups.mp ha)
      rw [eraseDups_append_of_notMem hnew, List.map_append, hold, List.map_singleton, if_pos rfl,
        partsAt_of_notMem place part hnew, ← ofHits_nil direction room,
        addHit_ofHits]

end collecting

end Record

/-! ### Sets of hits -/

namespace RecordSet

/-- Hits that are added to a set leave its cursor before the first record. -/
theorem foldl_add (shape : Shape) (records : List Record) (hits : List (Address × Score)) :
  hits.foldl (fun s h => s.add h.1 h.2) (ofRecords shape records)
    = ofRecords shape (hits.foldl (fun records h =>
        let place := h.1.project shape.unit
        let change := Record.addHit .descending shape.room.toNat
          ((h.1.project shape.partUnit).part h.2)
        Record.upsert place change (change (.ofAddress place 0)) records) records)
  := by
  induction hits generalizing records with
  | nil => rfl
  | cons h hits ih =>
    have hadd : (ofRecords shape records).add h.1 h.2 = ofRecords shape _ :=
      congrArg (RecordSet.mk shape _) (ite_self _)
    rw [List.foldl_cons, hadd, ih]
    rfl

theorem addAll_eq_collected (shape : Shape) (hits : List (Address × Score)) :
  hits.foldl (fun s h => s.add h.1 h.2) (empty shape)
    = ofRecords shape (Record.collected (fun h => h.1.project shape.unit)
        (fun h => (h.1.project shape.partUnit).part h.2) .descending shape.room.toNat hits)
  := by
  rw [empty, foldl_add, ← Record.foldl_addHit]

variable {shape : Shape} {s : RecordSet} {hits : List (Address × Score)}

/-- Hits that are added one after another to a new set are collected in one record for each address
at the granularity of the set, in the order in which the addresses come first. A record has the sum
of the scores of its hits from the first to the last and their number, which does not run over if
there are less than 2³² hits. Its parts are the first of its hits at the granularity of parts, put
in the order of their scores from the best one on, where hits of one score stay in the order in
which they came. -/
theorem addAll_eq (h : ofShape shape = .ok s) (hlength : hits.length < UInt32.size) :
  let placedAt (a : Address) := hits.filter fun h => h.1.project shape.unit = a
  hits.foldl (fun s h => s.add h.1 h.2) s
      = ofRecords shape ((hits.map fun h => h.1.project shape.unit).eraseDups.map fun a =>
          { toAddress := a
            score := ((placedAt a).map Prod.snd).foldl Score.plus 0
            hits := UInt32.ofNat (placedAt a).length
            parts := (((placedAt a).map fun h => (h.1.project shape.partUnit).part h.2).mergeSort
              fun p q => q.score ≤ p.score).take shape.room.toNat })
    ∧ ∀ a, (UInt32.ofNat (placedAt a).length).toNat = (placedAt a).length
  := by
  intro placedAt
  obtain ⟨-, rfl⟩ := ofShape_eq_ok_iff.mp h
  constructor
  · have horder : Part.noLater .descending = fun p q => decide (q.score ≤ p.score) := by
      funext p q
      rw [Bool.eq_iff_iff, Part.noLater_iff, decide_eq_true_iff]
    rw [addAll_eq_collected, Record.collected]
    simp only [Record.ofHits, Record.partsAt, Part.inOrder, horder, List.map_map, List.length_map]
    rfl
  · intro a
    apply UInt32.toNat_ofNat_of_lt'
    apply Nat.lt_of_le_of_lt (List.length_filter_le _ _) hlength

/-- Four hits, of which three fall on one document that has room for two of its sections. -/
theorem addAll_eq_two :
  let shape : Shape := ⟨.perDocument, .perSection, 2⟩
  let hits : List (Address × Score) := [(⟨.number 7, 1, 4⟩, 5), (⟨.number 8, 1, 0⟩, 2),
    (⟨.number 7, 2, 0⟩, 9), (⟨.number 7, 3, 1⟩, 5)]
  ofShape shape = .ok (empty shape) ∧ hits.length < UInt32.size
    ∧ hits.foldl (fun s h => s.add h.1 h.2) (empty shape)
      = ofRecords shape [⟨⟨.number 7, 0, 0⟩, 19, 3, [⟨2, 0, 9⟩, ⟨1, 0, 5⟩]⟩,
        ⟨⟨.number 8, 0, 0⟩, 2, 1, [⟨1, 0, 2⟩]⟩]
    ∧ [⟨2, 0, 9⟩, ⟨1, 0, 5⟩]
      = (((hits.filter fun h => h.1.project .perDocument = ⟨.number 7, 0, 0⟩).map fun h =>
          (h.1.project .perSection).part h.2).mergeSort fun p q => q.score ≤ p.score).take 2
  := by
  intro shape hits
  have hshape : ofShape shape = .ok (empty shape) := rfl
  have hlength : hits.length < UInt32.size := by decide
  obtain ⟨hset, -⟩ := addAll_eq hshape hlength
  have hrecords : hits.foldl (fun s h => s.add h.1 h.2) (empty shape)
      = ofRecords shape [⟨⟨.number 7, 0, 0⟩, 19, 3, [⟨2, 0, 9⟩, ⟨1, 0, 5⟩]⟩,
        ⟨⟨.number 8, 0, 0⟩, 2, 1, [⟨1, 0, 2⟩]⟩] := by decide
  refine ⟨hshape, hlength, hrecords, ?_⟩
  rw [hrecords] at hset
  have hfirst := congrArg (fun s : RecordSet => s.records.head?.map Record.parts) hset
  exact Option.some.inj hfirst

end RecordSet

end Retrieval
