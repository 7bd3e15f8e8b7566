import Mathlib.Algebra.Order.BigOperators.Group.List
import Retrieval.Proofs.RecordSet.History

/-!
# Merging in any order

Merging records is associative as long as no score leaves its range: the number of hits stops at the
end of its range wherever the sum is started, and the parts that are kept are the first ones of all.
A list of records at distinct addresses is given by the order of the addresses and by what stands at
each of them. Hence unions may be bracketed in either way, and so may intersections, which are what
a union holds of the shared documents. Which of two sets comes first makes a difference to the order
of the records and to the parts that they keep only.
-/

namespace Retrieval

/-! ### First occurrences -/

section firstOccurrences

variable {α : Type} [BEq α] [LawfulBEq α]

theorem eraseDups_eraseDups_append (l₁ l₂ : List α) :
  (l₁.eraseDups ++ l₂).eraseDups = (l₁ ++ l₂).eraseDups
  := eraseDups_append_congr (eraseDups_of_nodup (nodup_eraseDups l₁)) rfl

theorem eraseDups_append_eraseDups (l₁ l₂ : List α) :
  (l₁ ++ l₂.eraseDups).eraseDups = (l₁ ++ l₂).eraseDups
  := eraseDups_append_congr rfl (eraseDups_of_nodup (nodup_eraseDups l₂))

end firstOccurrences

/-! ### Merging two records -/

namespace Score

theorem plus_comm (a b : Score) :
  a.plus b = b.plus a
  := by
  rw [plus, plus, Int.add_comm]

/-- Scores may be added up from either end if their sizes do not leave the range. -/
theorem plus_assoc {a b c : Score}
    (h : a.toInt.natAbs + b.toInt.natAbs + c.toInt.natAbs ≤ Int32.maxValue.toInt.toNat) :
  (a.plus b).plus c = a.plus (b.plus c)
  := by
  have hab : (a.plus b).toInt = a.toInt + b.toInt := Record.toInt_plus (by omega)
  have hbc : (b.plus c).toInt = b.toInt + c.toInt := Record.toInt_plus (by omega)
  rw [plus, hab, plus, hbc, Int.add_assoc]

end Score

namespace Record

theorem addHits_comm (m n : UInt32) :
  addHits m n = addHits n m
  := by
  rw [addHits, addHits, Nat.add_comm]

theorem toNat_addHits (m n : UInt32) :
  (addHits m n).toNat = min (m.toNat + n.toNat) (UInt32.size - 1)
  := by
  apply UInt32.toNat_ofNat_of_lt'
  rw [UInt32.size]
  omega

theorem addHits_assoc (m n k : UInt32) :
  addHits (addHits m n) k = addHits m (addHits n k)
  := by
  rw [← UInt32.toNat_inj, toNat_addHits, toNat_addHits, toNat_addHits, toNat_addHits]
  omega

/-- What is kept of the parts of three records are the first ones of all of them. -/
theorem append_take_take (room : Nat) (l₁ l₂ l₃ : List Part) :
  (l₁ ++ l₂.take (room - l₁.length))
      ++ l₃.take (room - (l₁ ++ l₂.take (room - l₁.length)).length)
    = l₁ ++ (l₂ ++ l₃.take (room - l₂.length)).take (room - l₁.length)
  := by
  have hleft : min (room - l₁.length - l₂.length) (room - l₂.length)
      = room - (l₁.length + min (room - l₁.length) l₂.length) := by omega
  rw [List.take_append, List.take_take, List.append_assoc, List.length_append, List.length_take,
    hleft]

/-- The size of the score of the record at an address, which is zero if there is none. -/
def sizeAt (a : Address) (records : List Record) : Nat :=
  (get? a records).elim 0 fun r => r.score.toInt.natAbs

variable {a : Address} {room : Nat}

theorem sizeAt_le_sum (a : Address) (records : List Record) :
  sizeAt a records ≤ (records.map fun r => r.score.toInt.natAbs).sum
  := by
  rw [sizeAt]
  cases hr : get? a records with
  | none => apply Nat.zero_le
  | some r =>
    apply List.le_sum_of_mem
    apply List.mem_map_of_mem (mem_of_get?_eq_some hr).1

/-- Three records may be merged from either end if no score leaves its range. -/
theorem merge_assoc {x y z : Record}
    (h : x.score.toInt.natAbs + y.score.toInt.natAbs + z.score.toInt.natAbs
      ≤ Int32.maxValue.toInt.toNat) :
  merge room z (merge room y x) = merge room (merge room z y) x
  := by
  simp only [merge, Score.plus_assoc h, addHits_assoc, append_take_take]

/-! ### Records that are given by their addresses -/

/-- What a record says about its hits apart from its parts. -/
def entry (r : Record) : Address × Score × UInt32 :=
  (r.toAddress, r.score, r.hits)

/-- Which of two records at an address is merged into the other one makes a difference to the parts
only. -/
theorem map_entry_merge_comm {x y : Option Record} (hx : ∀ r ∈ x, r.toAddress = a)
    (hy : ∀ r ∈ y, r.toAddress = a) :
  (Option.merge (fun r x => merge room x r) x y).map entry
    = (Option.merge (fun r x => merge room x r) y x).map entry
  := by
  cases x with
  | none => cases y <;> rfl
  | some x =>
    cases y with
    | none => rfl
    | some y =>
      have hxy : x.toAddress = y.toAddress := (hx x rfl).trans (hy y rfl).symm
      simp [merge, entry, hxy, Score.plus_comm x.score, addHits_comm x.hits]

variable {l₁ l₂ : List Record}

/-- Records at distinct addresses are given by the order of the addresses and by what stands at each
of them. -/
theorem eq_of_get?_eq (distinct : (addresses l₁).Nodup) (haddresses : addresses l₁ = addresses l₂)
    (hget : ∀ a, get? a l₁ = get? a l₂) :
  l₁ = l₂
  := by
  induction l₁ generalizing l₂ with
  | nil =>
    symm
    apply List.map_eq_nil_iff.mp haddresses.symm
  | cons r₁ l₁ ih =>
    cases l₂ with
    | nil => cases haddresses
    | cons r₂ l₂ =>
      obtain ⟨hr, hl⟩ := List.cons.inj haddresses
      obtain ⟨hr₁, htail⟩ := List.nodup_cons.mp distinct
      -- The tails hold nothing at the address of the heads, so the heads can be told from them.
      have hnone₁ : get? r₁.toAddress l₁ = none := get?_eq_none_iff.mpr hr₁
      have hnone₂ : get? r₁.toAddress l₂ = none := get?_eq_none_iff.mpr fun h => hr₁ (hl.symm ▸ h)
      have hhead := hget r₁.toAddress
      rw [get?_cons, get?_cons, hnone₁, hnone₂, if_pos rfl, if_pos hr.symm] at hhead
      obtain rfl : r₁ = r₂ := Option.some.inj hhead
      congr 1
      apply ih htail hl
      intro a
      by_cases ha : r₁.toAddress = a
      · rw [← ha, hnone₁, hnone₂]
      · have h := hget a
        rw [get?_cons, get?_cons, if_neg ha, Option.or_none, Option.or_none] at h
        apply h

theorem mem_map_entry_iff (distinct : (addresses l₁).Nodup) {e : Address × Score × UInt32} :
  e ∈ l₁.map entry ↔ (get? e.1 l₁).map entry = some e
  := by
  rw [List.mem_map, Option.map_eq_some_iff]
  constructor
  · rintro ⟨r, hr, rfl⟩
    exact ⟨r, (get?_eq_some_iff distinct).mpr ⟨hr, rfl⟩, rfl⟩
  · rintro ⟨r, hr, he⟩
    exact ⟨r, (mem_of_get?_eq_some hr).1, he⟩

theorem nodup_map_entry (distinct : (addresses l₁).Nodup) :
  (l₁.map entry).Nodup
  := by
  apply List.Nodup.of_map Prod.fst
  rw [List.map_map]
  apply distinct

/-- Lists of records that say the same at each address say the same up to order. -/
theorem perm_map_entry (distinct₁ : (addresses l₁).Nodup) (distinct₂ : (addresses l₂).Nodup)
    (h : ∀ a, (get? a l₁).map entry = (get? a l₂).map entry) :
  (l₁.map entry).Perm (l₂.map entry)
  := by
  apply (List.perm_ext_iff_of_nodup (nodup_map_entry distinct₁) (nodup_map_entry distinct₂)).mpr
  intro e
  rw [mem_map_entry_iff distinct₁, mem_map_entry_iff distinct₂, h]

end Record

namespace Shape.Holds

variable {shape : Shape} {records others : List Record}

/-- The addresses of merged records are those of the first list and then the new ones of the
second. -/
theorem addresses_mergeRecords (h : shape.Holds others)
    (distinct : (Record.addresses records).Nodup) :
  Record.addresses (others.foldl (RecordSet.mergeRecord shape) records)
    = (Record.addresses records ++ Record.addresses others).eraseDups
  := by
  induction others generalizing records with
  | nil =>
    rw [Record.addresses_nil, List.append_nil]
    exact (eraseDups_of_nodup distinct).symm
  | cons r others ih =>
    have hplace : r.toAddress.project shape.unit = r.toAddress := h.projected r List.mem_cons_self
    have hmerged : Record.addresses (RecordSet.mergeRecord shape records r)
        = if r.toAddress ∈ Record.addresses records then Record.addresses records
          else Record.addresses records ++ [r.toAddress] := by
      rw [RecordSet.mergeRecord, hplace]
      apply Record.addresses_upsert
      · intro x
        rfl
      · rfl
    have hdistinct : (Record.addresses (RecordSet.mergeRecord shape records r)).Nodup := by
      apply Record.nodup_addresses_upsert _ _ distinct
      · intro x
        rfl
      · rfl
    rw [List.foldl_cons, ih (h.sublist (List.sublist_cons_self r others)) hdistinct, hmerged,
      Record.addresses_cons, List.append_cons _ _ (Record.addresses others)]
    apply eraseDups_append_congr _ rfl
    split
    · rename_i hmem
      exact (Record.eraseDups_append_of_mem hmem).symm
    · rfl

end Shape.Holds

/-! ### Three sets -/

namespace RecordSet

variable {s t u : RecordSet}

theorem addresses_union (hs : s.WellFormed) (ht : s.shape.Holds t.records) :
  Record.addresses (s.union t).records
    = (Record.addresses s.records ++ Record.addresses t.records).eraseDups
  := ht.addresses_mergeRecords hs.holds.distinct

/-- Keeping documents that both sets have, a union keeps what an intersection keeps. -/
theorem filter_intersect {p : Key → Bool} (hp : ∀ key, p key = true → key ∈ s.keys ∧ key ∈ t.keys) :
  (s.intersect t).records.filter (fun r => p r.key)
    = (s.union t).records.filter fun r => p r.key
  := by
  rw [← filter_union_both, List.filter_filter]
  apply List.filter_congr
  intro r _
  cases hr : p r.key with
  | false => rfl
  | true => simp [hp r.key hr]

/-- An intersection is what a union holds of the documents that both sets have. -/
theorem records_intersect {p : Key → Bool}
    (hp : ∀ key, p key = true ↔ key ∈ s.keys ∧ key ∈ t.keys) :
  (s.intersect t).records = (s.union t).records.filter fun r => p r.key
  := by
  rw [← filter_union_both]
  apply List.filter_congr
  intro r _
  rw [Bool.eq_iff_iff, decide_eq_true_iff, hp]

section associative

variable (hs : s.WellFormed) (ht : t.WellFormed) (hu : u.WellFormed) (hst : s.shape = t.shape)
  (htu : t.shape = u.shape)
  (hsizes : ∀ a, Record.sizeAt a s.records + Record.sizeAt a t.records + Record.sizeAt a u.records
    ≤ Int32.maxValue.toInt.toNat)

include hs ht hu hst htu hsizes

theorem union_assoc :
  (s.union t).union u = s.union (t.union u)
  := by
  have hholdst : s.shape.Holds t.records := hst ▸ ht.holds
  have hholdsu : t.shape.Holds u.records := htu ▸ hu.holds
  have hholdsu' : s.shape.Holds u.records := hst ▸ hholdsu
  have hholdstu : s.shape.Holds (t.union u).records := hst ▸ (ht.union u).holds
  have hroom : t.room = s.room := by rw [room, room, hst]
  have hroom' : (s.union t).room = s.room := rfl
  change ofRecords s.shape ((s.union t).union u).records
    = ofRecords s.shape (s.union (t.union u)).records
  congr 1
  apply Record.eq_of_get?_eq ((hs.union t).union u).holds.distinct
  · rw [addresses_union (hs.union t) hholdsu', addresses_union hs hholdst,
      addresses_union hs hholdstu, addresses_union ht hholdsu]
    rw [eraseDups_eraseDups_append, eraseDups_append_eraseDups, List.append_assoc]
  · intro a
    have hsize := hsizes a
    rw [Record.sizeAt, Record.sizeAt, Record.sizeAt] at hsize
    rw [get?_records_union (s := s.union t) hholdsu', get?_records_union hholdst,
      get?_records_union hholdstu, get?_records_union hholdsu, hroom, hroom']
    cases hx : Record.get? a s.records with
    | none => simp
    | some x =>
      cases hy : Record.get? a t.records with
      | none => simp
      | some y =>
        cases hz : Record.get? a u.records with
        | none => simp
        | some z =>
          rw [hx, hy, hz] at hsize
          exact congrArg some (Record.merge_assoc hsize)

/-- Three sets meet in what their union holds of the documents of all three. -/
theorem intersect_assoc :
  (s.intersect t).intersect u = s.intersect (t.intersect u)
  := by
  -- Either side is what the union of all three holds of the documents that they share.
  let shared (key : Key) : Bool := key ∈ s.keys ∧ key ∈ t.keys ∧ key ∈ u.keys
  have hshared : ∀ {key}, shared key = true ↔ key ∈ s.keys ∧ key ∈ t.keys ∧ key ∈ u.keys :=
    decide_eq_true_iff
  have hleft : ((s.intersect t).intersect u).records
      = ((s.union t).union u).records.filter fun r => shared r.key := by
    rw [records_intersect (p := shared), filter_union _ u shared, filter_intersect (p := shared),
      filter_union _ u shared]
    · rfl
    · intro key hkey
      exact ⟨(hshared.mp hkey).1, (hshared.mp hkey).2.1⟩
    · intro key
      rw [keys_intersect, hshared, Set.mem_inter_iff, and_assoc]
  have hright : (s.intersect (t.intersect u)).records
      = (s.union (t.union u)).records.filter fun r => shared r.key := by
    rw [records_intersect (p := shared), filter_union s _ shared, filter_intersect (p := shared),
      filter_union s _ shared]
    · intro key hkey
      exact (hshared.mp hkey).2
    · intro key
      rw [keys_intersect, hshared, Set.mem_inter_iff]
  change ofRecords s.shape ((s.intersect t).intersect u).records
    = ofRecords s.shape (s.intersect (t.intersect u)).records
  rw [hleft, hright, union_assoc hs ht hu hst htu hsizes]

end associative

/-! ### Two sets -/

section commutative

variable (hs : s.WellFormed) (ht : t.WellFormed) (hst : s.shape = t.shape)

include hs ht hst

theorem perm_entry_union :
  ((s.union t).records.map Record.entry).Perm ((t.union s).records.map Record.entry)
  := by
  have hroom : t.room = s.room := by rw [room, room, hst]
  apply Record.perm_map_entry (hs.union t).holds.distinct (ht.union s).holds.distinct
  intro a
  rw [get?_records_union (hst ▸ ht.holds), get?_records_union (hst ▸ hs.holds), hroom]
  apply Record.map_entry_merge_comm (a := a)
  · intro r hr
    apply (Record.mem_of_get?_eq_some hr).2
  · intro r hr
    apply (Record.mem_of_get?_eq_some hr).2

theorem perm_entry_intersect :
  ((s.intersect t).records.map Record.entry).Perm ((t.intersect s).records.map Record.entry)
  := by
  have hfilter : ∀ s t : RecordSet, (s.intersect t).records.map Record.entry
      = ((s.union t).records.map Record.entry).filter
          fun e => e.1.key ∈ s.keys ∧ e.1.key ∈ t.keys := by
    intro s t
    rw [← filter_union_both, List.filter_map]
    rfl
  rw [hfilter s t, hfilter t s]
  simp only [and_comm (a := _ ∈ t.keys)]
  apply (perm_entry_union hs ht hst).filter

end commutative

open RecordStore (Reachable)

/-- Unions and intersections of sets of one shape that operations have made. Three sets may be united
or met in either order of brackets, with the same records in the same order, if for each address the
sizes of its scores add up to a score. Two sets may be united or met in either order, with the same
addresses, scores and numbers of hits. -/
theorem union_intersect_assoc_comm (hs : Reachable s) (ht : Reachable t) (hu : Reachable u)
    (hst : s.shape = t.shape) (htu : t.shape = u.shape)
    (hsizes : ∀ a, Record.sizeAt a s.records + Record.sizeAt a t.records
      + Record.sizeAt a u.records ≤ Int32.maxValue.toInt.toNat) :
  (s.union t).union u = s.union (t.union u)
    ∧ (s.intersect t).intersect u = s.intersect (t.intersect u)
    ∧ ((s.union t).records.map Record.entry).Perm ((t.union s).records.map Record.entry)
    ∧ ((s.intersect t).records.map Record.entry).Perm ((t.intersect s).records.map Record.entry)
  := by
  have hs' := hs.wellFormed
  have ht' := ht.wellFormed
  have hu' := hu.wellFormed
  exact ⟨union_assoc hs' ht' hu' hst htu hsizes, intersect_assoc hs' ht' hu' hst htu hsizes,
    perm_entry_union hs' ht' hst, perm_entry_intersect hs' ht' hst⟩

/-- Three sets by section with room for one part. The first two have different sections of one document
besides a common one. -/
theorem union_intersect_assoc_comm_sections :
  let empty : RecordSet := .empty ⟨.perSection, .perPosition, 1⟩
  let s := ((empty.add ⟨.number 7, 1, 4⟩ 5).add ⟨.number 7, 2, 9⟩ (-3)).add ⟨.number 8, 1, 0⟩ 2
  let t := ((empty.add ⟨.number 7, 2, 6⟩ 1).add ⟨.number 7, 3, 0⟩ 4).add ⟨.number 9, 1, 0⟩ 1
  let u := (empty.add ⟨.number 7, 2, 0⟩ 8).add ⟨.number 8, 1, 3⟩ 6
  Reachable s ∧ Reachable t ∧ Reachable u ∧ s.shape = t.shape ∧ t.shape = u.shape
    ∧ (∀ a, Record.sizeAt a s.records + Record.sizeAt a t.records + Record.sizeAt a u.records
      ≤ Int32.maxValue.toInt.toNat)
    ∧ (s.union t).union u = s.union (t.union u)
    ∧ (s.intersect t).intersect u = s.intersect (t.intersect u)
    ∧ ((s.union t).records.map Record.entry).Perm ((t.union s).records.map Record.entry)
    ∧ ((s.intersect t).records.map Record.entry).Perm ((t.intersect s).records.map Record.entry)
    ∧ Record.addresses ((s.intersect t).intersect u).records
      = [⟨.number 7, 1, 0⟩, ⟨.number 7, 2, 0⟩, ⟨.number 7, 3, 0⟩]
    ∧ Record.addresses (t.intersect s).records
      = [⟨.number 7, 2, 0⟩, ⟨.number 7, 3, 0⟩, ⟨.number 7, 1, 0⟩]
  := by
  intro empty s t u
  have hempty : Reachable empty := .ofShape (rfl : ofShape ⟨.perSection, .perPosition, 1⟩ = _)
  have hs : Reachable s := ((hempty.add _ _).add _ _).add _ _
  have ht : Reachable t := ((hempty.add _ _).add _ _).add _ _
  have hu : Reachable u := (hempty.add _ _).add _ _
  have hsizes : ∀ a, Record.sizeAt a s.records + Record.sizeAt a t.records
      + Record.sizeAt a u.records ≤ Int32.maxValue.toInt.toNat := by
    intro a
    have hle := Nat.add_le_add (Nat.add_le_add (Record.sizeAt_le_sum a s.records)
      (Record.sizeAt_le_sum a t.records)) (Record.sizeAt_le_sum a u.records)
    apply hle.trans
    decide
  obtain ⟨hunion, hintersect, hunions, hintersects⟩ :=
    union_intersect_assoc_comm hs ht hu rfl rfl hsizes
  exact ⟨hs, ht, hu, rfl, rfl, hsizes, hunion, hintersect, hunions, hintersects, by decide,
    by decide⟩

end RecordSet

end Retrieval
