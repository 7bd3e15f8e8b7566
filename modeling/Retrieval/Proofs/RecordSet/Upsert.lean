import Retrieval.RecordSet.Basic
import Mathlib.Data.List.Nodup
import Mathlib.Tactic.Tauto
import Mathlib.Tactic.Use

/-!
# Changing one record of a list

`Record.upsert` changes the record at an address, or puts a new one at the end. Its laws are
stated through the addresses of a list: what an upsert does to them, and, where they are
distinct, what it does to the records.
-/

namespace Retrieval.Record

/-- The addresses of records, in their order. -/
def addresses (records : List Record) : List Address :=
  records.map toAddress

variable {a : Address} {change : Record → Record} {fresh : Record} {records : List Record}

@[simp]
theorem addresses_nil :
  addresses [] = []
  := rfl

@[simp]
theorem addresses_cons (r : Record) (records : List Record) :
  addresses (r :: records) = r.toAddress :: addresses records
  := rfl

@[simp]
theorem addresses_append (l₁ l₂ : List Record) :
  addresses (l₁ ++ l₂) = addresses l₁ ++ addresses l₂
  := List.map_append

/-- What keeps the address of a record keeps the addresses of all of them. -/
theorem addresses_map {f : Record → Record} (hf : ∀ r, (f r).toAddress = r.toAddress)
    (records : List Record) :
  addresses (records.map f) = addresses records
  := by
  rw [addresses, List.map_map]
  apply List.map_congr_left
  intro r _
  apply hf

theorem addresses_modify {change : Record → Record}
    (hchange : ∀ r, (change r).toAddress = r.toAddress) (i : Nat) (records : List Record) :
  addresses (records.modify i change) = addresses records
  := by
  apply List.ext_getElem?
  intro j
  simp only [addresses, List.getElem?_map, List.getElem?_modify]
  split
  · simp [Function.comp_def, hchange]
  · simp

/-! ### The place of an address -/

/-- The place of an address depends on the addresses of the records only. -/
theorem place?_congr {l₁ l₂ : List Record} (h : addresses l₁ = addresses l₂) (a : Address) :
  place? a l₁ = place? a l₂
  := by
  induction l₁ generalizing l₂ with
  | nil =>
    obtain rfl := List.map_eq_nil_iff.mp h.symm
    rfl
  | cons r₁ l₁ ih =>
    cases l₂ with
    | nil => cases h
    | cons r₂ l₂ =>
      obtain ⟨hr, hl⟩ := List.cons.inj h
      rw [place?, place?, ih hl, hr]

theorem place?_append_singleton (a : Address) (records : List Record) (r : Record) :
  place? a (records ++ [r]) = if a = r.toAddress then some records.length else place? a records
  := by
  induction records with
  | nil => simp [place?, eq_comm]
  | cons x records ih =>
    rw [List.cons_append, place?, ih, place?]
    by_cases ha : a = r.toAddress
    · simp [ha]
    · simp [ha]

theorem place?_eq_none_iff :
  place? a records = none ↔ a ∉ addresses records
  := by
  induction records with
  | nil => simp [place?]
  | cons r records ih =>
    rw [addresses_cons, List.mem_cons, not_or, ← ih, place?]
    cases place? a records with
    | none => simp [eq_comm]
    | some i => simp

/-- At the place of an address stands a record of that address. -/
theorem getElem?_of_place? {i : Nat} (h : place? a records = some i) :
  (records[i]?).map toAddress = some a
  := by
  induction records generalizing i with
  | nil => cases h
  | cons r records ih =>
    rw [place?] at h
    split at h
    · rename_i j hj
      obtain rfl := Option.some.inj h
      apply ih hj
    · split at h
      · rename_i hr
        obtain rfl := Option.some.inj h
        simp [hr]
      · cases h

/-- Where addresses are distinct, the place of an address is the only one with a record of that
address. -/
theorem place?_eq_some_iff (distinct : (addresses records).Nodup) {i : Nat} :
  place? a records = some i ↔ (records[i]?).map toAddress = some a
  := by
  refine ⟨getElem?_of_place?, fun h => ?_⟩
  cases hp : place? a records with
  | none =>
    obtain ⟨r, hr, rfl⟩ := Option.map_eq_some_iff.mp h
    have hmem := List.mem_map_of_mem (f := toAddress) (List.mem_of_getElem? hr)
    apply absurd hmem (place?_eq_none_iff.mp hp)
  | some j =>
    have hj := getElem?_of_place? hp
    rw [← List.getElem?_map] at h hj
    have hi : i < (addresses records).length := (List.getElem?_eq_some_iff.mp h).1
    congr 1
    symm
    apply (List.getElem?_inj hi distinct).mp (h.trans hj.symm)

theorem get?_eq_none_iff :
  get? a records = none ↔ a ∉ addresses records
  := by
  rw [← place?_eq_none_iff, get?]
  cases h : place? a records with
  | none => simp
  | some i =>
    obtain ⟨r, hr, -⟩ := Option.map_eq_some_iff.mp (getElem?_of_place? h)
    simp [hr]

theorem mem_of_get?_eq_some {r : Record} (h : get? a records = some r) :
  r ∈ records ∧ r.toAddress = a
  := by
  obtain ⟨i, hi, hr⟩ := Option.bind_eq_some_iff.mp h
  have ha := getElem?_of_place? hi
  rw [hr] at ha
  exact ⟨List.mem_of_getElem? hr, Option.some.inj ha⟩

/-- Where addresses are distinct, looking for an address is looking for any record of it. -/
theorem get?_eq_some_iff (distinct : (addresses records).Nodup) {r : Record} :
  get? a records = some r ↔ r ∈ records ∧ r.toAddress = a
  := by
  refine ⟨mem_of_get?_eq_some, ?_⟩
  rintro ⟨hr, rfl⟩
  obtain ⟨i, hi⟩ := List.mem_iff_getElem?.mp hr
  have hp := (place?_eq_some_iff (a := r.toAddress) distinct (i := i)).mpr (by rw [hi]; rfl)
  simp [get?, hp, hi]

/-- Where addresses are distinct, at most one record is of an address. -/
theorem filter_toAddress_eq (distinct : (addresses records).Nodup) :
  (records.filter fun r => r.toAddress = a) = (records.find? fun r => r.toAddress = a).toList
  := by
  induction records with
  | nil => rfl
  | cons r records ih =>
    obtain ⟨hr, htail⟩ := List.nodup_cons.mp distinct
    by_cases ha : r.toAddress = a
    · have hnone : (records.filter fun r => r.toAddress = a) = [] := by
        rw [List.filter_eq_nil_iff]
        intro x hx hxa
        apply hr
        rw [ha, ← of_decide_eq_true hxa]
        apply List.mem_map_of_mem hx
      simp [ha, hnone]
    · simp [ha, ih htail]

/-! ### The addresses after an upsert -/

/-- An upsert keeps the addresses, or adds one at the end. -/
theorem addresses_upsert (hchange : ∀ r, (change r).toAddress = r.toAddress)
    (hfresh : fresh.toAddress = a) :
  addresses (upsert a change fresh records)
    = if a ∈ addresses records then addresses records else addresses records ++ [a]
  := by
  rw [upsert]
  cases hp : place? a records with
  | none =>
    rw [if_neg (place?_eq_none_iff.mp hp)]
    simp [hfresh]
  | some i =>
    have hmem : a ∈ addresses records := by
      by_contra hn
      rw [place?_eq_none_iff.mpr hn] at hp
      cases hp
    rw [if_pos hmem]
    apply addresses_modify hchange

theorem nodup_addresses_upsert (hchange : ∀ r, (change r).toAddress = r.toAddress)
    (hfresh : fresh.toAddress = a) (distinct : (addresses records).Nodup) :
  (addresses (upsert a change fresh records)).Nodup
  := by
  rw [addresses_upsert hchange hfresh]
  split
  · apply distinct
  · rename_i hn
    apply List.nodup_append'.mpr
    use distinct, List.nodup_singleton a
    rw [List.disjoint_singleton]
    apply hn

/-- A record after an upsert was there, or is a changed one, or is the new one. -/
theorem mem_upsert {x : Record} (h : x ∈ upsert a change fresh records) :
  x ∈ records ∨ (∃ r ∈ records, r.toAddress = a ∧ x = change r) ∨ x = fresh
  := by
  rw [upsert] at h
  split at h
  · rename_i i hi
    obtain ⟨j, hj⟩ := List.mem_iff_getElem?.mp h
    rw [List.getElem?_modify] at hj
    split at hj
    · rename_i hij
      obtain ⟨r, hr, rfl⟩ := Option.map_eq_some_iff.mp hj
      have ha := getElem?_of_place? hi
      rw [hij, hr] at ha
      exact .inr (.inl ⟨r, List.mem_of_getElem? hr, Option.some.inj ha, rfl⟩)
    · exact .inl (List.mem_of_getElem? (by simpa using hj))
  · rcases List.mem_append.mp h with h | h
    · exact .inl h
    · exact .inr (.inr (List.mem_singleton.mp h))

/-! ### Lookups after a change -/

/-- Looking for an address in a list with one more record in front. -/
theorem get?_cons (r : Record) (records : List Record) :
  get? a (r :: records)
    = (get? a records).or (if r.toAddress = a then some r else none)
  := by
  rw [get?, place?]
  cases hp : place? a records with
  | some i =>
    obtain ⟨x, hx, -⟩ := Option.map_eq_some_iff.mp (getElem?_of_place? hp)
    simp [get?, hp, hx]
  | none =>
    by_cases hr : r.toAddress = a
    · simp [get?, hp, hr]
    · simp [get?, hp, hr]

/-- What keeps addresses may be done to all records before or after a lookup. -/
theorem get?_map {f : Record → Record} (hf : ∀ r, (f r).toAddress = r.toAddress) :
  get? a (records.map f) = (get? a records).map f
  := by
  rw [get?, place?_congr (addresses_map hf records), get?]
  cases place? a records <;> simp

theorem get?_filter {p : Record → Bool} (distinct : (addresses records).Nodup) :
  get? a (records.filter p) = (get? a records).filter p
  := by
  have hfilter : (addresses (records.filter p)).Nodup :=
    (List.filter_sublist.map _).nodup distinct
  ext r
  rw [get?_eq_some_iff hfilter, Option.filter_eq_some_iff, get?_eq_some_iff distinct,
    List.mem_filter]
  tauto

/-- Keeping the records of some documents keeps what is found at their addresses. -/
theorem get?_filter_key {p : Key → Bool} (distinct : (addresses records).Nodup) :
  get? a (records.filter fun r => p r.key) = if p a.key then get? a records else none
  := by
  rw [get?_filter distinct]
  cases hr : get? a records with
  | none => simp
  | some r =>
    have hkey : r.key = a.key := congrArg Address.key (mem_of_get?_eq_some hr).2
    rw [Option.filter_some, hkey]

/-- After an upsert the record at its address is a changed one or the new one, and those at
other addresses are what they were. -/
theorem get?_upsert (hchange : ∀ r, (change r).toAddress = r.toAddress)
    (hfresh : fresh.toAddress = a) (b : Address) :
  get? b (upsert a change fresh records)
    = if b = a then some ((get? a records).elim fresh change) else get? b records
  := by
  rw [upsert]
  cases hp : place? a records with
  | none =>
    by_cases hb : b = a
    · simp [get?, place?_append_singleton, hp, hb, hfresh]
    · cases hplace : place? b records with
      | none => simp [get?, place?_append_singleton, hb, hfresh, hplace]
      | some j =>
        obtain ⟨x, hx, -⟩ := Option.map_eq_some_iff.mp (getElem?_of_place? hplace)
        have hj : j < records.length := (List.getElem?_eq_some_iff.mp hx).1
        simp [get?, place?_append_singleton, hb, hfresh, hplace, List.getElem?_append_left hj]
  | some i =>
    obtain ⟨r, hr, hra⟩ := Option.map_eq_some_iff.mp (getElem?_of_place? hp)
    have hplace : place? b (records.modify i change) = place? b records :=
      place?_congr (addresses_modify hchange i records) b
    by_cases hb : b = a
    · subst hb
      simp [get?, hplace, hp, hr]
    · cases hj : place? b records with
      | none => simp [get?, hplace, hj, hb]
      | some j =>
        have hij : i ≠ j := by
          rintro rfl
          apply hb
          have hxb := getElem?_of_place? hj
          rw [hr] at hxb
          rw [← hra, ← Option.some.inj hxb]
        simp [get?, hplace, hj, hb, hij]

end Retrieval.Record
