import Retrieval.Proofs.RecordSet.Partition
import Retrieval.RecordSet.Order
import Mathlib.Algebra.BigOperators.Group.List.Basic

/-!
# What records add up to

Records at any granularity are a list of hits in documents, of which some have been added up. What
matters of such a list by document is in which order the documents come first and what the hits of
each of them add up to. Both are kept by merging, meeting, subtracting and grouping records, as
long as no sum leaves the range of scores; then records by section or by position tell the same
about documents as records by document.
-/

namespace Retrieval

/-! ### First occurrences -/

section firstOccurrences

variable {α : Type} [BEq α] [LawfulBEq α]

/-- Which elements come first does not depend on whether some are taken out before or after. -/
theorem eraseDups_filter (p : α → Bool) (l : List α) :
  (l.filter p).eraseDups = l.eraseDups.filter p
  := by
  induction hn : l.length using Nat.strongRecOn generalizing l with
  | ind n ih =>
    cases l with
    | nil => rfl
    | cons a l =>
      have hshorter : (l.filter fun b => !b == a).length < n := by
        have hle := List.length_filter_le (fun b => !b == a) l
        rw [List.length_cons] at hn
        omega
      have hmore := ih _ hshorter (l.filter fun b => !b == a) rfl
      cases hp : p a with
      | true =>
        rw [List.filter_cons_of_pos hp, List.eraseDups_cons, List.eraseDups_cons,
          List.filter_cons_of_pos hp, ← hmore, List.filter_comm]
      | false =>
        have hne : (l.filter fun b => !b == a).filter p = l.filter p := by
          rw [List.filter_filter]
          apply List.filter_congr
          intro b _
          cases hb : b == a with
          | true => simp [eq_of_beq hb, hp]
          | false => simp
        rw [List.filter_cons_of_neg (by simp [hp]), List.eraseDups_cons,
          List.filter_cons_of_neg (by simp [hp]), ← hmore, hne]

/-- What comes first in one list and then in another one. -/
theorem eraseDups_append_congr {l₁ l₂ l₁' l₂' : List α} (h₁ : l₁.eraseDups = l₁'.eraseDups)
    (h₂ : l₂.eraseDups = l₂'.eraseDups) :
  (l₁ ++ l₂).eraseDups = (l₁' ++ l₂').eraseDups
  := by
  have hmem : ∀ a, l₁.elem a = l₁'.elem a := by
    intro a
    rw [Bool.eq_iff_iff, List.elem_iff, List.elem_iff, ← List.mem_eraseDups, h₁,
      List.mem_eraseDups]
  rw [List.eraseDups_append, List.eraseDups_append, List.removeAll, List.removeAll,
    eraseDups_filter, eraseDups_filter, h₁, h₂]
  simp only [hmem]

theorem eraseDups_of_nodup {l : List α} (h : l.Nodup) :
  l.eraseDups = l
  := by
  induction l with
  | nil => rfl
  | cons a l ih =>
    obtain ⟨ha, hl⟩ := List.nodup_cons.mp h
    have hfilter : (l.filter fun b => !b == a) = l := by
      rw [List.filter_eq_self]
      intro b hb
      simp only [Bool.not_eq_true', beq_eq_false_iff_ne]
      rintro rfl
      apply ha hb
    rw [List.eraseDups_cons, hfilter, ih hl]

end firstOccurrences

/-! ### Hits of documents -/

/-- The document of a hit, and its score. -/
abbrev Hit := Key × Score

namespace Hit

variable {M : Type} [AddCommMonoid M] {f : Score → M} {key : Key} {hits more : List Hit}

/-- What is added up of the scores of a document. -/
def sumOf (f : Score → M) (key : Key) (hits : List Hit) : M :=
  ((hits.filter fun h => h.1 = key).map fun h => f h.2).sum

@[simp]
theorem sumOf_nil :
  sumOf f key [] = 0
  := rfl

theorem sumOf_cons (h : Hit) (hits : List Hit) :
  sumOf f key (h :: hits) = (if h.1 = key then f h.2 else 0) + sumOf f key hits
  := by
  by_cases hkey : h.1 = key
  · simp [sumOf, hkey]
  · simp [sumOf, hkey]

@[simp]
theorem sumOf_append :
  sumOf f key (hits ++ more) = sumOf f key hits + sumOf f key more
  := by
  simp [sumOf]

/-- Taking documents out changes nothing about the others. -/
theorem sumOf_filter (p : Key → Bool) :
  sumOf f key (hits.filter fun h => p h.1) = if p key then sumOf f key hits else 0
  := by
  induction hits with
  | nil => simp
  | cons h hits ih =>
    by_cases hkey : h.1 = key
    · cases hp : p key with
      | true => simp [sumOf_cons, hkey, hp, ih]
      | false => simp [hkey, hp, ih]
    · cases hp : p h.1 with
      | true => simp [sumOf_cons, hkey, hp, ih]
      | false => simp [sumOf_cons, hkey, hp, ih]

/-- The sum of the scores of a document. -/
def total (key : Key) (hits : List Hit) : Int :=
  sumOf Int32.toInt key hits

/-- The sum of the sizes of the scores of a document. -/
def mass (key : Key) (hits : List Hit) : Nat :=
  sumOf (fun s => s.toInt.natAbs) key hits

/-- Whether a document has a hit. -/
def has (key : Key) (hits : List Hit) : Bool :=
  hits.any fun h => h.1 = key

/-- The hits of a document are among all hits. -/
theorem mass_le (key : Key) (hits : List Hit) :
  mass key hits ≤ (hits.map fun h => h.2.toInt.natAbs).sum
  := by
  induction hits with
  | nil => apply Nat.le_refl
  | cons h hits ih =>
    rw [mass] at ih ⊢
    rw [sumOf_cons, List.map_cons, List.sum_cons]
    split <;> omega

/-- Where each document has one hit, the total of a document is the score of its hit. -/
theorem total_of_mem {h : Hit} (hnodup : (hits.map Prod.fst).Nodup) (hmem : h ∈ hits) :
  total h.1 hits = h.2.toInt
  := by
  induction hits with
  | nil => cases hmem
  | cons h' hits ih =>
    obtain ⟨hnot, hnodup⟩ := List.nodup_cons.mp hnodup
    obtain rfl | hmem := List.mem_cons.mp hmem
    · have hrest : (hits.filter fun h' => h'.1 = h.1) = [] := by
        rw [List.filter_eq_nil_iff]
        intro h' hh' heq
        apply hnot
        rw [← of_decide_eq_true heq]
        apply List.mem_map_of_mem hh'
      rw [total, sumOf_cons, if_pos rfl, sumOf, hrest]
      simp
    · have hne : h'.1 ≠ h.1 := by
        intro heq
        apply hnot
        rw [heq]
        apply List.mem_map_of_mem hmem
      rw [total, sumOf_cons, if_neg hne, zero_add]
      apply ih hnodup hmem

/-- Where each document has one hit, the hits are the documents and their totals. -/
theorem eq_map_total (hnodup : (hits.map Prod.fst).Nodup) :
  hits = (hits.map Prod.fst).map fun key => (key, Int32.ofInt (total key hits))
  := by
  rw [List.map_map]
  refine ((List.map_congr_left ?_).trans (List.map_id hits)).symm
  intro h hmem
  rw [Function.comp_apply, total_of_mem hnodup hmem, Int32.ofInt_toInt]
  rfl

/-- The hits of each document are added up in part, and the documents come first in the same order.
No sum leaves the range of scores where the sizes of the scores of the document do not. -/
structure Condenses (hits original : List Hit) : Prop where
  keys : (hits.map Prod.fst).eraseDups = (original.map Prod.fst).eraseDups
  sums : ∀ key, mass key original ≤ Int32.maxValue.toInt.toNat →
    total key hits = total key original ∧ mass key hits ≤ mass key original

namespace Condenses

variable {hits₁ hits₂ hits₃ original₁ original₂ : List Hit}

theorem refl (hits : List Hit) :
  Condenses hits hits
  := ⟨rfl, fun _ _ => ⟨rfl, Nat.le_refl _⟩⟩

theorem trans (h₁ : Condenses hits₁ hits₂) (h₂ : Condenses hits₂ hits₃) :
  Condenses hits₁ hits₃
  := by
  constructor
  · rw [h₁.keys, h₂.keys]
  · intro key hkey
    obtain ⟨htotal₂, hmass₂⟩ := h₂.sums key hkey
    obtain ⟨htotal₁, hmass₁⟩ := h₁.sums key (Nat.le_trans hmass₂ hkey)
    exact ⟨htotal₁.trans htotal₂, Nat.le_trans hmass₁ hmass₂⟩

theorem append (h₁ : Condenses hits₁ original₁) (h₂ : Condenses hits₂ original₂) :
  Condenses (hits₁ ++ hits₂) (original₁ ++ original₂)
  := by
  constructor
  · rw [List.map_append, List.map_append]
    apply eraseDups_append_congr h₁.keys h₂.keys
  · intro key hkey
    rw [mass, sumOf_append] at hkey
    obtain ⟨htotal₁, hmass₁⟩ := h₁.sums key (by rw [mass]; omega)
    obtain ⟨htotal₂, hmass₂⟩ := h₂.sums key (by rw [mass]; omega)
    rw [total, total] at htotal₁ htotal₂
    rw [mass, mass] at hmass₁ hmass₂
    rw [total, total, mass, mass, sumOf_append, sumOf_append, sumOf_append, sumOf_append, htotal₁,
      htotal₂]
    exact ⟨rfl, Nat.add_le_add hmass₁ hmass₂⟩

theorem filter (h : Condenses hits₁ original₁) (p : Key → Bool) :
  Condenses (hits₁.filter fun h => p h.1) (original₁.filter fun h => p h.1)
  := by
  have hmap : ∀ hits : List Hit,
      (hits.filter fun h => p h.1).map Prod.fst = (hits.map Prod.fst).filter p := by
    intro hits
    rw [List.filter_map]
    rfl
  constructor
  · rw [hmap, hmap, eraseDups_filter, eraseDups_filter, h.keys]
  · intro key
    rw [mass, mass, total, total, sumOf_filter, sumOf_filter, sumOf_filter, sumOf_filter]
    cases p key with
    | true => apply h.sums
    | false => simp

/-- A document has a hit before and after. -/
theorem has_eq (h : Condenses hits₁ original₁) (key : Key) :
  has key hits₁ = has key original₁
  := by
  have hmem : ∀ hits : List Hit, has key hits = true ↔ key ∈ (hits.map Prod.fst).eraseDups := by
    intro hits
    simp [has]
  rw [Bool.eq_iff_iff, hmem, hmem, h.keys]

/-- There are hits before and after. -/
theorem isEmpty_eq (h : Condenses hits₁ original₁) :
  hits₁.isEmpty = original₁.isEmpty
  := by
  have hkeys := h.keys
  cases hits₁ <;> cases original₁ <;> simp_all [List.eraseDups_cons]

/-- Where each document has one hit, the hits are the documents and their totals before. -/
theorem eq_of_nodup (h₁ : Condenses hits₁ original₁) (h₂ : Condenses hits₂ original₁)
    (hnodup₁ : (hits₁.map Prod.fst).Nodup) (hnodup₂ : (hits₂.map Prod.fst).Nodup)
    (hmass : ∀ key, mass key original₁ ≤ Int32.maxValue.toInt.toNat) :
  hits₁ = hits₂
  := by
  have hkeys : hits₁.map Prod.fst = hits₂.map Prod.fst := by
    rw [← eraseDups_of_nodup hnodup₁, h₁.keys, ← h₂.keys, eraseDups_of_nodup hnodup₂]
  have htotal : ∀ key, total key hits₁ = total key hits₂ := by
    intro key
    rw [(h₁.sums key (hmass key)).1, (h₂.sums key (hmass key)).1]
  rw [eq_map_total hnodup₁, eq_map_total hnodup₂, hkeys]
  simp only [htotal]

end Condenses

end Hit

/-! ### Hits in records -/

namespace Record

open Hit (Condenses)

/-- The documents of records, and their scores. -/
def documentHits (records : List Record) : List Hit :=
  records.map fun r => (r.key, r.score)

@[simp]
theorem documentHits_nil :
  documentHits [] = []
  := rfl

@[simp]
theorem documentHits_cons (r : Record) (records : List Record) :
  documentHits (r :: records) = (r.key, r.score) :: documentHits records
  := rfl

/-- The documents of records are those of their hits. -/
theorem map_fst_documentHits (records : List Record) :
  (documentHits records).map Prod.fst = (addresses records).map Address.key
  := by
  rw [documentHits, addresses, List.map_map, List.map_map]
  rfl

theorem documentHits_filter (p : Key → Bool) (records : List Record) :
  documentHits (records.filter fun r => p r.key)
    = (documentHits records).filter fun h => p h.1
  := by
  rw [documentHits, documentHits, List.filter_map]
  rfl

theorem hasKey_eq (key : Key) (records : List Record) :
  hasKey key records = Hit.has key (documentHits records)
  := by
  rw [hasKey, Hit.has, documentHits, List.any_map]
  rfl

variable {a : Address} {change : Record → Record} {fresh : Record} {score : Score}

/-- A score that is added to a record does not leave the range, as long as the sizes of the scores
of its document do not. -/
theorem toInt_plus {s t : Score}
    (h : s.toInt.natAbs + t.toInt.natAbs ≤ Int32.maxValue.toInt.toNat) :
  (s.plus t).toInt = s.toInt + t.toInt
  := by
  have hmax : Int32.maxValue.toInt = 2147483647 := rfl
  have hmin : Int32.minValue.toInt = -2147483648 := rfl
  rw [hmax] at h
  apply Int32.toInt_ofIntClamp <;> omega

/-- What comes again at the end does not come first. -/
theorem eraseDups_append_of_mem {α : Type} [BEq α] [LawfulBEq α] {l : List α} {b : α} (h : b ∈ l) :
  (l ++ [b]).eraseDups = l.eraseDups
  := by
  rw [List.eraseDups_append, List.removeAll, List.filter_cons_of_neg (by simp [h])]
  simp

/-- An upsert that adds a score to the record at an address, or puts a new record with the score
at the end, adds up one more hit of the document. -/
theorem condenses_upsert (hchange : ∀ r, (change r).toAddress = r.toAddress)
    (hscore : ∀ r, (change r).score = r.score.plus score) (hfresh : fresh.toAddress = a)
    (hfreshScore : fresh.score = score) (records : List Record) :
  Condenses (documentHits (upsert a change fresh records))
    (documentHits records ++ [(a.key, score)])
  := by
  constructor
  · rw [map_fst_documentHits, addresses_upsert hchange hfresh, List.map_append,
      map_fst_documentHits]
    split
    · rename_i hmem
      symm
      apply eraseDups_append_of_mem
      apply List.mem_map_of_mem hmem
    · rw [List.map_append]
      rfl
  · intro key
    induction records with
    | nil =>
      intro _
      have hkey : fresh.key = a.key := congrArg Address.key hfresh
      simp [upsert, place?, hkey, hfreshScore]
    | cons r records ih =>
      intro hmass
      simp only [documentHits_cons, List.cons_append, Hit.mass, Hit.total, Hit.sumOf_cons,
        Hit.sumOf_append, Hit.sumOf_nil, add_zero] at hmass ih ⊢
      rw [upsert_cons]
      split
      · rename_i hr
        have hkey : r.key = a.key := congrArg Address.key hr.1
        have hkey' : (change r).key = a.key := (congrArg Address.key (hchange r)).trans hkey
        rw [documentHits_cons, hscore]
        simp only [Hit.sumOf_cons, hkey, hkey'] at hmass ⊢
        split
        · rename_i h
          rw [if_pos h, if_pos h] at hmass
          rw [toInt_plus (by omega)]
          omega
        · simp
      · simp only [documentHits_cons, Hit.sumOf_cons]
        omega

/-- A merged record adds up one more hit of its document. -/
theorem condenses_mergeRecord (shape : Shape) (records : List Record) (r : Record) :
  Condenses (documentHits (RecordSet.mergeRecord shape records r))
    (documentHits records ++ [(r.key, r.score)])
  := by
  rw [← Address.key_project r.toAddress shape.unit]
  apply condenses_upsert
  · intro x
    rfl
  · intro x
    rfl
  · rfl
  · rfl

/-- Adding up hits one after another adds up all of them. -/
theorem condenses_foldl {α : Type} {step : List Record → α → List Record} (hit : α → Hit)
    (h : ∀ records x, Condenses (documentHits (step records x)) (documentHits records ++ [hit x]))
    (records : List Record) (xs : List α) :
  Condenses (documentHits (xs.foldl step records)) (documentHits records ++ xs.map hit)
  := by
  induction xs generalizing records with
  | nil =>
    rw [List.map_nil, List.append_nil]
    apply Condenses.refl
  | cons x xs ih =>
    have hmore := (h records x).append (Condenses.refl (xs.map hit))
    rw [List.append_assoc, List.singleton_append, ← List.map_cons] at hmore
    apply (ih (step records x)).trans hmore

theorem condenses_mergeRecords (shape : Shape) (records others : List Record) :
  Condenses (documentHits (others.foldl (RecordSet.mergeRecord shape) records))
    (documentHits records ++ documentHits others)
  := condenses_foldl _ (condenses_mergeRecord shape) records others

end Record

/-! ### Sets of records -/

namespace RecordSet

open Hit (Condenses)

/-- The documents of a set, and the scores of its records. -/
def documentHits (s : RecordSet) : List Hit :=
  Record.documentHits s.records

variable {s t : RecordSet} {left right : List Hit}

theorem isEmpty_eq_documentHits (s : RecordSet) :
  s.isEmpty = s.documentHits.isEmpty
  := by
  rw [isEmpty, documentHits, Record.documentHits, List.isEmpty_map]

/-- A hit that is added to a set. -/
theorem condenses_add (s : RecordSet) (a : Address) (score : Score) :
  Condenses (s.add a score).documentHits (s.documentHits ++ [(a.key, score)])
  := by
  rw [← Address.key_project a s.shape.unit]
  apply Record.condenses_upsert
  · intro r
    rfl
  · intro r
    rfl
  · rfl
  · apply Score.zero_plus

theorem condenses_union (hs : Condenses s.documentHits left) (ht : Condenses t.documentHits right) :
  Condenses (s.union t).documentHits (left ++ right)
  := (Record.condenses_mergeRecords s.shape s.records t.records).trans (hs.append ht)

/-- Keeping the records of some documents keeps the hits of those documents. -/
theorem condenses_filter (hs : Condenses s.documentHits left) (p : Key → Bool) :
  Condenses (Record.documentHits (s.records.filter fun r => p r.key)) (left.filter fun h => p h.1)
  := by
  rw [Record.documentHits_filter]
  apply hs.filter p

/-- A document has a record if it has a hit. -/
theorem hasKey_eq_has (hs : Condenses s.documentHits left) (key : Key) :
  Record.hasKey key s.records = Hit.has key left
  := (Record.hasKey_eq key s.records).trans (hs.has_eq key)

theorem condenses_intersect (hs : Condenses s.documentHits left)
    (ht : Condenses t.documentHits right) :
  Condenses (s.intersect t).documentHits
    ((left.filter fun h => Hit.has h.1 right) ++ right.filter fun h => Hit.has h.1 left)
  := by
  simp only [← hasKey_eq_has hs, ← hasKey_eq_has ht]
  have hshared := condenses_filter hs fun key => Record.hasKey key t.records
  have hadded := condenses_filter ht fun key => Record.hasKey key s.records
  apply (Record.condenses_mergeRecords s.shape _ _).trans (hshared.append hadded)

theorem condenses_subtract (hs : Condenses s.documentHits left)
    (ht : Condenses t.documentHits right) :
  Condenses (s.subtract t).documentHits (left.filter fun h => !Hit.has h.1 right)
  := by
  simp only [← hasKey_eq_has ht]
  rw [documentHits, subtract, records_retain]
  apply condenses_filter hs fun key => !Record.hasKey key t.records

/-- The groups of records by document. -/
theorem condenses_groups (limit : Nat) (direction : Direction) (records : List Record) :
  Condenses (Record.documentHits (groups limit direction (fun r => some r.key) records))
    (Record.documentHits records)
  := by
  refine Record.condenses_foldl (fun r : Record => (r.key, r.score)) ?_ [] records
  intro groups r
  apply Record.condenses_upsert
  · intro x
    rfl
  · intro x
    rfl
  · rfl
  · apply Score.zero_plus

end RecordSet

end Retrieval
