import Retrieval.Index.Corpus
import Mathlib.Data.Set.Card

/-!
# Hits in a section

A mode of matching finds a term at some places of a section, and what the section reports is how many
they are and which one comes first: a `Match.Hit`. A search that tests what is left of a list at each
place finds the places in ascending order, so what it reports depends only on which places satisfy the
test.
-/

namespace Retrieval

namespace Match

/-! ### Searching lists -/

section search

variable {α : Type} {p q : List α → Bool} {l : List α} {i n : Nat}

/-- A search keeps the places that satisfy its test. -/
theorem placesFrom_eq_filter (p : List α → Bool) (i : Nat) (l : List α) :
  placesFrom p i l = (List.range' i l.length).filter fun n => p (l.drop (n - i))
  := by
  induction l generalizing i with
  | nil => rfl
  | cons a l ih =>
    have hrest : (List.range' (i + 1) l.length).filter (fun n => p ((a :: l).drop (n - i)))
        = placesFrom p (i + 1) l := by
      rw [ih]
      apply List.filter_congr
      intro n hn
      have hle : i + 1 ≤ n := (List.mem_range'_1.mp hn).1
      rw [show n - i = n - (i + 1) + 1 by omega, List.drop_succ_cons]
    rw [List.length_cons, List.range'_succ, List.filter_cons, hrest, Nat.sub_self, List.drop_zero,
      placesFrom]

theorem mem_placesFrom_iff :
  n ∈ placesFrom p 0 l ↔ n < l.length ∧ p (l.drop n) = true
  := by
  simp [placesFrom_eq_filter]

theorem nodup_placesFrom :
  (placesFrom p i l).Nodup
  := by
  rw [placesFrom_eq_filter]
  exact List.Nodup.filter _ List.nodup_range'

/-- A weaker test is satisfied at all places at which a stronger one is. -/
theorem placesFrom_sublist (h : ∀ l, p l = true → q l = true) :
  (placesFrom p i l).Sublist (placesFrom q i l)
  := by
  rw [placesFrom_eq_filter, placesFrom_eq_filter]
  apply List.monotone_filter_right
  intro n
  apply h

end search

/-- A window that is asked for is as wide as is asked. -/
theorem toInt_eq_window {option : Int32} (h : 1 ≤ option) :
  option.toInt = window option
  := by
  have hone : 1 ≤ option.toInt := Int32.le_iff_toInt_le.mp h
  have hpositive : 0 < option := Int32.lt_iff_toInt_lt.mpr hone
  rw [window, if_pos hpositive, Int32.toNatClampNeg, Int.toNat_of_nonneg (by omega)]

/-! ### What is reported -/

/-- What is reported of the places at which a term is found: their number, and the first of them. -/
structure Hit where
  count : Nat
  first : Nat
deriving DecidableEq, Repr

/-- The hit of some places, if there are any. -/
def hit? (places : List Nat) : Option Hit :=
  places.min?.map fun first => ⟨places.length, first⟩

variable {places : List Nat} {hit : Hit}

theorem hit?_eq_some_iff :
  hit? places = some hit
    ↔ hit.count = places.length ∧ hit.first ∈ places ∧ ∀ p ∈ places, hit.first ≤ p
  := by
  rw [hit?, Option.map_eq_some_iff]
  constructor
  · rintro ⟨first, hfirst, rfl⟩
    exact ⟨rfl, List.min?_eq_some_iff.mp hfirst⟩
  · rintro ⟨hcount, hfirst⟩
    refine ⟨hit.first, List.min?_eq_some_iff.mpr hfirst, ?_⟩
    rw [← hcount]

theorem isSome_hit?_iff :
  (hit? places).isSome ↔ places ≠ []
  := by
  rw [hit?, Option.isSome_map, List.isSome_min?_iff]

theorem count_pos (h : hit? places = some hit) :
  0 < hit.count
  := by
  obtain ⟨hcount, hfirst, -⟩ := hit?_eq_some_iff.mp h
  rw [hcount]
  apply List.length_pos_of_mem hfirst

/-- A hit reports a set of places: there is one exactly if the set is not empty, and then it gives the
least place of the set and the number of its places. -/
structure Reports (hit : Option Hit) (places : Set Nat) : Prop where
  isSome_iff : hit.isSome ↔ places.Nonempty
  first_least : ∀ h ∈ hit, IsLeast places h.first
  count_eq : ∀ h ∈ hit, h.count = places.ncard

/-- The hit of places without repetition reports their set. -/
theorem reports_of_mem_iff {s : Set Nat} (hnodup : places.Nodup)
    (hmem : ∀ p, p ∈ places ↔ p ∈ s) :
  Reports (hit? places) s
  := by
  have hset : s = ↑places.toFinset := by
    ext p
    rw [← hmem p, Finset.mem_coe, List.mem_toFinset]
  constructor
  · rw [isSome_hit?_iff, hset, Finset.coe_nonempty, List.toFinset_nonempty_iff]
  · intro h hh
    obtain ⟨-, hfirst, hleast⟩ := hit?_eq_some_iff.mp hh
    refine ⟨(hmem _).mp hfirst, ?_⟩
    intro p hp
    apply hleast p ((hmem p).mpr hp)
  · intro h hh
    obtain ⟨hcount, -⟩ := hit?_eq_some_iff.mp hh
    rw [hset, Set.ncard_coe_finset, List.toFinset_card_of_nodup hnodup, hcount]

end Match

/-! ### What a lookup finds in a section -/

/-- The posting that reports a hit in a section. -/
def Passage.posting (passage : Passage) (hit : Match.Hit) : Posting where
  key := passage.key
  sectionNo := passage.number
  position := UInt32.ofNat hit.first
  score := Score.saturate hit.count

/-- The hit of a term in a section. -/
def Passage.hit? (passage : Passage) (mode : MatchMode) (option : Int32) (term : List Char)
    (terms : List Match.Word) : Option Match.Hit :=
  Match.hit? (Match.places mode option term terms passage.text.toList passage.tokens)

namespace Corpus

theorem posting?_eq (passage : Passage) (places : List Nat) :
  posting? passage places = (Match.hit? places).map passage.posting
  := by
  rw [posting?, Match.hit?, Option.map_map]
  rfl

/-- The words of the term of a lookup. -/
def words (corpus : Corpus) (request : Lookup) : List Match.Word :=
  (Text.tokens request.encoding.isSpace (corpus.fold request.term).toList).map Text.Token.chars

/-- What a lookup finds in a section. A term without words is found nowhere. -/
def hit? (corpus : Corpus) (request : Lookup) (passage : Passage) : Option Match.Hit :=
  if (corpus.words request).isEmpty then none
  else passage.hit? request.mode request.option (corpus.fold request.term).toList
    (corpus.words request)

/-- A lookup answers with the postings of the hits in the sections, in the order of the sections. -/
theorem lookup_eq (corpus : Corpus) (request : Lookup) :
  corpus.lookup request
    = corpus.passages.filterMap fun passage =>
      (corpus.hit? request passage).map passage.posting
  := by
  rw [lookup]
  by_cases hempty : (corpus.words request).isEmpty
  · simp only [hit?, if_pos hempty, Option.map_none, List.filterMap_none]
    apply if_pos hempty
  · simp only [hit?, if_neg hempty]
    rw [words] at hempty
    rw [if_neg hempty]
    apply List.filterMap_congr
    intro passage _
    apply posting?_eq

end Corpus

end Retrieval
