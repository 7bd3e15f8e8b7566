import Retrieval.Proofs.Index.Places
import Mathlib.Data.List.Pairwise

/-!
# Near matches

A near match scans the next `n` words and takes each word of the term where it comes first, which
succeeds exactly if the words of the term stand at any ascending places that lie within `n` words. The
scan may be cut short by the end of the section, and both the term and the section may repeat words.
Without an order of the words it is enough that each of them is among those `n` words.
-/

namespace Retrieval.Match

variable {terms words : List Word}

/-! ### Windows of words -/

section window

variable {m k : Nat}

theorem mem_window_iff {word : Word} :
  word ∈ (words.drop m).take k ↔ ∃ p, m ≤ p ∧ p < m + k ∧ words[p]? = some word
  := by
  rw [List.mem_iff_getElem?]
  constructor
  · rintro ⟨i, hi⟩
    have hik : i < k := by
      apply Nat.lt_of_lt_of_le _ (List.length_take_le k (words.drop m))
      exact (List.getElem?_eq_some_iff.mp hi).1
    rw [List.getElem?_take_of_lt hik, List.getElem?_drop] at hi
    exact ⟨m + i, Nat.le_add_right _ _, Nat.add_lt_add_left hik m, hi⟩
  · rintro ⟨p, hm, hk, hp⟩
    use p - m
    rw [List.getElem?_take_of_lt (by omega), List.getElem?_drop, Nat.add_sub_cancel' hm, hp]

/-- Words come in order among the `k` words from a place on exactly if they stand at ascending places
there. -/
theorem sublist_window_iff :
  terms.Sublist ((words.drop m).take k)
    ↔ ∃ places : List Nat, places.Pairwise (· < ·) ∧ (∀ p ∈ places, m ≤ p ∧ p < m + k)
      ∧ (places.map fun p => words[p]?) = terms.map some
  := by
  constructor
  · intro h
    obtain ⟨is, rfl, hascending⟩ := List.sublist_eq_map_getElem h
    refine ⟨is.map fun i => m + i.val, ?_, ?_, ?_⟩
    · apply List.pairwise_map.mpr
      apply hascending.imp
      intro i j hij
      exact Nat.add_lt_add_left hij m
    · intro p hp
      obtain ⟨i, -, rfl⟩ := List.mem_map.mp hp
      have hi : i.val < k := Nat.lt_of_lt_of_le i.isLt (List.length_take_le _ _)
      exact ⟨Nat.le_add_right _ _, Nat.add_lt_add_left hi m⟩
    · rw [List.map_map, List.map_map]
      apply List.map_congr_left
      intro i _
      have hi : i.val < k := Nat.lt_of_lt_of_le i.isLt (List.length_take_le _ _)
      change words[m + i.val]? = some ((words.drop m).take k)[i]
      rw [← List.getElem?_drop, ← List.getElem?_take_of_lt hi]
      apply List.getElem?_eq_getElem
  · rintro ⟨places, hascending, hwithin, hwords⟩
    -- By induction on the places: after the first one the others lie in what is left of the window.
    induction places generalizing terms m k with
    | nil =>
      obtain rfl : terms = [] := List.map_eq_nil_iff.mp hwords.symm
      apply List.nil_sublist
    | cons p places ih =>
      obtain ⟨word, rest, rfl, hword, hrest⟩ := List.map_eq_cons_iff.mp hwords.symm
      obtain ⟨hbefore, hascending⟩ := List.pairwise_cons.mp hascending
      obtain ⟨hp, hwithin⟩ := List.forall_mem_cons.mp hwithin
      have hothers : rest.Sublist ((words.drop (p + 1)).take (m + k - (p + 1))) := by
        apply ih hascending _ hrest.symm
        intro q hq
        have hpq := hbefore q hq
        have hqk := hwithin q hq
        omega
      obtain ⟨hlength, hat⟩ := List.getElem?_eq_some_iff.mp hword.symm
      have htail : ((words.drop m).take k).drop (p - m)
          = word :: (words.drop (p + 1)).take (m + k - (p + 1)) := by
        rw [List.drop_take, List.drop_drop, Nat.add_sub_cancel' hp.1,
          List.drop_eq_getElem_cons hlength, hat,
          show k - (p - m) = m + k - (p + 1) + 1 by omega, List.take_succ_cons]
      have hfirst := hothers.cons_cons word
      rw [← htail] at hfirst
      apply hfirst.trans
      apply List.drop_sublist

end window

/-! ### Words in order -/

/-- The words of a term stand one after another at the places, which lie within `n` words. -/
structure Follows (terms words : List Word) (n : Nat) (places : List Nat) : Prop where
  ascending : places.Pairwise (· < ·)
  words_eq : (places.map fun p => words[p]?) = terms.map some
  near : ∀ first ∈ places.head?, ∀ last ∈ places.getLast?, last - first < n

/-- The places from which the words of a term follow one another within `n` words. -/
def orderedPlaces (terms words : List Word) (n : Nat) : Set Nat :=
  {p | ∃ places, Follows terms words n places ∧ places.head? = some p}

/-- The places of words of a term from which all its words are among the next `n` words. -/
def gatheredPlaces (terms words : List Word) (n : Nat) : Set Nat :=
  {p | (∃ word ∈ terms, words[p]? = some word)
    ∧ ∀ word ∈ terms, ∃ q, p ≤ q ∧ q < p + n ∧ words[q]? = some word}

variable {n p : Nat}

/-- From the first place on, all places lie within the next `n` words. -/
theorem Follows.within {places : List Nat} (h : Follows terms words n places)
    (hfirst : places.head? = some p) :
  ∀ q ∈ places, p ≤ q ∧ q < p + n
  := by
  intro q hq
  obtain ⟨others, rfl⟩ := List.head?_eq_some_iff.mp hfirst
  have hle : List.Pairwise (· ≤ ·) (p :: others) := h.ascending.imp Nat.le_of_lt
  have hp : p ≤ q := by
    obtain rfl | hq := List.mem_cons.mp hq
    · apply Nat.le_refl
    · exact (List.pairwise_cons.mp hle).1 q hq
  have hlast := hle.rel_getLast hq
  have hnear := h.near p hfirst _ (List.getLast?_eq_some_getLast (List.cons_ne_nil p others))
  omega

theorem mem_orderedPlaces_iff (hterms : terms ≠ []) (hn : 1 ≤ n) :
  p ∈ orderedPlaces terms words n
    ↔ words[p]? = terms.head? ∧ terms.Sublist ((words.drop p).take n)
  := by
  obtain ⟨word, rest, rfl⟩ := List.exists_cons_of_ne_nil hterms
  constructor
  · rintro ⟨places, h, hfirst⟩
    refine ⟨?_, sublist_window_iff.mpr ⟨places, h.ascending, h.within hfirst, h.words_eq⟩⟩
    obtain ⟨others, rfl⟩ := List.head?_eq_some_iff.mp hfirst
    exact (List.cons.inj h.words_eq).1
  · rintro ⟨hword, hwindow⟩
    obtain ⟨hlength, hat⟩ := List.getElem?_eq_some_iff.mp hword
    -- The first word is taken at `p`, so the others come in order behind it.
    obtain ⟨k, rfl⟩ : ∃ k, n = k + 1 := ⟨n - 1, by omega⟩
    rw [List.drop_eq_getElem_cons hlength, hat, List.take_succ_cons, List.cons_sublist_cons,
      sublist_window_iff] at hwindow
    obtain ⟨others, hascending, hwithin, hwords⟩ := hwindow
    have hbetween : ∀ q ∈ p :: others, p ≤ q ∧ q < p + (k + 1) := by
      intro q hq
      obtain rfl | hq := List.mem_cons.mp hq
      · omega
      · have hqk := hwithin q hq
        omega
    refine ⟨p :: others, ⟨?_, ?_, ?_⟩, rfl⟩
    · apply List.pairwise_cons.mpr ⟨?_, hascending⟩
      intro q hq
      exact (hwithin q hq).1
    · rw [List.map_cons, List.map_cons, hwords, hword]
      rfl
    · intro first hfirst last hlast
      obtain rfl : p = first := Option.some.inj hfirst
      have hlastk := hbetween last (List.mem_of_getLast? hlast)
      omega

theorem mem_inOrder_iff (hterms : terms ≠ []) (hn : 1 ≤ n) :
  p ∈ inOrder terms n words ↔ p ∈ orderedPlaces terms words n
  := by
  rw [inOrder, mem_placesFrom_iff, mem_orderedPlaces_iff hterms hn, List.head?_drop,
    Bool.and_eq_true, beq_iff_eq, List.isSublist_iff_sublist]
  constructor
  · rintro ⟨-, h⟩
    exact h
  · intro h
    refine ⟨?_, h⟩
    obtain ⟨word, rest, rfl⟩ := List.exists_cons_of_ne_nil hterms
    exact (List.getElem?_eq_some_iff.mp h.1).1

theorem mem_inAnyOrder_iff :
  p ∈ inAnyOrder terms n words ↔ p ∈ gatheredPlaces terms words n
  := by
  have hfirst : p < words.length ∧ (words[p]?.any terms.contains) = true
      ↔ ∃ word ∈ terms, words[p]? = some word := by
    rw [Option.any_eq_true]
    constructor
    · rintro ⟨-, word, hp, hword⟩
      exact ⟨word, List.contains_iff_mem.mp hword, hp⟩
    · rintro ⟨word, hword, hp⟩
      exact ⟨(List.getElem?_eq_some_iff.mp hp).1, word, hp, List.contains_iff_mem.mpr hword⟩
  rw [inAnyOrder, mem_placesFrom_iff, List.head?_drop, Bool.and_eq_true, ← and_assoc, hfirst,
    List.all_eq_true]
  simp only [List.contains_iff_mem, mem_window_iff]
  rfl

/-- Near matches find what they promise. In a section of any words, for a term of any words and a window
of `n` words, a match in order reports the places from which the words of the term stand at ascending
places within `n` words: there is a hit exactly if there is such a place, its first place is the least
one, and it counts all of them. A match in any order reports in the same way the places of words of the
term from which all words of the term are among the next `n` words. With a window that is asked for, the
posting of the section in each of the two modes is that of its hit. -/
theorem near_windows (passage : Passage) (hterms : terms ≠ []) (hn : 1 ≤ n) :
  let words := passage.tokens.map Text.Token.chars
  Reports (hit? (inOrder terms n words)) (orderedPlaces terms words n)
    ∧ Reports (hit? (inAnyOrder terms n words)) (gatheredPlaces terms words n)
    ∧ ∀ (option : Int32) (term : List Char), option.toInt = n →
      Corpus.posting? passage
          (places .near option term terms passage.text.toList passage.tokens)
        = (hit? (inOrder terms n words)).map passage.posting
      ∧ Corpus.posting? passage
          (places .nearAny option term terms passage.text.toList passage.tokens)
        = (hit? (inAnyOrder terms n words)).map passage.posting
  := by
  intro words
  refine ⟨?_, ?_, ?_⟩
  · apply reports_of_mem_iff nodup_placesFrom
    intro p
    apply mem_inOrder_iff hterms hn
  · apply reports_of_mem_iff nodup_placesFrom
    intro p
    apply mem_inAnyOrder_iff
  · intro option term hoption
    have hwindow : window option = n := by
      have hone : 1 ≤ option := by
        rw [Int32.le_iff_toInt_le, hoption, Int32.toInt_one]
        omega
      have heq := toInt_eq_window hone
      omega
    rw [Corpus.posting?_eq, Corpus.posting?_eq, places, places, hwindow]
    exact ⟨rfl, rfl⟩

/-- A term that repeats a word, in a section at whose end the window is cut short. -/
theorem near_windows_repeated :
  let passage : Passage := ⟨.number 7, 1, "a b c a b a",
    Text.tokens Text.isBlank "a b c a b a".toList⟩
  let words := passage.tokens.map Text.Token.chars
  let terms : List Word := [['a'], ['b'], ['a']]
  let posting? (mode : MatchMode) := Corpus.posting? passage
    (places mode 4 "a b a".toList terms passage.text.toList passage.tokens)
  terms ≠ [] ∧ 1 ≤ 4
    ∧ posting? .near = some ⟨⟨.number 7, 1, 0⟩, 2⟩
    ∧ posting? .nearAny = some ⟨⟨.number 7, 1, 0⟩, 4⟩
    ∧ IsLeast (orderedPlaces terms words 4) 0 ∧ (orderedPlaces terms words 4).ncard = 2
    ∧ IsLeast (gatheredPlaces terms words 4) 0 ∧ (gatheredPlaces terms words 4).ncard = 4
  := by
  intro passage words terms posting?
  have hterms : terms ≠ [] := by decide
  obtain ⟨hordered, hgathered, hmodes⟩ := near_windows passage hterms (n := 4) (by decide)
  obtain ⟨hnear, hnearAny⟩ := hmodes 4 "a b a".toList (by decide)
  have hinOrder : hit? (inOrder terms 4 words) = some ⟨2, 0⟩ := by decide
  have hinAnyOrder : hit? (inAnyOrder terms 4 words) = some ⟨4, 0⟩ := by decide
  rw [hinOrder] at hnear
  rw [hinAnyOrder] at hnearAny
  exact ⟨hterms, by decide, hnear, hnearAny,
    hordered.first_least _ hinOrder, (hordered.count_eq _ hinOrder).symm,
    hgathered.first_least _ hinAnyOrder, (hgathered.count_eq _ hinAnyOrder).symm⟩

end Retrieval.Match
