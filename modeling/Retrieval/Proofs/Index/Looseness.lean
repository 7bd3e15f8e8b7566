import Retrieval.Proofs.Index.Postings

/-!
# Looser modes

Some modes of matching are looser than others: what the tighter one finds at a place the looser one
finds there too. An exact match is a match of a leading or a trailing part, and each of these is a match
within words. A near match in order is one in any order, a wider window holds what a narrower one holds,
and a window with room for all words of the term holds every exact match. As the places of the tighter
mode are among those of the looser one, there are no more of them and the first one does not come
earlier.
-/

namespace Retrieval

namespace Match

/-! ### Tests of runs -/

section tests

variable {α : Type}

/-- What satisfies a test satisfies another one. -/
def Implies (test weaker : α → Bool) : Prop :=
  ∀ a, test a = true → weaker a = true

/-- What begins with elements for some tests does so for weaker ones. -/
theorem beginsWith_of_forall₂ {tests weaker : List (α → Bool)} {l : List α}
    (h : List.Forall₂ Implies tests weaker) (htests : beginsWith tests l = true) :
  beginsWith weaker l = true
  := by
  induction h generalizing l with
  | nil => rfl
  | cons hfirst _ ih =>
    cases l with
    | nil => cases htests
    | cons a l =>
      rw [beginsWith, Bool.and_eq_true] at htests ⊢
      exact ⟨hfirst a htests.1, ih htests.2⟩

/-- Tests for given elements are those of a prefix. -/
theorem beginsWith_beq_iff [BEq α] [LawfulBEq α] {part l : List α} :
  beginsWith (part.map fun a => (· == a)) l = true ↔ part <+: l
  := by
  induction part generalizing l with
  | nil => simp [beginsWith]
  | cons a part ih =>
    cases l with
    | nil => simp [beginsWith]
    | cons b l =>
      rw [List.map_cons, beginsWith, Bool.and_eq_true, beq_iff_eq, ih, List.cons_prefix_cons,
        eq_comm]

end tests

variable {terms words : List Word}

theorem runs_sublist {tests weaker : List (Word → Bool)} (h : List.Forall₂ Implies tests weaker) :
  (runs tests words).Sublist (runs weaker words)
  := by
  apply placesFrom_sublist
  intro l hl
  exact beginsWith_of_forall₂ h hl

theorem contains_iff {part word : Word} :
  contains part word = true ↔ part <:+: word
  := by
  induction word with
  | nil => rw [contains, List.isEmpty_iff, List.infix_nil]
  | cons c word ih =>
    rw [contains, Bool.or_eq_true, List.isPrefixOf_iff_prefix, ih, List.infix_cons_iff]

/-! ### Parts of words -/

theorem forall₂_exact_leading (terms : List Word) :
  List.Forall₂ Implies (terms.map fun t => (· == t)) (leadingTests terms)
  := by
  fun_induction leadingTests terms with
  | case1 => exact .nil
  | case2 term =>
    refine .cons ?_ .nil
    intro a ha
    rw [List.isPrefixOf_iff_prefix, beq_iff_eq.mp ha]
  | case3 term terms _ ih => exact .cons (fun a ha => ha) ih

theorem forall₂_leading_within (terms : List Word) :
  List.Forall₂ Implies (leadingTests terms) (terms.map contains)
  := by
  fun_induction leadingTests terms with
  | case1 => exact .nil
  | case2 term =>
    refine .cons ?_ .nil
    intro a ha
    exact contains_iff.mpr (List.isPrefixOf_iff_prefix.mp ha).isInfix
  | case3 term terms _ ih =>
    refine .cons ?_ ih
    intro a ha
    rw [contains_iff, beq_iff_eq.mp ha]

theorem forall₂_exact_trailing (terms : List Word) :
  List.Forall₂ Implies (terms.map fun t => (· == t)) (trailingTests terms)
  := by
  cases terms with
  | nil => exact .nil
  | cons term terms =>
    refine .cons ?_ (List.forall₂_same.mpr fun _ _ a ha => ha)
    intro a ha
    rw [List.isSuffixOf_iff_suffix, beq_iff_eq.mp ha]

theorem forall₂_trailing_within (terms : List Word) :
  List.Forall₂ Implies (trailingTests terms) (terms.map contains)
  := by
  cases terms with
  | nil => exact .nil
  | cons term terms =>
    refine .cons ?_ ?_
    · intro a ha
      exact contains_iff.mpr (List.isSuffixOf_iff_suffix.mp ha).isInfix
    · apply List.forall₂_map_left_iff.mpr
      apply List.forall₂_map_right_iff.mpr
      apply List.forall₂_same.mpr
      intro t _ a ha
      rw [contains_iff, beq_iff_eq.mp ha]

/-! ### Windows -/

variable {m n : Nat}

/-- A wider window holds what a narrower one holds. -/
theorem inOrder_sublist (h : n ≤ m) :
  (inOrder terms n words).Sublist (inOrder terms m words)
  := by
  apply placesFrom_sublist
  intro l hl
  rw [Bool.and_eq_true, List.isSublist_iff_sublist] at hl ⊢
  exact ⟨hl.1, hl.2.trans (List.take_prefix_take_left h).sublist⟩

theorem inAnyOrder_sublist (h : n ≤ m) :
  (inAnyOrder terms n words).Sublist (inAnyOrder terms m words)
  := by
  apply placesFrom_sublist
  intro l hl
  rw [Bool.and_eq_true, List.all_eq_true] at hl ⊢
  refine ⟨hl.1, ?_⟩
  intro term hterm
  have hin := List.contains_iff_mem.mp (hl.2 term hterm)
  exact List.contains_iff_mem.mpr ((List.take_prefix_take_left h).subset hin)

/-- Words in order are words in any order. -/
theorem inOrder_sublist_inAnyOrder (hterms : terms ≠ []) :
  (inOrder terms n words).Sublist (inAnyOrder terms n words)
  := by
  apply placesFrom_sublist
  intro l hl
  rw [Bool.and_eq_true, beq_iff_eq, List.isSublist_iff_sublist] at hl
  obtain ⟨hhead, hwindow⟩ := hl
  obtain ⟨term, rest, rfl⟩ := List.exists_cons_of_ne_nil hterms
  rw [Bool.and_eq_true, List.all_eq_true, hhead]
  refine ⟨List.contains_iff_mem.mpr List.mem_cons_self, ?_⟩
  intro term hterm
  exact List.contains_iff_mem.mpr (hwindow.subset hterm)

/-- A window with room for all words of a term holds the words of an exact match. -/
theorem runs_sublist_inOrder (hterms : terms ≠ []) (hn : terms.length ≤ n) :
  (runs (terms.map fun t => (· == t)) words).Sublist (inOrder terms n words)
  := by
  apply placesFrom_sublist
  intro l hl
  have hleading := beginsWith_beq_iff.mp hl
  rw [Bool.and_eq_true, beq_iff_eq, List.isSublist_iff_sublist]
  refine ⟨?_, (List.prefix_take_iff.mpr ⟨hleading, hn⟩).sublist⟩
  obtain ⟨rest, rfl⟩ := hleading
  apply List.head?_append_of_ne_nil _ hterms

end Match

/-! ### What the looser mode reports -/

namespace Match

variable {places tight loose : List Nat}

theorem elim_count_hit? (places : List Nat) :
  (hit? places).elim 0 Hit.count = places.length
  := by
  cases hhit : hit? places with
  | none =>
    have hempty : ¬ places ≠ [] := by
      rw [← isSome_hit?_iff, hhit]
      decide
    rw [not_ne_iff.mp hempty]
    rfl
  | some hit => exact (hit?_eq_some_iff.mp hhit).1

/-- Among more places the first one comes no later. -/
theorem exists_first_le (h : tight ⊆ loose) {x : Hit} (hx : hit? tight = some x) :
  ∃ y, hit? loose = some y ∧ y.first ≤ x.first
  := by
  obtain ⟨-, hfirst, -⟩ := hit?_eq_some_iff.mp hx
  have hloose := h hfirst
  obtain ⟨y, hy⟩ := Option.isSome_iff_exists.mp (isSome_hit?_iff.mpr (List.ne_nil_of_mem hloose))
  obtain ⟨-, -, hleast⟩ := hit?_eq_some_iff.mp hy
  exact ⟨y, hy, hleast _ hloose⟩

end Match

/-- What a tighter way of matching reports of a section, beside what a looser one reports. The looser
one finds no fewer places, and where the tighter one finds any, the first place of the looser one comes
no later. The same holds of the scores of the postings and, as far as the words of the section can be
counted by positions, of their positions. -/
structure Passage.Looser (passage : Passage) (tight loose : Option Match.Hit) : Prop where
  count_le : tight.elim 0 Match.Hit.count ≤ loose.elim 0 Match.Hit.count
  first_le : ∀ x ∈ tight, ∃ y ∈ loose, y.first ≤ x.first
  score_le : (tight.elim 0 fun x => (passage.posting x).score)
    ≤ loose.elim 0 fun y => (passage.posting y).score
  position_le : passage.tokens.length ≤ UInt32.size →
    ∀ x ∈ tight, ∃ y ∈ loose, (passage.posting y).position ≤ (passage.posting x).position

theorem Passage.elim_score (passage : Passage) (hit : Option Match.Hit) :
  (hit.elim 0 fun x => (passage.posting x).score)
    = Score.saturate (hit.elim 0 Match.Hit.count : Nat)
  := by
  cases hit with
  | none =>
    change (0 : Score) = Score.saturate 0
    decide
  | some x => rfl

/-- A mode is looser if it finds all places that the tighter one finds. -/
theorem Passage.looser_of_sublist {passage : Passage} {tight loose : List Nat}
    (h : tight.Sublist loose) (hwords : ∀ p ∈ tight, p < passage.tokens.length) :
  passage.Looser (Match.hit? tight) (Match.hit? loose)
  := by
  have hcount : (Match.hit? tight).elim 0 Match.Hit.count
      ≤ (Match.hit? loose).elim 0 Match.Hit.count := by
    rw [Match.elim_count_hit?, Match.elim_count_hit?]
    apply h.length_le
  constructor
  · exact hcount
  · intro x hx
    exact Match.exists_first_le h.subset hx
  · rw [elim_score, elim_score]
    apply Score.saturate_le_saturate
    exact_mod_cast hcount
  · intro hsize x hx
    obtain ⟨y, hy, hle⟩ := Match.exists_first_le h.subset hx
    obtain ⟨-, hfirst, -⟩ := Match.hit?_eq_some_iff.mp hx
    have hlt := Nat.lt_of_lt_of_le (hwords _ hfirst) hsize
    refine ⟨y, hy, ?_⟩
    rw [posting, posting, UInt32.le_iff_toNat_le, UInt32.toNat_ofNat_of_lt' hlt,
      UInt32.toNat_ofNat_of_lt' (Nat.lt_of_le_of_lt hle hlt)]
    exact hle

namespace Corpus

variable {corpus : Corpus} {passage : Passage} {term : String} {encoding : Encoding}

/-- A mode of lookups is looser if for every term with words it finds all places that the tighter one
finds. -/
theorem looser_of_places {mode mode' : MatchMode} {option option' : Int32}
    (hmode : mode ≠ .unsplit)
    (h : ∀ chars, corpus.words ⟨term, mode, option, encoding⟩ ≠ [] →
      (Match.places mode option chars (corpus.words ⟨term, mode, option, encoding⟩)
          passage.text.toList passage.tokens).Sublist
        (Match.places mode' option' chars (corpus.words ⟨term, mode, option, encoding⟩)
          passage.text.toList passage.tokens)) :
  passage.Looser (corpus.hit? ⟨term, mode, option, encoding⟩ passage)
    (corpus.hit? ⟨term, mode', option', encoding⟩ passage)
  := by
  have hwords : corpus.words ⟨term, mode', option', encoding⟩
      = corpus.words ⟨term, mode, option, encoding⟩ := rfl
  rw [hit?, hit?, hwords]
  split
  · have hnone : passage.Looser (Match.hit? []) (Match.hit? []) :=
      Passage.looser_of_sublist .slnil (by simp)
    exact hnone
  · rename_i hterms
    apply Passage.looser_of_sublist
    · apply h
      rwa [List.isEmpty_iff] at hterms
    · intro p hp
      exact Match.lt_of_mem_places hp fun hunsplit => absurd hunsplit hmode

/-- The modes of matching are ordered by looseness. Let one section be asked for one term under one
encoding in different modes. What is reported of an exact match, of one of a leading or a trailing part
and of one within words follows that order of looseness, whatever the options. A near match in order is
tighter than one in any order, each of them is tighter than with a wider window, and an exact match is
tighter than a near one whose window has room for all words of the term. The looser mode counts no fewer
places, and where the tighter one reports any, the looser one reports one that comes no later. These are
the hits with whose postings lookups answer. -/
theorem modes_by_looseness (corpus : Corpus) (passage : Passage) (term : String)
    (encoding : Encoding) :
  let request (mode : MatchMode) (option : Int32) : Lookup := ⟨term, mode, option, encoding⟩
  let hit? (mode : MatchMode) (option : Int32) := corpus.hit? (request mode option) passage
  (∀ mode option, corpus.lookup (request mode option)
      = corpus.passages.filterMap fun p => (corpus.hit? (request mode option) p).map p.posting)
    ∧ (∀ o o', passage.Looser (hit? .exact o) (hit? .leading o')
      ∧ passage.Looser (hit? .leading o) (hit? .within o')
      ∧ passage.Looser (hit? .exact o) (hit? .trailing o')
      ∧ passage.Looser (hit? .trailing o) (hit? .within o'))
    ∧ ∀ n, 1 ≤ n →
      passage.Looser (hit? .near n) (hit? .nearAny n)
      ∧ (∀ m, n ≤ m → passage.Looser (hit? .near n) (hit? .near m)
        ∧ passage.Looser (hit? .nearAny n) (hit? .nearAny m))
      ∧ ∀ o, (corpus.words (request .exact o)).length ≤ n.toInt →
        passage.Looser (hit? .exact o) (hit? .near n)
  := by
  intro request hit?
  refine ⟨fun mode option => corpus.lookup_eq _, ?_, ?_⟩
  · intro o o'
    refine ⟨?_, ?_, ?_, ?_⟩
    · apply looser_of_places (by decide)
      intro _ _
      apply Match.runs_sublist
      apply Match.forall₂_exact_leading
    · apply looser_of_places (by decide)
      intro _ _
      apply Match.runs_sublist
      apply Match.forall₂_leading_within
    · apply looser_of_places (by decide)
      intro _ _
      apply Match.runs_sublist
      apply Match.forall₂_exact_trailing
    · apply looser_of_places (by decide)
      intro _ _
      apply Match.runs_sublist
      apply Match.forall₂_trailing_within
  · intro n hn
    have hwindow := Match.toInt_eq_window hn
    refine ⟨?_, ?_, ?_⟩
    · apply looser_of_places (by decide)
      intro _ hterms
      apply Match.inOrder_sublist_inAnyOrder hterms
    · intro m hm
      have hwider : Match.window n ≤ Match.window m := by
        have hm' := Match.toInt_eq_window (Int32.le_trans hn hm)
        rw [Int32.le_iff_toInt_le] at hm
        omega
      constructor
      · apply looser_of_places (by decide)
        intro _ _
        apply Match.inOrder_sublist hwider
      · apply looser_of_places (by decide)
        intro _ _
        apply Match.inAnyOrder_sublist hwider
    · intro o hroom
      apply looser_of_places (by decide)
      intro _ hterms
      apply Match.runs_sublist_inOrder hterms
      have hroom' : ((corpus.words (request .exact o)).length : Int) ≤ Match.window n := hwindow ▸ hroom
      exact_mod_cast hroom'

/-- A term of two words, in a section in which the looser modes find it earlier. -/
theorem modes_by_looseness_earlier :
  let corpus := Corpus.empty.add (.number 7) 1 "xa b a c b a b"
  let passage := Corpus.empty.kept (.number 7, 1, "xa b a c b a b")
  let request (mode : MatchMode) (option : Int32) : Lookup := ⟨"a b", mode, option, .utf8⟩
  let hit? (mode : MatchMode) (option : Int32) := corpus.hit? (request mode option) passage
  (1 : Int32) ≤ 2 ∧ (2 : Int32) ≤ 3
    ∧ (corpus.words (request .exact 0)).length ≤ (2 : Int32).toInt
    ∧ corpus.lookup (request .within 0) = [⟨⟨.number 7, 1, 0⟩, 2⟩]
    ∧ hit? .exact 0 = some ⟨1, 5⟩ ∧ hit? .trailing 0 = some ⟨2, 0⟩
    ∧ hit? .near 2 = some ⟨1, 5⟩ ∧ hit? .near 3 = some ⟨2, 2⟩
    ∧ hit? .nearAny 2 = some ⟨3, 1⟩ ∧ hit? .nearAny 3 = some ⟨4, 1⟩
    ∧ passage.Looser (hit? .exact 0) (hit? .trailing 0)
    ∧ passage.Looser (hit? .exact 0) (hit? .near 2)
    ∧ passage.Looser (hit? .near 2) (hit? .near 3)
    ∧ passage.Looser (hit? .near 3) (hit? .nearAny 3)
  := by
  intro corpus passage request hit?
  have hone : (1 : Int32) ≤ 2 := by decide
  have htwo : (2 : Int32) ≤ 3 := by decide
  have hroom : (corpus.words (request .exact 0)).length ≤ (2 : Int32).toInt := by decide
  obtain ⟨-, hparts, hnear⟩ := modes_by_looseness corpus passage "a b" .utf8
  obtain ⟨-, -, htrailing, -⟩ := hparts 0 0
  obtain ⟨-, hwider, hexact⟩ := hnear 2 hone
  obtain ⟨hany, -⟩ := hnear 3 (by decide)
  exact ⟨hone, htwo, hroom, by decide, by decide, by decide, by decide, by decide, by decide,
    by decide, htrailing, hexact 0 hroom, (hwider 3 htwo).1, hany⟩

end Corpus

end Retrieval
