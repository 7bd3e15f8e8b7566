import Retrieval.Proofs.Evaluation.Scoring
import Retrieval.Proofs.Index.Places

/-!
# Postings of sections

A lookup answers with at most one posting for each section, in the order in which the sections were
added. Eight of the nine modes find words of a section, so their places are places of words. An unsplit
match finds a place in the text and gives the word in which it lies, so it needs a word to give: in a
section all of whose runs are too long for a word it still reports the place zero, where no word is.
-/

namespace Retrieval

namespace Match

variable {terms words : List Word} {p : Nat}

/-! ### Places are places of words -/

theorem lt_of_mem_placesFrom {q : List Word → Bool} (h : p ∈ placesFrom q 0 words) :
  p < words.length
  := (mem_placesFrom_iff.mp h).1

theorem lt_of_mem_shared {threshold : Int32} (h : p ∈ shared terms threshold words) :
  p < words.length
  := by
  obtain ⟨word, -, hword⟩ := List.mem_filterMap.mp h
  obtain ⟨hlength, -⟩ := List.idxOf?_eq_some_iff.mp hword
  exact hlength

theorem lt_of_mem_extracted {term : List Char} (h : p ∈ extracted term words) :
  p < words.length
  := by
  obtain ⟨word, hword, rfl⟩ := List.mem_map.mp h
  apply List.idxOf_lt_length_of_mem
  exact List.mem_eraseDups.mp (List.mem_filter.mp hword).1

/-- A place lies in a word if there is one. -/
theorem wordAt_lt {starts : List Nat} (h : starts ≠ []) (place : Nat) :
  wordAt starts place < starts.length
  := by
  have hpositive : 0 < starts.length := List.length_pos_iff.mpr h
  have hle := List.length_filter_le (· ≤ place) starts
  rw [wordAt]
  omega

variable {mode : MatchMode} {option : Int32} {term text : List Char} {tokens : List Text.Token}

/-- What an unsplit match gives without words. -/
theorem eq_zero_of_mem_unsplit (h : p ∈ unsplit term text []) :
  p = 0
  := by
  obtain ⟨place, -, rfl⟩ := List.mem_map.mp h
  rfl

/-- The places of a match are places of words, unless there are no words for an unsplit match. -/
theorem lt_of_mem_places (h : p ∈ places mode option term terms text tokens)
    (hwords : mode = .unsplit → tokens ≠ []) :
  p < tokens.length
  := by
  rw [← List.length_map Text.Token.chars]
  cases mode with
  | exact | within | leading | trailing | near | nearAny => exact lt_of_mem_placesFrom h
  | similar => exact lt_of_mem_shared h
  | extract => exact lt_of_mem_extracted h
  | unsplit =>
    obtain ⟨place, -, rfl⟩ := List.mem_map.mp h
    have hstarts : tokens.map Text.Token.start ≠ [] := by
      rw [ne_eq, List.map_eq_nil_iff]
      exact hwords rfl
    have hlt := wordAt_lt hstarts place
    rwa [List.length_map] at hlt ⊢

end Match

/-! ### Postings of a section -/

/-- A posting that a lookup may give for a section. Only an unsplit match finds anything in a section
without words. -/
structure Posting.Places (mode : MatchMode) (posting : Posting) (passage : Passage) : Prop where
  key_eq : posting.key = passage.key
  sectionNo_eq : posting.sectionNo = passage.number
  one_le_score : 1 ≤ posting.score
  position_lt : passage.tokens ≠ [] → posting.position.toNat < passage.tokens.length
  wordless : passage.tokens = [] → mode = .unsplit ∧ posting.position = 0

/-- What is reported is a first place and a number of places. -/
theorem Corpus.places_of_hit? {corpus : Corpus} {request : Lookup} {passage : Passage}
    {hit : Match.Hit} (h : corpus.hit? request passage = some hit) :
  (passage.posting hit).Places request.mode passage
  := by
  rw [hit?] at h
  split at h
  · cases h
  · have hcount := Match.count_pos h
    obtain ⟨-, hfirst, -⟩ := Match.hit?_eq_some_iff.mp h
    constructor
    · rfl
    · rfl
    · rw [Passage.posting, Int32.le_iff_toInt_le, Score.toInt_saturate, Int32.toInt_one]
      omega
    · intro hwords
      have hlt := Match.lt_of_mem_places hfirst fun _ => hwords
      rw [Passage.posting, UInt32.toNat_ofNat']
      apply Nat.lt_of_le_of_lt (Nat.mod_le _ _) hlt
    · intro hwords
      have hunsplit : request.mode = .unsplit := by
        by_contra hmode
        have hlt := Match.lt_of_mem_places hfirst fun h => absurd h hmode
        rw [hwords] at hlt
        cases hlt
      refine ⟨hunsplit, ?_⟩
      rw [hunsplit, hwords] at hfirst
      rw [Passage.posting, Match.eq_zero_of_mem_unsplit hfirst]
      rfl

/-! ### Sections of a corpus -/

namespace Corpus

/-- What is added to a corpus: a section, or a document with all its sections. -/
inductive Addition where
  | passage (key : Key) (number : UInt32) (text : String)
  | document (key : Key) (texts : List String)

/-- The corpus with what is added. -/
def Addition.apply (corpus : Corpus) : Addition → Corpus
  | passage key number text => corpus.add key number text
  | document key texts => corpus.addDocument key texts

/-- The key, the number and the text of each section that is added. Those of a document are numbered
from one. -/
def Addition.sections : Addition → List (Key × UInt32 × String)
  | passage key number text => [(key, number, text)]
  | document key texts => texts.zipIdx.map fun (text, i) => (key, UInt32.ofNat (i + 1), text)

/-- The section that is kept: its text as the corpus compares it, and the tokens of that. -/
def kept (corpus : Corpus) : Key × UInt32 × String → Passage
  | (key, number, text) =>
    ⟨key, number, corpus.fold text,
      Text.tokens corpus.encoding.isSpace (corpus.fold text).toList⟩

/-- The corpus with more sections behind those it has. -/
def append (corpus : Corpus) (sections : List (Key × UInt32 × String)) : Corpus :=
  { corpus with passages := corpus.passages ++ sections.map corpus.kept }

theorem append_append (corpus : Corpus) (sections more : List (Key × UInt32 × String)) :
  (corpus.append sections).append more = corpus.append (sections ++ more)
  := by
  rw [append, append, append, List.map_append, ← List.append_assoc]
  rfl

theorem foldl_append {α : Type} (f : α → List (Key × UInt32 × String)) (l : List α)
    (corpus : Corpus) :
  l.foldl (fun corpus x => corpus.append (f x)) corpus = corpus.append (l.flatMap f)
  := by
  induction l generalizing corpus with
  | nil =>
    rw [List.flatMap_nil, append, List.map_nil, List.append_nil]
    rfl
  | cons x l ih => rw [List.foldl_cons, ih, append_append, List.flatMap_cons]

theorem apply_eq_append (corpus : Corpus) (addition : Addition) :
  addition.apply corpus = corpus.append addition.sections
  := by
  cases addition with
  | passage key number text => rfl
  | document key texts =>
    rw [Addition.sections, List.map_eq_flatMap, ← foldl_append]
    rfl

/-- A corpus has the sections of all that is added to it. -/
theorem foldl_apply_eq (corpus : Corpus) (additions : List Addition) :
  additions.foldl Addition.apply corpus
    = corpus.append (additions.flatMap Addition.sections)
  := by
  rw [← foldl_append]
  apply congrArg (fun f => additions.foldl f corpus)
  funext corpus addition
  apply apply_eq_append

/-- The postings of a lookup. -/
theorem exists_sections_of_lookup (corpus : Corpus) (request : Lookup) :
  ∃ found : List Passage, found.Sublist corpus.passages
    ∧ List.Forall₂ (Posting.Places request.mode) (corpus.lookup request) found
  := by
  rw [lookup_eq]
  induction corpus.passages with
  | nil => exact ⟨[], .slnil, .nil⟩
  | cons passage passages ih =>
    obtain ⟨found, hfound, hpostings⟩ := ih
    cases hhit : corpus.hit? request passage with
    | none =>
      rw [List.filterMap_cons_none (by rw [hhit, Option.map_none])]
      exact ⟨found, hfound.cons passage, hpostings⟩
    | some hit =>
      rw [List.filterMap_cons_some (by rw [hhit, Option.map_some])]
      exact ⟨passage :: found, hfound.cons_cons passage, .cons (places_of_hit? hhit) hpostings⟩

/-- Postings are well-formed as far as sections have words. In a corpus of what has been added to it,
with any encoding and with or without case, the sections are those that were added, in their order. A
lookup of any term, in any mode and with any option and encoding, answers with at most one posting for
each section, in the order of the sections. It has the key and the number of the section and a score of
at least one, and its position is the place of a word of the section if the section has words. Only an
unsplit match finds anything in a section without words, and then the position is zero. -/
theorem lookup_postings (encoding : Encoding) (foldsCase : Bool) (additions : List Addition)
    (request : Lookup) :
  let corpus := additions.foldl Addition.apply ⟨[], encoding, foldsCase⟩
  corpus.passages = (additions.flatMap Addition.sections).map corpus.kept
    ∧ ∃ found : List Passage, found.Sublist corpus.passages
      ∧ List.Forall₂ (Posting.Places request.mode) (corpus.lookup request) found
  := by
  intro corpus
  refine ⟨?_, corpus.exists_sections_of_lookup request⟩
  have hcorpus : corpus
      = append ⟨[], encoding, foldsCase⟩ (additions.flatMap Addition.sections) :=
    foldl_apply_eq _ additions
  rw [hcorpus]
  rfl

/-- A section whose only run of letters is too long for a word. An unsplit match finds a letter of it,
and gives a position at which no word is. -/
theorem unsplit_without_words :
  let letters := List.replicate 129 'x'
  let corpus := Corpus.empty.add (.number 7) 1 (String.ofList letters)
  corpus.passages = [⟨.number 7, 1, String.ofList letters, []⟩]
    ∧ corpus.lookup ⟨"x", .unsplit, 0, .unspecified⟩ = [⟨⟨.number 7, 1, 0⟩, 129⟩]
  := by
  intro letters corpus
  have hfold : Corpus.empty.fold (String.ofList letters) = String.ofList letters := by
    rw [fold, empty, if_pos rfl, Text.lowercase, String.toList_ofList, if_pos (by decide +kernel),
      List.map_replicate]
    rfl
  have hpassages : corpus.passages = [⟨.number 7, 1, String.ofList letters, []⟩] := by
    change [Corpus.empty.kept (.number 7, 1, String.ofList letters)] = _
    have htokens : Text.tokens Corpus.empty.encoding.isSpace letters = [] := by decide +kernel
    rw [kept, hfold, String.toList_ofList, htokens]
  have hhit : corpus.hit? ⟨"x", .unsplit, 0, .unspecified⟩
      ⟨.number 7, 1, String.ofList letters, []⟩ = some ⟨129, 0⟩ := by
    have hterm : (corpus.fold "x").toList = ['x'] := by decide +kernel
    have hword : corpus.words ⟨"x", .unsplit, 0, .unspecified⟩ = [['x']] := by decide +kernel
    have hplaces : Match.hit? (Match.unsplit ['x'] letters []) = some ⟨129, 0⟩ := by decide +kernel
    rw [hit?, hword, if_neg (by decide), hterm, Passage.hit?, Match.places, String.toList_ofList]
    exact hplaces
  refine ⟨hpassages, ?_⟩
  rw [lookup_eq, hpassages, List.filterMap_cons_some (by rw [hhit, Option.map_some])]
  rfl

end Corpus

end Retrieval
