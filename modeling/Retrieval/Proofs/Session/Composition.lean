import Retrieval.Proofs.Session.Template
import Retrieval.Session.Basic

/-!
# Composing statements from pieces

A statement can also be composed of pieces, each of which is a text or a hole, with a count of the
holes and a phase that says what the next fragment is. A value takes the place of the first hole
and is taken from the count, which fails if the count is spent. This never happens: the count is
the number of holes, and a composition comes to the same statements as a draft.
-/

namespace Retrieval

/-- A piece of a statement. -/
inductive Piece where
  | text (l : List Char)
  /-- A place for a value. -/
  | hole
deriving DecidableEq, Repr

/-- What the next fragment is: the beginning of a statement, more text of one, or a value. -/
inductive Phase where
  | idle
  | assembling
  | awaitingValue
deriving DecidableEq, Repr

/-- A statement that is composed of pieces. -/
structure Composition where
  phase : Phase
  pieces : List Piece
  /-- How many values are needed. -/
  holes : Nat
  /-- Whether the text so far ends between quotes. -/
  inQuotes : Bool
  quiet : Bool
deriving DecidableEq, Repr

/-! ### Composing -/

namespace Piece

/-- The pieces with a value in the first hole, if there is one. -/
def fill? (value : List Char) : List Piece → Option (List Piece)
  | [] => none
  | .hole :: ps => some (.text (quoteValue value) :: ps)
  | .text l :: ps => (fill? value ps).map (.text l :: ·)

/-- The texts of pieces one after another. Holes are left out. -/
def assemble : List Piece → List Char
  | [] => []
  | .hole :: ps => assemble ps
  | .text l :: ps => l ++ assemble ps

end Piece

namespace Composition

/-- Nothing yet. -/
def start : Composition :=
  ⟨.idle, [], 0, false, false⟩

/-- Adds the pieces of a fragment. The text before it has been read and has not become a piece. -/
def appendAfter (text : List Char) (c : Composition) : List Char → Composition
  | [] => { c with pieces := c.pieces ++ [.text text] }
  | ['\\'] => { c with pieces := c.pieces ++ [.text (text ++ ['\\'])] }
  | '\\' :: x :: l =>
    if x = '?' ∧ !c.inQuotes then appendAfter (text ++ ['?']) c l
    else appendAfter (text ++ ['\\', x]) c l
  | x :: l =>
    if x = '"' then appendAfter (text ++ ['"']) { c with inQuotes := !c.inQuotes } l
    else if x = '?' ∧ !c.inQuotes then
      appendAfter [] { c with pieces := c.pieces ++ [.text text, .hole], holes := c.holes + 1 } l
    else appendAfter (text ++ [x]) c l

/-- Adds the pieces of a fragment. -/
def append (fragment : List Char) (c : Composition) : Composition :=
  c.appendAfter [] fragment

/-- Puts a value in the first hole, if there is one. This fails if the count of holes is spent. -/
def fill (value : List Char) (c : Composition) : Option Composition :=
  match Piece.fill? value c.pieces with
  | none => some c
  | some pieces =>
    match c.holes with
    | 0 => none
    | holes + 1 => some { c with pieces, holes }

/-- The composition with one more fragment, by its phase. -/
def add (fragment : List Char) (c : Composition) : Option Composition :=
  match c.phase with
  | .idle => some (start.append fragment)
  | .assembling => some (c.append fragment)
  | .awaitingValue => c.fill fragment

/-- The composition after a fragment, and the statement that it completes. -/
def send (fragment : List Char) (flags : Flags) (c : Composition) :
    Option (Composition × Option Statement) := do
  let c ← c.add fragment
  let c := { c with quiet := c.quiet || flags.has .quiet }
  if 0 < c.holes then return ({ c with phase := .awaitingValue }, none)
  else if flags.has .more then return ({ c with phase := .assembling }, none)
  else return ({ c with phase := .idle, pieces := [] }, some ⟨Piece.assemble c.pieces, c.quiet⟩)

end Composition

/-! ### Pieces as templates -/

namespace Template

/-- A template with a place in front goes on like the template. -/
theorem append_consPlace (s t : Template) :
  s.consPlace.append t = (s.append t).consPlace
  := by
  obtain ⟨start, texts⟩ := s
  cases texts <;> rfl

/-- A template with a text in front goes on like the template. -/
theorem append_mk_append (l start : List Char) (texts : List (List Char)) (t : Template) :
  (mk (l ++ start) texts).append t
    = ⟨l ++ ((mk start texts).append t).start, ((mk start texts).append t).afterPlaces⟩
  := by
  cases texts with
  | nil => simp [append]
  | cons text texts => rfl

/-- The template that pieces make. -/
def ofPieces : List Piece → Template
  | [] => ⟨[], []⟩
  | .hole :: ps => (ofPieces ps).consPlace
  | .text l :: ps => ⟨l ++ (ofPieces ps).start, (ofPieces ps).afterPlaces⟩

theorem ofPieces_append (ps qs : List Piece) :
  ofPieces (ps ++ qs) = (ofPieces ps).append (ofPieces qs)
  := by
  induction ps with
  | nil => rfl
  | cons p ps ih =>
    cases p with
    | hole => rw [List.cons_append, ofPieces, ih, ofPieces, append_consPlace]
    | text l => rw [List.cons_append, ofPieces, ih, ofPieces, append_mk_append]

/-- The places of a template are the holes of its pieces. -/
theorem places_ofPieces (ps : List Piece) :
  (ofPieces ps).places = ps.count .hole
  := by
  induction ps with
  | nil => rfl
  | cons p ps ih =>
    cases p with
    | hole =>
      rw [List.count_cons_self, ← ih]
      rfl
    | text l =>
      rw [List.count_cons_of_ne (by simp), ← ih]
      rfl

/-- Without holes pieces are the text of their template. -/
theorem assemble_eq {ps : List Piece} (h : ps.count .hole = 0) :
  Piece.assemble ps = (ofPieces ps).start
  := by
  induction ps with
  | nil => rfl
  | cons p ps ih =>
    cases p with
    | hole => simp at h
    | text l =>
      rw [List.count_cons_of_ne (by simp)] at h
      rw [Piece.assemble, ih h, ofPieces]

/-- A value is put in the first hole as in the first place, and one hole less is left. -/
theorem fill?_eq (value : List Char) {ps : List Piece} (h : 0 < ps.count .hole) :
  ∃ qs, Piece.fill? value ps = some qs ∧ ofPieces qs = (ofPieces ps).fill value
    ∧ qs.count .hole + 1 = ps.count .hole
  := by
  induction ps with
  | nil => simp at h
  | cons p ps ih =>
    cases p with
    | hole =>
      refine ⟨_, rfl, ?_, ?_⟩
      · rw [ofPieces, ofPieces]
        simp [consPlace, fill]
      · rw [List.count_cons_of_ne (by simp), List.count_cons_self]
    | text l =>
      rw [List.count_cons_of_ne (by simp)] at h ⊢
      obtain ⟨qs, hfill, htemplate, hcount⟩ := ih h
      refine ⟨.text l :: qs, ?_, ?_, ?_⟩
      · rw [Piece.fill?, hfill]
        rfl
      · obtain ⟨text, texts, htexts⟩ : ∃ text texts, (ofPieces ps).afterPlaces = text :: texts := by
          apply List.exists_cons_of_length_pos
          rwa [← places, places_ofPieces]
        rw [ofPieces, htemplate, ofPieces, fill, fill, htexts]
        simp
      · rwa [List.count_cons_of_ne (by simp)]

end Template

namespace Template

/-- A backslash and a character are both part of the text, but for a backslash that keeps a question
mark from being a place. -/
theorem ofChars_escape (inQuotes : Bool) (c : Char) (l : List Char) :
  ofChars inQuotes ('\\' :: c :: l)
    = (if c = '?' ∧ !inQuotes then (ofChars inQuotes l).1.cons '?'
        else ((ofChars inQuotes l).1.cons c).cons '\\', (ofChars inQuotes l).2)
  := by
  rw [ofChars]
  dsimp only
  split <;> rfl

theorem ofChars_cons_of_ne {c : Char} (hc : c ≠ '\\') (inQuotes : Bool) (l : List Char) :
  ofChars inQuotes (c :: l)
    = if c = '"' then ((ofChars (!inQuotes) l).1.cons c, (ofChars (!inQuotes) l).2)
      else (if c = '?' ∧ !inQuotes then (ofChars inQuotes l).1.consPlace
        else (ofChars inQuotes l).1.cons c, (ofChars inQuotes l).2)
  := by
  rw [ofChars]
  · dsimp only
    split
    · rfl
    · split <;> rfl
  · exact fun h => absurd h hc
  · exact fun _ _ h => absurd h hc

end Template

/-- A draft awaits a value as long as its template has a place. -/
theorem Draft.awaitsValue_iff (d : Draft) :
  d.awaitsValue = true ↔ 0 < d.template.places
  := by
  rw [awaitsValue, Template.places, List.length_pos_iff, Bool.not_eq_true',
    List.isEmpty_eq_false_iff]

namespace Composition

/-- The pieces of a fragment make its template. -/
theorem appendAfter_eq (text : List Char) (c : Composition) (l : List Char) :
  ∃ ps, c.appendAfter text l
      = { c with
          pieces := c.pieces ++ ps
          holes := c.holes + ps.count .hole
          inQuotes := (Template.ofChars c.inQuotes l).2 }
    ∧ Template.ofPieces ps
      = ⟨text ++ (Template.ofChars c.inQuotes l).1.start,
        (Template.ofChars c.inQuotes l).1.afterPlaces⟩
  := by
  fun_induction appendAfter text c l with
  | case1 text c => exact ⟨[.text text], rfl, rfl⟩
  | case2 text c =>
    refine ⟨[.text (text ++ ['\\'])], rfl, ?_⟩
    simp [Template.ofPieces, Template.ofChars]
  | case3 text c x l hplace ih =>
    obtain ⟨ps, happend, htemplate⟩ := ih
    refine ⟨ps, ?_, ?_⟩
    · rw [happend, Template.ofChars_escape]
    · rw [htemplate, Template.ofChars_escape, if_pos hplace]
      simp [Template.cons]
  | case4 text c x l hplace ih =>
    obtain ⟨ps, happend, htemplate⟩ := ih
    refine ⟨ps, ?_, ?_⟩
    · rw [happend, Template.ofChars_escape]
    · rw [htemplate, Template.ofChars_escape, if_neg hplace]
      simp [Template.cons]
  | case5 text c l hlast hmore ih =>
    obtain ⟨ps, happend, htemplate⟩ := ih
    refine ⟨ps, ?_, ?_⟩
    · rw [happend, Template.ofChars_cons_of_ne (by decide), if_pos rfl]
    · rw [htemplate, Template.ofChars_cons_of_ne (by decide), if_pos rfl]
      simp [Template.cons]
  | case6 text c x l hlast hmore hquote hplace ih =>
    obtain ⟨ps, happend, htemplate⟩ := ih
    have hslash := ne_backslash hlast hmore
    refine ⟨.text text :: .hole :: ps, ?_, ?_⟩
    · rw [happend, Template.ofChars_cons_of_ne hslash, if_neg hquote]
      simp [Nat.add_comm, Nat.add_left_comm]
    · rw [Template.ofChars_cons_of_ne hslash, if_neg hquote, if_pos hplace, Template.ofPieces,
        Template.ofPieces, htemplate]
      simp [Template.consPlace]
  | case7 text c x l hlast hmore hquote hplace ih =>
    obtain ⟨ps, happend, htemplate⟩ := ih
    have hslash := ne_backslash hlast hmore
    refine ⟨ps, ?_, ?_⟩
    · rw [happend, Template.ofChars_cons_of_ne hslash, if_neg hquote]
    · rw [htemplate, Template.ofChars_cons_of_ne hslash, if_neg hquote, if_neg hplace]
      simp [Template.cons]

/-! ### Compositions as drafts -/

/-- The draft of a composition. A composition that is idle is none. -/
def draft (c : Composition) : Option Draft :=
  if c.phase = .idle then none else some ⟨Template.ofPieces c.pieces, c.inQuotes, c.quiet⟩

/-- The count of a composition is the number of its holes. Values are awaited as long as there are
holes, and when the next statement begins no pieces are left. -/
structure Consistent (c : Composition) : Prop where
  holes_eq : c.holes = c.pieces.count .hole
  awaits_iff : c.phase = .awaitingValue ↔ 0 < c.holes
  pieces_idle : c.phase = .idle → c.pieces = []

theorem Consistent.start :
  start.Consistent
  := ⟨rfl, by decide, fun _ => rfl⟩

variable {c : Composition}

/-- A fragment is added to a composition as to its draft. -/
theorem Consistent.add (h : c.Consistent) (fragment : List Char) (quiet : Bool) :
  ∃ c', c.add fragment = some c' ∧ c'.holes = c'.pieces.count .hole
    ∧ (c.draft.getD .start).add fragment quiet
      = ⟨Template.ofPieces c'.pieces, c'.inQuotes, c'.quiet || quiet⟩
  := by
  rw [Composition.add, draft]
  cases hphase : c.phase with
  | idle =>
    obtain ⟨ps, happend, htemplate⟩ := appendAfter_eq [] Composition.start fragment
    refine ⟨_, rfl, ?_, ?_⟩
    · rw [append, happend]
      simp [Composition.start]
    · rw [append, happend]
      simp [Composition.start, Draft.add, Draft.start, Draft.awaitsValue, Draft.append,
        Template.append, htemplate]
  | assembling =>
    obtain ⟨ps, happend, htemplate⟩ := appendAfter_eq [] c fragment
    have hplaces : ¬(0 < (Template.ofPieces c.pieces).places) := by
      rw [Template.places_ofPieces, ← h.holes_eq, ← h.awaits_iff, hphase]
      simp
    refine ⟨_, rfl, ?_, ?_⟩
    · rw [append, happend]
      simp [h.holes_eq]
    · rw [append, happend, if_neg (by simp), Option.getD_some, Draft.add,
        if_neg (by rwa [Draft.awaitsValue_iff]), Draft.append]
      simp [Template.ofPieces_append, htemplate]
  | awaitingValue =>
    have hholes : 0 < c.holes := h.awaits_iff.mp hphase
    have hcount : 0 < c.pieces.count .hole := h.holes_eq ▸ hholes
    obtain ⟨ps, hfill, htemplate, hless⟩ := Template.fill?_eq fragment hcount
    obtain ⟨n, hn⟩ := Nat.exists_eq_add_one.mpr hholes
    have hplaces : 0 < (Template.ofPieces c.pieces).places := by rwa [Template.places_ofPieces]
    refine ⟨{ c with pieces := ps, holes := n }, ?_, ?_, ?_⟩
    · rw [fill, hfill, hn]
    · have hcounts := h.holes_eq
      dsimp only
      omega
    · rw [if_neg (by simp), Option.getD_some, Draft.add,
        if_pos ((Draft.awaitsValue_iff _).mpr hplaces), htemplate]

/-- A fragment never spends more of the count than there is. What it makes of a composition is what
it makes of its draft, and it completes the same statement. -/
theorem Consistent.send (h : c.Consistent) (fragment : List Char) (flags : Flags) :
  let d := (c.draft.getD .start).add fragment (flags.has .quiet)
  ∃ c' done, c.send fragment flags = some (c', done) ∧ c'.Consistent
    ∧ (c'.draft, done) = if d.awaitsValue ∨ flags.has .more then (some d, none)
      else (none, some ⟨d.template.start, d.quiet⟩)
  := by
  intro d
  obtain ⟨c', hadd, hholes, hd⟩ := h.add fragment (flags.has .quiet)
  have hd : d = ⟨Template.ofPieces c'.pieces, c'.inQuotes, c'.quiet || flags.has .quiet⟩ := hd
  clear_value d
  subst hd
  have hawaits : Draft.awaitsValue
      ⟨Template.ofPieces c'.pieces, c'.inQuotes, c'.quiet || flags.has .quiet⟩ = true
        ↔ 0 < c'.holes := by
    rw [Draft.awaitsValue_iff, hholes, ← Template.places_ofPieces]
  rw [Composition.send, hadd]
  simp only [Option.bind_eq_bind, Option.bind_some, hawaits]
  by_cases hpos : 0 < c'.holes
  · refine ⟨_, _, if_pos hpos, ⟨hholes, ?_, ?_⟩, ?_⟩
    · simp [hpos]
    · simp
    · simp [hpos, draft]
  · rw [if_neg hpos]
    by_cases hmore : flags.has .more = true
    · refine ⟨_, _, if_pos hmore, ⟨hholes, ?_, ?_⟩, ?_⟩
      · simp [hpos]
      · simp
      · simp [hmore, draft]
    · have hnone : c'.pieces.count .hole = 0 := by omega
      refine ⟨_, _, if_neg hmore, ⟨?_, ?_, ?_⟩, ?_⟩
      · simp [hholes, hnone]
      · simp [hpos]
      · simp
      · simp [hpos, hmore, draft, Template.assemble_eq hnone]

end Composition

end Retrieval
