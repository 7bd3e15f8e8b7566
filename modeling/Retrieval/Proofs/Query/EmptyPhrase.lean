import Mathlib.Control.Monad.Basic
import Retrieval.Proofs.Query.Rounds

/-!
# Empty phrases

A phrase without a text is no operand: it uses up the way of matching in front of it, but not the
connective. That is left for the next operand between the same brackets, which takes it unless it
has one of its own. So a query with empty phrases is read as the one without them in which those
connectives have been handed on, and an empty phrase leaves no trace just where there is none to
hand on or nothing takes it.
-/

namespace Retrieval

/-- An operand of a query, or an empty phrase in the place of one, with the connective and the way
of matching in front of it. -/
inductive Clause where
  | term (connective : Option Connective) (t : WrittenTerm)
  | empty (connective : Option Connective) (mode : Option WrittenMode)
  | group (connective : Option Connective) (mode : Option WrittenMode) (clauses : List Clause)

namespace Clause

mutual

/-- A clause as text. -/
def render : Clause → List Char
  | term connective t => Connective.renderFront connective ++ t.render
  | empty connective mode =>
    Connective.renderFront connective ++ (mode.elim [] WrittenMode.render ++ ['"', '"'])
  | group connective mode clauses =>
    Connective.renderFront connective
      ++ (mode.elim [] WrittenMode.render ++ '(' :: (renderAll clauses ++ [')']))

/-- Clauses as text, with a space between each of them and the next one. -/
def renderAll : List Clause → List Char
  | [] => []
  | x :: xs => render x ++ renderMore xs

/-- Further clauses as text. -/
def renderMore : List Clause → List Char
  | [] => []
  | x :: xs => ' ' :: (render x ++ renderMore xs)

end

mutual

/-- The number of groups and terms of a clause. -/
def size : Clause → Nat
  | term _ _ => 1
  | empty _ _ => 0
  | group _ _ clauses => 1 + sizeAll clauses

/-- The number of groups and terms of clauses. -/
def sizeAll : List Clause → Nat
  | [] => 0
  | x :: xs => size x + sizeAll xs

end

/-- A clause all of whose terms can be written. -/
inductive Valid (isSpace : Char → Bool) : Clause → Prop where
  | term {connective : Option Connective} {t : WrittenTerm} (h : t.Valid isSpace) :
    Valid isSpace (term connective t)
  | empty {connective : Option Connective} {mode : Option WrittenMode} :
    Valid isSpace (empty connective mode)
  | group {connective : Option Connective} {mode : Option WrittenMode} {clauses : List Clause}
    (h : ∀ x ∈ clauses, Valid isSpace x) :
    Valid isSpace (group connective mode clauses)

/-- The connective that is pending behind a clause. An empty phrase leaves the one in front of
it, or else the one that was pending already. -/
def pendingAfter (pending : Option Connective) : Clause → Option Connective
  | empty connective _ => connective.or pending
  | term _ _ | group _ _ _ => none

mutual

/-- The operand that a clause stands for behind a connective that is pending, if it is one. -/
def settle : Option Connective → Clause → List Written
  | pending, term connective t => [.term (connective.or pending) t]
  | _, empty _ _ => []
  | pending, group connective _ clauses => [.group (connective.or pending) (settleAll none clauses)]

/-- The operands that clauses stand for behind a connective that is pending. -/
def settleAll : Option Connective → List Clause → List Written
  | _, [] => []
  | pending, x :: xs => settle pending x ++ settleAll (x.pendingAfter pending) xs

end

end Clause

/-! ### Reading clauses -/

theorem Written.operands_append (standard : Connective) (weight : Score) (ws ws' : List Written) :
  operands standard weight (ws ++ ws') = operands standard weight ws ++ operands standard weight ws'
  := by
  induction ws with
  | nil => simp [operands]
  | cons w ws ih => simp [operands, ih]

namespace Assembly

variable {setting : Setting} {encoding : Encoding} {a : Assembly} {rest : List Char}

theorem readOn_optionalMode (hbudget : a.budget ≠ 0) (mode : Option WrittenMode) (l : List Char) :
  a.readOn setting encoding.isSpace (mode.elim [] WrittenMode.render ++ l)
    = { a with
        inner := { a.inner with
          mode := (mode.map WrittenMode.choice).or a.inner.mode } }.readOn setting
            encoding.isSpace l
  := by
  cases mode with
  | none => rfl
  | some m => apply readOn_mode hbudget

/-- An empty phrase uses up the way of matching and nothing else. -/
theorem readOn_emptyPhrase (hbudget : a.budget ≠ 0) (l : List Char) :
  a.readOn setting encoding.isSpace ('"' :: '"' :: l)
    = { a with inner := { a.inner with mode := none } }.readOn setting encoding.isSpace l
  := by
  apply readOn_cons (encoding.isSpace_sign '"' (by decide)) (x := .phrase [] true false)
  · rfl
  · exact hbudget
  · rfl

/-- The assembly with the operands that clauses stand for. -/
def withClauses (setting : Setting) (xs : List Clause) (a : Assembly) : Assembly :=
  ⟨⟨a.inner.operands ++ Written.operands setting.standard setting.termWeight
        (Clause.settleAll a.inner.connective xs),
      xs.foldl Clause.pendingAfter a.inner.connective, none⟩,
    a.outer, a.budget - Clause.sizeAll xs⟩

theorem withClauses_singleton (x : Clause) (a : Assembly) :
  a.withClauses setting [x]
    = ⟨⟨a.inner.operands ++ Written.operands setting.standard setting.termWeight
          (x.settle a.inner.connective), x.pendingAfter a.inner.connective, none⟩,
        a.outer, a.budget - x.size⟩
  := by simp [withClauses, Clause.settleAll, Clause.sizeAll]

theorem withClauses_cons (x : Clause) (xs : List Clause) (a : Assembly) :
  (a.withClauses setting [x]).withClauses setting xs = a.withClauses setting (x :: xs)
  := by
  simp [withClauses, Clause.settleAll, Clause.sizeAll,
    Written.operands_append, Nat.sub_sub]

/-- What follows a clause among others does not run on. -/
theorem separated_renderMoreClauses (xs : List Clause) (hrest : Separated rest) :
  Separated (Clause.renderMore xs ++ rest)
  := by
  cases xs with
  | nil => exact hrest
  | cons x xs =>
    rw [Clause.renderMore, List.cons_append]
    apply separated_space

theorem readOn_renderMoreClauses (xs : List Clause) :
  a.readOn setting encoding.isSpace (Clause.renderMore xs ++ rest)
    = a.readOn setting encoding.isSpace (Clause.renderAll xs ++ rest)
  := by
  cases xs with
  | nil => rfl
  | cons x xs => rw [Clause.renderMore, List.cons_append, readOn_space, Clause.renderAll]

mutual

/-- Reading a clause, in whatever follows it, adds the operand it stands for, if it is one. -/
theorem readOn_clause {a : Assembly} {rest : List Char} (x : Clause)
    (hx : x.Valid encoding.isSpace) (hrest : Separated rest) (hmode : a.inner.mode = none)
    (hbudget : x.size < a.budget) :
  a.readOn setting encoding.isSpace (x.render ++ rest)
    = (a.withClauses setting [x]).readOn setting encoding.isSpace rest
  := by
  have hpos : a.budget ≠ 0 := Nat.ne_zero_of_lt hbudget
  cases hx with
  | @term connective t ht =>
    rw [Clause.render, ← Written.render, readOn_writtenTerm ht hrest hmode hpos,
      withClauses_singleton]
    simp [withOperands, Clause.settle, Clause.pendingAfter, Clause.size,
      Written.operands, Written.operand]
  | @empty connective mode =>
    let joined : Assembly :=
      { a with inner := { a.inner with connective := connective.or a.inner.connective } }
    let asked : Assembly :=
      { joined with inner := { joined.inner with mode := (mode.map WrittenMode.choice).or none } }
    have hrender : (Clause.empty connective mode).render ++ rest
        = Connective.renderFront connective
          ++ (mode.elim [] WrittenMode.render ++ '"' :: '"' :: rest) := by
      simp [Clause.render]
    rw [hrender, readOn_connective hpos, readOn_optionalMode (a := joined) hpos, hmode,
      readOn_emptyPhrase (a := asked) hpos, withClauses_singleton]
    simp [asked, joined, Clause.settle, Clause.pendingAfter, Clause.size, Written.operands]
  | @group connective mode xs hxs =>
    let joined : Assembly :=
      { a with inner := { a.inner with connective := connective.or a.inner.connective } }
    let asked : Assembly :=
      { joined with inner := { joined.inner with mode := (mode.map WrittenMode.choice).or none } }
    let opened : Assembly :=
      ⟨.start, { asked.inner with mode := none } :: asked.outer, asked.budget - 1⟩
    have hrender : (Clause.group connective mode xs).render ++ rest
        = Connective.renderFront connective ++ (mode.elim [] WrittenMode.render
          ++ '(' :: (Clause.renderAll xs ++ ')' :: rest)) := by
      simp [Clause.render]
    have hsize : Clause.sizeAll xs + 1 < asked.budget := by
      change Clause.sizeAll xs + 1 < a.budget
      rw [Clause.size] at hbudget
      omega
    have hinner : opened.readOn setting encoding.isSpace (_ ++ ')' :: rest) = _ :=
      readOn_clauses xs hxs (separated_closing rest) rfl (Nat.lt_sub_of_add_lt hsize)
    rw [hrender, readOn_connective hpos, readOn_optionalMode (a := joined) hpos, hmode,
      readOn_brackets (a := asked) hsize hinner, withClauses_singleton]
    simp [opened, asked, joined, withOperands, Level.start, Clause.settle, Clause.pendingAfter,
      Clause.size, Written.operands, Written.operand]

theorem readOn_clauses {a : Assembly} {rest : List Char} (xs : List Clause)
    (hxs : ∀ x ∈ xs, x.Valid encoding.isSpace) (hrest : Separated rest)
    (hmode : a.inner.mode = none) (hbudget : Clause.sizeAll xs < a.budget) :
  a.readOn setting encoding.isSpace (Clause.renderAll xs ++ rest)
    = (a.withClauses setting xs).readOn setting encoding.isSpace rest
  := by
  match xs with
  | [] =>
    obtain ⟨⟨operands, connective, _⟩, outer, budget⟩ := a
    obtain rfl := hmode
    simp [Clause.renderAll, Clause.settleAll, Clause.sizeAll, Written.operands, withClauses]
  | x :: xs =>
    rw [Clause.sizeAll] at hbudget
    have hmore : Clause.sizeAll xs < (a.withClauses setting [x]).budget := by
      change Clause.sizeAll xs < a.budget - (x.size + 0)
      omega
    rw [Clause.renderAll, List.append_assoc,
      readOn_clause x (hxs x List.mem_cons_self) (separated_renderMoreClauses xs hrest) hmode
        (by omega),
      readOn_renderMoreClauses,
      readOn_clauses xs (fun y hy => hxs y (List.mem_cons_of_mem x hy)) hrest rfl hmore,
      withClauses_cons]

end

/-- Clauses are read to their end, where a connective that is still pending is dropped. -/
theorem readOn_finishClauses {xs : List Clause} (hxs : ∀ x ∈ xs, x.Valid encoding.isSpace)
    {budget : Nat} (hbudget : Clause.sizeAll xs < budget) :
  (start budget).readOn setting encoding.isSpace (Clause.renderAll xs)
    = .ok (Operand.combine setting.standard (Written.operands setting.standard setting.termWeight
        (Clause.settleAll none xs)), [])
  := by
  have hread : (start budget).readOn setting encoding.isSpace (Clause.renderAll xs ++ []) = _ :=
    readOn_clauses xs hxs separated_nil rfl hbudget
  rw [List.append_nil] at hread
  rw [hread, readOn, lexemes_nil, ← Operand.fold_eq_combine]
  rfl

end Assembly

namespace Clause

variable {encoding : Encoding}

theorem undirected_optionalMode (mode : Option WrittenMode) {l : List Char}
    (hl : Undirected encoding.isSpace l) :
  Undirected encoding.isSpace (mode.elim [] WrittenMode.render ++ l)
  := by
  cases mode with
  | none => exact hl
  | some m => apply Written.undirected_mode

/-- Clauses do not begin with a directive. -/
theorem undirected_renderAll {xs : List Clause} (hxs : ∀ x ∈ xs, x.Valid encoding.isSpace) :
  Undirected encoding.isSpace (renderAll xs)
  := by
  cases xs with
  | nil => exact ⟨by simp [renderAll], rfl⟩
  | cons x xs =>
    rw [renderAll]
    cases hxs x List.mem_cons_self with
    | term ht =>
      rw [render, List.append_assoc]
      apply Written.undirected_renderFront
      apply Written.undirected_term ht
    | empty =>
      rw [render, List.append_assoc, List.append_assoc]
      apply Written.undirected_renderFront
      apply undirected_optionalMode
      apply Written.undirected_sign (by decide)
    | group =>
      rw [render, List.append_assoc, List.append_assoc]
      apply Written.undirected_renderFront
      apply undirected_optionalMode
      apply Written.undirected_sign (by decide)

theorem length_renderAll_le (xs : List Clause) :
  (renderAll xs).length ≤ (renderMore xs).length
  := by cases xs <;> simp [renderAll, renderMore]

mutual

/-- Each group has brackets, and each term a text. -/
theorem size_le_length {x : Clause} (hx : x.Valid encoding.isSpace) :
  x.size ≤ x.render.length
  := by
  cases hx with
  | @term connective t ht =>
    have hlength := List.length_pos_iff.mpr (Written.renderText_ne_nil ht)
    simp only [size, render, WrittenTerm.render, List.length_append]
    omega
  | empty => apply Nat.zero_le
  | group hxs =>
    have hlength := sizeAll_le_length hxs
    simp only [size, render, List.length_append, List.length_cons, List.length_nil]
    omega

theorem sizeAll_le_length {xs : List Clause} (hxs : ∀ x ∈ xs, x.Valid encoding.isSpace) :
  sizeAll xs ≤ (renderAll xs).length
  := by
  match xs with
  | [] => apply Nat.zero_le
  | x :: xs =>
    obtain ⟨hx, hxs⟩ := List.forall_mem_cons.mp hxs
    have hfirst := size_le_length hx
    have hmore := sizeAll_le_length hxs
    have hspace := length_renderAll_le xs
    rw [sizeAll, renderAll, List.length_append]
    omega

end

end Clause

/-- A query that is written out of clauses is read, all of it, as the operands that the clauses
stand for. -/
theorem Query.value_read_clauses (options : ReadOptions) {xs : List Clause}
    (hxs : ∀ x ∈ xs, x.Valid options.encoding.isSpace)
    (hbudget : Clause.sizeAll xs < options.budget.toNat) :
  (read options (String.ofList (Clause.renderAll xs))).value
    = .ok {
        root := Operand.combine options.defaultOperator.connective
          (Written.operands options.defaultOperator.connective options.termWeight
            (Clause.settleAll none xs))
        directives := .ofOperator options.defaultOperator
        rest := "" }
  := by
  have hpos : options.budget ≠ 0 := by
    rintro h
    rw [h] at hbudget
    apply absurd hbudget (Nat.not_lt_zero _)
  rw [value_read_of_undirected (Clause.undirected_renderAll hxs) hpos,
    Assembly.readOn_finishClauses hxs hbudget]
  rfl

/-! ### Clauses among others -/

/-- A place among clauses, behind some of them, or behind clauses within a group of them. -/
inductive Gap where
  | here (front : List Clause)
  | inside (front : List Clause) (connective : Option Connective) (mode : Option WrittenMode)
    (gap : Gap) (back : List Clause)

/-- The clauses with some of them put in the place. -/
def Gap.fill : Gap → List Clause → List Clause
  | here front, xs => front ++ xs
  | inside front connective mode gap back, xs =>
    front ++ .group connective mode (gap.fill xs) :: back

namespace Clause

/-- The connective in front of a clause. -/
def connective : Clause → Option Connective
  | term connective _ => connective
  | empty connective _ => connective
  | group connective _ _ => connective

/-- The clause with a connective in front of it, unless it has one. -/
def behind (c : Option Connective) : Clause → Clause
  | term connective t => term (connective.or c) t
  | empty connective mode => empty (connective.or c) mode
  | group connective mode clauses => group (connective.or c) mode clauses

/-- A connective is handed on to the first clause, if there is one. -/
def handOn (c : Option Connective) (xs : List Clause) : List Clause :=
  xs.modifyHead (behind c)

variable {c : Option Connective} {xs ys : List Clause}

theorem settleAll_append (pending : Option Connective) (xs ys : List Clause) :
  settleAll pending (xs ++ ys)
    = settleAll pending xs ++ settleAll (xs.foldl pendingAfter pending) ys
  := by
  induction xs generalizing pending with
  | nil => simp [settleAll]
  | cons x xs ih => simp [settleAll, ih]

/-- An empty phrase leaves its connective pending, and so does handing it on. -/
theorem settleAll_handOn (pending : Option Connective) (c : Option Connective)
    (mode : Option WrittenMode) (xs : List Clause) :
  settleAll pending (empty c mode :: xs) = settleAll pending (handOn c xs)
  := by
  rw [settleAll]
  cases xs with
  | nil => rfl
  | cons x xs =>
    cases x <;> simp [handOn, behind, settleAll, settle, pendingAfter, Option.or_assoc]

theorem settleAll_fill {xs ys : List Clause}
    (h : ∀ pending, settleAll pending xs = settleAll pending ys) (gap : Gap)
    (pending : Option Connective) :
  settleAll pending (gap.fill xs) = settleAll pending (gap.fill ys)
  := by
  induction gap generalizing pending with
  | here front => rw [Gap.fill, Gap.fill, settleAll_append, settleAll_append, h]
  | inside front connective mode gap back ih =>
    rw [Gap.fill, Gap.fill, settleAll_append, settleAll_append, settleAll, settleAll, settle, settle,
      ih]
    rfl

theorem handOn_eq_self (h : c = none ∨ ∀ x ∈ xs.head?, x.connective.isSome = true) :
  handOn c xs = xs
  := by
  cases xs with
  | nil => rfl
  | cons x xs =>
    have hx : x.behind c = x := by
      rcases h with rfl | hsome
      · cases x <;> simp [behind]
      · obtain ⟨own, hown⟩ := Option.isSome_iff_exists.mp (hsome x rfl)
        cases x <;> simp_all [behind, connective]
    rw [handOn, List.modifyHead_cons, hx]

theorem sizeAll_append (xs ys : List Clause) :
  sizeAll (xs ++ ys) = sizeAll xs + sizeAll ys
  := by
  induction xs with
  | nil => simp [sizeAll]
  | cons x xs ih => simp [sizeAll, ih, Nat.add_assoc]

theorem sizeAll_fill {xs ys : List Clause} (h : sizeAll xs = sizeAll ys) (gap : Gap) :
  sizeAll (gap.fill xs) = sizeAll (gap.fill ys)
  := by
  induction gap with
  | here front => rw [Gap.fill, Gap.fill, sizeAll_append, sizeAll_append, h]
  | inside front connective mode gap back ih =>
    rw [Gap.fill, Gap.fill, sizeAll_append, sizeAll_append, sizeAll, sizeAll, size, size, ih]

theorem sizeAll_handOn (c : Option Connective) (xs : List Clause) :
  sizeAll (handOn c xs) = sizeAll xs
  := by
  cases xs with
  | nil => rfl
  | cons x xs => cases x <;> simp [handOn, behind, sizeAll, size]

section valid

variable {isSpace : Char → Bool}

theorem valid_group_iff {connective : Option Connective} {mode : Option WrittenMode}
    {clauses : List Clause} :
  (group connective mode clauses).Valid isSpace ↔ ∀ x ∈ clauses, x.Valid isSpace
  := by
  constructor
  · rintro ⟨⟩
    assumption
  · exact .group

theorem forall_valid_fill (gap : Gap) (xs : List Clause) :
  (∀ x ∈ gap.fill xs, x.Valid isSpace)
    ↔ (∀ x ∈ gap.fill [], x.Valid isSpace) ∧ ∀ x ∈ xs, x.Valid isSpace
  := by
  induction gap with
  | here front => rw [Gap.fill, Gap.fill, List.append_nil, List.forall_mem_append]
  | inside front connective mode gap back ih =>
    simp only [Gap.fill, List.forall_mem_append, List.forall_mem_cons, valid_group_iff]
    rw [ih]
    constructor
    · rintro ⟨hfront, ⟨hgap, hxs⟩, hback⟩
      exact ⟨⟨hfront, hgap, hback⟩, hxs⟩
    · rintro ⟨⟨hfront, hgap, hback⟩, hxs⟩
      exact ⟨hfront, ⟨hgap, hxs⟩, hback⟩

theorem valid_behind {x : Clause} (hx : x.Valid isSpace) :
  (x.behind c).Valid isSpace
  := by
  cases hx with
  | term ht => exact .term ht
  | empty => exact .empty
  | group hxs => exact .group hxs

theorem forall_valid_handOn (h : ∀ x ∈ xs, x.Valid isSpace) :
  ∀ x ∈ handOn c xs, x.Valid isSpace
  := by
  cases xs with
  | nil => exact h
  | cons x xs =>
    obtain ⟨hx, hxs⟩ := List.forall_mem_cons.mp h
    exact List.forall_mem_cons.mpr ⟨valid_behind hx, hxs⟩

end valid

end Clause

namespace Query

open Clause

/-- An empty phrase that is put among clauses, at any place between any brackets, leaves the query
what it is in which the connective in front of it stands before the next clause between the same
brackets, unless that one has a connective of its own. All of it is read, as the operands of that
query from left to right. So the empty phrase changes nothing if there is no connective in front of
it, if nothing comes after it between its brackets, or if what comes next has a connective. -/
theorem read_empty_phrase (options : ReadOptions) (gap : Gap) (back : List Clause)
    (hvalid : ∀ x ∈ gap.fill back, x.Valid options.encoding.isSpace)
    (hbudget : (renderAll (gap.fill back)).length < options.budget.toNat)
    (c : Option Connective) (mode : Option WrittenMode) :
  let reading (xs : List Clause) := (read options (String.ofList (renderAll xs))).value
  ∃ q, reading (gap.fill (.empty c mode :: back)) = .ok q
    ∧ q.directives = .ofOperator options.defaultOperator ∧ q.rest = ""
    ∧ q.root = Operand.combine options.defaultOperator.connective
        (Written.operands options.defaultOperator.connective options.termWeight
          (settleAll none (gap.fill (handOn c back))))
    ∧ reading (gap.fill (handOn c back)) = .ok q
    ∧ ((c = none ∨ ∀ x ∈ back.head?, x.connective.isSome = true) →
      reading (gap.fill back) = .ok q)
  := by
  intro reading
  obtain ⟨hgap, hback⟩ := (forall_valid_fill gap back).mp hvalid
  have hsize := Nat.lt_of_le_of_lt (sizeAll_le_length hvalid) hbudget
  have hinserted : ∀ x ∈ gap.fill (.empty c mode :: back), x.Valid options.encoding.isSpace :=
    (forall_valid_fill gap _).mpr ⟨hgap, List.forall_mem_cons.mpr ⟨.empty, hback⟩⟩
  have hhanded : ∀ x ∈ gap.fill (handOn c back), x.Valid options.encoding.isSpace :=
    (forall_valid_fill gap _).mpr ⟨hgap, forall_valid_handOn hback⟩
  have hempty : sizeAll (.empty c mode :: back) = sizeAll back := by simp [sizeAll, size]
  have hread := value_read_clauses options hinserted (by rwa [sizeAll_fill hempty])
  have hread' := value_read_clauses options hhanded (by rwa [sizeAll_fill (sizeAll_handOn c back)])
  rw [settleAll_fill (fun pending => settleAll_handOn pending c mode back)] at hread
  refine ⟨_, hread, rfl, rfl, rfl, hread', ?_⟩
  intro hnothing
  rw [handOn_eq_self hnothing] at hread' ⊢
  exact hread'

/-- Between brackets, with an exclusion in front of the empty phrase and without one. -/
theorem read_empty_phrase_group :
  let reading (xs : List Clause) := (read .standard (String.ofList (renderAll xs))).value
  let a : WrittenTerm := ⟨none, ['a'], false, false⟩
  let b : WrittenTerm := ⟨none, ['b'], false, false⟩
  let gap : Gap := .inside [] none none (.here [.term none a]) []
  let back : List Clause := [.term none b]
  (∀ x ∈ gap.fill back, x.Valid ReadOptions.standard.encoding.isSpace)
    ∧ (renderAll (gap.fill back)).length < ReadOptions.standard.budget.toNat
    ∧ renderAll (gap.fill (.empty (some .but) none :: back)) = "(a -\"\" b)".toList
    ∧ reading (gap.fill (.empty (some .but) none :: back))
      = reading (gap.fill [.term (some .but) b])
    ∧ reading (gap.fill (.empty none none :: back)) = reading (gap.fill back)
  := by
  intro reading a b gap back
  have hword (c : Char) (hc : c ∈ ['a', 'b']) :
      WrittenTerm.Valid ReadOptions.standard.encoding.isSpace ⟨none, [c], false, false⟩ := by
    simp only [List.mem_cons, List.not_mem_nil, or_false] at hc
    rcases hc with rfl | rfl <;> constructor <;> simp <;> decide
  have hvalid : ∀ x ∈ gap.fill back, x.Valid ReadOptions.standard.encoding.isSpace := by
    intro x hx
    obtain rfl := List.mem_singleton.mp hx
    apply Valid.group
    exact List.forall_mem_cons.mpr
      ⟨.term (hword 'a' (by decide)), List.forall_mem_singleton.mpr (.term (hword 'b' (by decide)))⟩
  have hbudget : (renderAll (gap.fill back)).length < ReadOptions.standard.budget.toNat := by decide
  obtain ⟨q, hq, -, -, -, hq', -⟩ :=
    read_empty_phrase .standard gap back hvalid hbudget (some .but) none
  obtain ⟨q₀, hq₀, -, -, -, -, hq₀'⟩ :=
    read_empty_phrase .standard gap back hvalid hbudget none none
  exact ⟨hvalid, hbudget, rfl, hq.trans hq'.symm, hq₀.trans (hq₀' (.inl rfl)).symm⟩

/-- An empty phrase that is excluded makes an exclusion of what comes next. -/
theorem read_empty_exclusion :
  let a : WrittenTerm := ⟨none, ['a'], false, false⟩
  let b : WrittenTerm := ⟨none, ['b'], false, false⟩
  let clauses : List Clause := [.term none a, .term none b]
  let inserted : List Clause := [.term none a, .empty (some .but) none, .term none b]
  renderAll inserted = ['a', ' ', '-', '"', '"', ' ', 'b']
    ∧ (read .standard (String.ofList (renderAll clauses))).value
      = .ok ⟨.join .or (.term (a.term 5)) (.term (b.term 5)), .ofOperator .or, ""⟩
    ∧ (read .standard (String.ofList (renderAll inserted))).value
      = .ok ⟨.join .but (.term (a.term 5)) (.term (b.term 5)), .ofOperator .or, ""⟩
    ∧ (read .standard (String.ofList (renderAll inserted))).value
      ≠ (read .standard (String.ofList (renderAll clauses))).value
  := by decide +kernel

end Query

end Retrieval
