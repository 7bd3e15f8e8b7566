import Retrieval.Proofs.Evaluation.Denotation

/-!
# Searches

The lookups of an evaluation are those of searches for its terms, one after another from left to
right. A search makes the first lookups of those that the term has, and goes on only as long as
it finds nothing. What an allowance leaves to the searches is counted: each looser lookup takes
one from it, and a search that gives up early has nothing left of it.
-/

namespace Retrieval

/-! ### Looser lookups -/

/-- The first of some lookups and `n` more are made, with so many looser ones left before and
after. All but the last one find nothing. If that one finds nothing either, it is the last of all
lookups, or nothing is left. -/
structure Loosens (index : Index) (lookups : List Lookup) (n : Nat) (before after : Option Nat) :
    Prop where
  lt : n < lookups.length
  nothing : ∀ l ∈ lookups.take n, index l = []
  spent : before = after.map (· + n)
  spentAll : n + 1 < lookups.length → (∀ l ∈ lookups.take (n + 1), index l = []) → after = some 0

namespace Loosens

variable {index : Index} {l : Lookup} {lookups : List Lookup} {n : Nat}
  {before after : Option Nat}

theorem single (l : Lookup) (allowance : Option Nat) :
  Loosens index [l] 0 allowance allowance
  := by
  constructor
  · apply Nat.one_pos
  · nofun
  · simp
  · intro hlt
    exact absurd hlt (Nat.lt_irrefl 1)

/-- Where something is found, no looser lookup is made. -/
theorem stop (h : index l ≠ []) (lookups : List Lookup) (allowance : Option Nat) :
  Loosens index (l :: lookups) 0 allowance allowance
  := by
  constructor
  · apply Nat.succ_pos
  · nofun
  · simp
  · intro _ hnothing
    exact absurd (hnothing l List.mem_cons_self) h

/-- Where nothing is left, no looser lookup is made. -/
theorem giveUp (l : Lookup) (lookups : List Lookup) :
  Loosens index (l :: lookups) 0 (some 0) (some 0)
  := by
  constructor
  · apply Nat.succ_pos
  · nofun
  · rfl
  · intro _ _
    rfl

theorem cons (hl : index l = []) (hbefore : before ≠ some 0)
    (h : Loosens index lookups n (before.map (· - 1)) after) :
  Loosens index (l :: lookups) (n + 1) before after
  := by
  constructor
  · apply Nat.succ_lt_succ h.lt
  · rw [List.take_succ_cons, List.forall_mem_cons]
    exact ⟨hl, h.nothing⟩
  · have hspent := h.spent
    cases before with
    | none => cases after with
      | none => rfl
      | some k => cases hspent
    | some m => cases after with
      | none => cases hspent
      | some k =>
        have hm : m ≠ 0 := fun hm => hbefore (congrArg some hm)
        simp only [Option.map_some, Option.some.injEq] at hspent ⊢
        omega
  · intro hlt hnothing
    apply h.spentAll (Nat.lt_of_succ_lt_succ hlt)
    rw [List.take_succ_cons, List.forall_mem_cons] at hnothing
    exact hnothing.2

end Loosens

/-! ### Searches for terms -/

/-- In how many looser ways a term may be looked up. -/
def Term.leeway (m : Matching) (t : Term) : Nat :=
  if t.mode.isSome ∨ t.isPrefix then 0 else min 2 m.steps

theorem Term.length_lookups (m : Matching) (t : Term) :
  (t.lookups m).length = t.leeway m + 1
  := by
  unfold lookups leeway
  cases t.mode with
  | some choice => rfl
  | none =>
    cases t.isPrefix with
    | true => rfl
    | false => simp [Nat.min_comm]

/-- A term that was looked up. -/
structure Search where
  term : Term
  /-- In how many looser ways it was looked up. -/
  looser : Nat

namespace Search

/-- The lookups that were made for the term. -/
def lookups (m : Matching) (s : Search) : List Lookup :=
  (s.term.lookups m).take (s.looser + 1)

/-- Whether nothing was found. -/
def FindsNothing (m : Matching) (s : Search) : Prop :=
  ∀ l ∈ s.lookups m, m.index l = []

/-- How many looser lookups were made. -/
def total (searches : List Search) : Nat :=
  (searches.map looser).sum

@[simp]
theorem total_cons (s : Search) (searches : List Search) :
  total (s :: searches) = s.looser + total searches
  := by
  simp [total]

@[simp]
theorem total_append (xs ys : List Search) :
  total (xs ++ ys) = total xs + total ys
  := by
  simp [total]

end Search

/-- Searches are made one after another, with so many looser lookups left before the first and
after the last one. -/
inductive Searched (m : Matching) : Option Nat → List Search → Option Nat → Prop
  | nil (allowance : Option Nat) : Searched m allowance [] allowance
  | cons {s : Search} {searches : List Search} {before between after : Option Nat}
      (h : Loosens m.index (s.term.lookups m) s.looser before between)
      (hmore : Searched m between searches after) : Searched m before (s :: searches) after

namespace Searched

variable {m : Matching} {before between after : Option Nat} {xs ys searches : List Search}

theorem append (h : Searched m before xs between) (hmore : Searched m between ys after) :
  Searched m before (xs ++ ys) after
  := by
  induction h with
  | nil => exact hmore
  | cons hs _ ih => exact .cons hs (ih hmore)

/-- Looser lookups are taken from what is left of them. -/
theorem spent (h : Searched m before searches after) :
  before = after.map (· + Search.total searches)
  := by
  induction h with
  | nil => simp [Search.total]
  | cons hs _ ih =>
    rw [hs.spent, ih, Option.map_map, Search.total_cons]
    congr 1
    funext n
    dsimp only [Function.comp_apply]
    omega

/-- Before a search and after it so many looser lookups are left as it takes. -/
theorem split {s : Search} (h : Searched m before (xs ++ s :: ys) after) :
  ∃ left left', Searched m before xs left
    ∧ Loosens m.index (s.term.lookups m) s.looser left left'
    ∧ Searched m left' ys after
  := by
  induction xs generalizing before with
  | nil =>
    obtain _ | ⟨hs, hmore⟩ := h
    exact ⟨_, _, .nil _, hs, hmore⟩
  | cons x xs ih =>
    obtain _ | ⟨hx, hmore⟩ := h
    obtain ⟨left, left', hxs, hs, hys⟩ := ih hmore
    exact ⟨left, left', .cons hx hxs, hs, hys⟩

theorem total_le {n : Nat} (h : Searched m (some n) searches after) :
  Search.total searches ≤ n
  := by
  have hspent := h.spent
  cases after with
  | none => cases hspent
  | some k =>
    rw [Option.map_some, Option.some.injEq] at hspent
    omega

/-- If a search gives up early, all looser lookups have been made by then. -/
theorem eq_total_of_findsNothing {s : Search} (h : Searched m before (xs ++ s :: ys) after)
    (hleeway : s.looser < s.term.leeway m) (hnothing : s.FindsNothing m) :
  before = some (Search.total (xs ++ [s]))
  := by
  obtain ⟨left, left', hxs, hs, -⟩ := h.split
  have hlt : s.looser + 1 < (s.term.lookups m).length := by
    rw [Term.length_lookups]
    omega
  rw [hxs.spent, hs.spent, hs.spentAll hlt hnothing]
  simp [Search.total, Nat.add_comm]

end Searched

/-! ### Evaluations -/

/-- The terms that no connective lets be left out. -/
def Expr.certainTerms : Expr → List Term
  | empty => []
  | term t => [t]
  | group child => child.certainTerms
  | join connective left right =>
    left.certainTerms ++ if connective.needsLeft then [] else right.certainTerms

namespace Evaluator

variable (e : Evaluator)

/-- Looser lookups go on from a lookup that has been made. -/
theorem exists_escalate (t : Term) (tier : Nat) (modes : List MatchMode) {found : Evaluation}
    {earlier : List Lookup} {l : Lookup} (hlookups : found.lookups = earlier ++ [l])
    (hempty : found.records.isEmpty = (e.index l).isEmpty) :
  ∃ n, (e.escalate t tier modes found).lookups
      = earlier ++ (l :: modes.map fun mode => e.request t ⟨mode, 0⟩).take (n + 1)
    ∧ Loosens e.index (l :: modes.map fun mode => e.request t ⟨mode, 0⟩) n found.allowance
      (e.escalate t tier modes found).allowance
  := by
  induction modes generalizing tier found earlier l with
  | nil => exact ⟨0, hlookups, .single l _⟩
  | cons mode modes ih =>
    rw [escalate, hempty]
    by_cases hfound : (!(e.index l).isEmpty) = true
    · rw [if_pos hfound]
      refine ⟨0, hlookups, .stop ?_ _ _⟩
      intro hnothing
      rw [hnothing] at hfound
      cases hfound
    · rw [if_neg hfound]
      by_cases hspent : found.allowance = some 0
      · rw [if_pos hspent]
        refine ⟨0, hlookups, ?_⟩
        change Loosens _ _ _ found.allowance found.allowance
        rw [hspent]
        apply Loosens.giveUp
      · -- A looser lookup is made, from which the remaining ones go on with one fewer left.
        rw [if_neg hspent]
        let weight := e.scoring.escalatedWeight t.weight tier
        let next := e.look t ⟨mode, 0⟩ weight (found.allowance.map (· - 1))
        let more : Evaluation :=
          { next with
            lookups := found.lookups ++ next.lookups
            remarks := found.remarks ++ .escalating t.text mode weight :: next.remarks }
        have hlast : more.lookups = found.lookups ++ [e.request t ⟨mode, 0⟩] := rfl
        obtain ⟨n, hmore, hloosens⟩ := ih (tier + 1) hlast (e.isEmpty_collect weight _)
        refine ⟨n + 1, ?_, .cons ?_ hspent hloosens⟩
        · rw [List.map_cons, List.take_succ_cons]
          refine hmore.trans ?_
          rw [hlookups, List.append_assoc]
          rfl
        · simpa using hfound

/-- The evaluation of a term is a search for it. -/
theorem exists_evalTerm (t : Term) (allowance : Option Nat) :
  ∃ n, (e.evalTerm t allowance).lookups = Search.lookups e.matching ⟨t, n⟩
    ∧ Loosens e.index (t.lookups e.matching) n allowance (e.evalTerm t allowance).allowance
  := by
  change ∃ n, _ = (t.lookups e.matching).take (n + 1) ∧ _
  rw [evalTerm, lookups_eq]
  split
  · exact ⟨0, rfl, .single _ _⟩
  · let found := e.look t (firstChoice t) t.weight allowance
    have hfirst : found.lookups = [] ++ [e.request t (firstChoice t)] := rfl
    exact e.exists_escalate t 1 _ hfirst (e.isEmpty_collect t.weight _)

/-- The evaluation of an expression makes searches for its terms, from left to right. Only terms
on the right of a connective that needs its left side may be left out. -/
theorem exists_searched (allowance : Option Nat) (x : Expr) :
  ∃ searches, Searched e.matching allowance searches (e.eval allowance x).allowance
    ∧ (e.eval allowance x).lookups = searches.flatMap (Search.lookups e.matching)
    ∧ (searches.map Search.term).Sublist x.terms
    ∧ x.certainTerms.Sublist (searches.map Search.term)
  := by
  induction x generalizing allowance with
  | empty => exact ⟨[], .nil _, rfl, .refl _, .refl _⟩
  | term t =>
    obtain ⟨n, hlookups, hloosens⟩ := e.exists_evalTerm t allowance
    refine ⟨[⟨t, n⟩], .cons hloosens (.nil _), ?_, .refl _, .refl _⟩
    rw [List.flatMap_singleton]
    exact hlookups
  | group child ih => exact ih allowance
  | join connective left right ihl ihr =>
    obtain ⟨xs, hxs, hleft, hterms, hcertain⟩ := ihl allowance
    rw [eval, Expr.terms, Expr.certainTerms]
    dsimp only
    split
    · rename_i hskip
      rw [if_pos hskip.2, List.append_nil]
      exact ⟨xs, hxs, hleft, hterms.trans (List.sublist_append_left _ _), hcertain⟩
    · obtain ⟨ys, hys, hright, hterms', hcertain'⟩ := ihr (e.eval allowance left).allowance
      refine ⟨xs ++ ys, hxs.append hys, ?_, ?_, ?_⟩
      · rw [List.flatMap_append, ← hleft, ← hright]
      · rw [List.map_append]
        apply hterms.append hterms'
      · rw [List.map_append]
        apply hcertain.append
        split
        · apply List.nil_sublist
        · exact hcertain'

end Evaluator

namespace Executor

end Executor

end Retrieval
