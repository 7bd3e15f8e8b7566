import Retrieval.Proofs.Query.Rest
import Retrieval.Proofs.Query.Written

/-!
# Reading a text in rounds

What a query leaves of its text when its budget is spent can be read as a query in turn. Each round
leaves less than it was given, so there are no more rounds than characters, and one for an empty
text. Terms next to each other are divided among the rounds: each round takes as many terms as the
budget allows and leaves the others as they are written, with their connectives and ways of
matching.
-/

namespace Retrieval

namespace Query

variable {options : ReadOptions}

/-- The queries that a text is read as in so many rounds at most: what a round leaves is read in the
next one, until nothing is left or a round fails. There is no answer if something is left after the
last round. -/
def readRounds (options : ReadOptions) : Nat → String → Option (Except Error (List Query))
  | 0, _ => none
  | rounds + 1, text =>
    match (read options text).value with
    | .error e => some (.error e)
    | .ok q =>
      if q.rest = "" then some (.ok [q])
      else (readRounds options rounds q.rest).map fun answer => answer.map (q :: ·)

/-- What is left of a query has fewer characters than its text, or nothing is left. -/
theorem length_rest_lt {text : String} {q : Query} (h : (read options text).value = .ok q)
    (hq : q.rest ≠ "") :
  q.rest.length < text.length
  := by
  rw [← String.length_toList, ← String.length_toList]
  exact (rest_read h).2.resolve_left hq

/-- The rounds come to an end: one more than there are characters are enough. -/
theorem isSome_readRounds {rounds : Nat} {text : String} (h : text.length < rounds) :
  (readRounds options rounds text).isSome = true
  := by
  induction rounds generalizing text with
  | zero => exact absurd h (Nat.not_lt_zero _)
  | succ rounds ih =>
    rw [readRounds]
    split
    · rfl
    · rename_i q hread
      split
      · rfl
      · rename_i hrest
        have hlt := length_rest_lt hread hrest
        rw [Option.isSome_map]
        apply ih
        omega

end Query

/-! ### Terms next to each other -/

namespace Written

/-- Terms with the connectives in front of them, as operands. -/
def ofTerms (ts : List (Option Connective × WrittenTerm)) : List Written :=
  ts.map fun t => term t.1 t.2

theorem renderMore_append (ws vs : List Written) :
  renderMore (ws ++ vs) = renderMore ws ++ renderMore vs
  := by
  induction ws with
  | nil => rfl
  | cons w ws ih =>
    rw [List.cons_append, renderMore, ih, renderMore, List.cons_append, List.append_assoc]

/-- Further operands are written behind the first ones. -/
theorem renderAll_append {ws : List Written} (hws : ws ≠ []) (vs : List Written) :
  renderAll (ws ++ vs) = renderAll ws ++ renderMore vs
  := by
  cases ws with
  | nil => exact absurd rfl hws
  | cons w ws => rw [List.cons_append, renderAll, renderMore_append, renderAll, List.append_assoc]

theorem renderText_ne_nil {isSpace : Char → Bool} {t : WrittenTerm} (ht : t.Valid isSpace) :
  t.renderText ≠ []
  := by
  rw [WrittenTerm.renderText]
  split
  · simp [quoteValue]
  · simp [ht.nonempty]

theorem renderAll_ofTerms_eq_nil {isSpace : Char → Bool}
    {ts : List (Option Connective × WrittenTerm)} (hts : ∀ t ∈ ts, t.2.Valid isSpace) :
  renderAll (ofTerms ts) = [] ↔ ts = []
  := by
  cases ts with
  | nil => simp [ofTerms, renderAll]
  | cons t ts =>
    have htext := renderText_ne_nil (hts t List.mem_cons_self)
    simp [ofTerms, renderAll, render, WrittenTerm.render, htext]

/-- Operands that are terms begin neither with a blank nor with a directive. -/
theorem undirected_ofTerms {encoding : Encoding} {ts : List (Option Connective × WrittenTerm)}
    (hts : ∀ t ∈ ts, t.2.Valid encoding.isSpace) :
  Undirected encoding.isSpace (renderAll (ofTerms ts))
  := by
  cases ts with
  | nil => exact ⟨by simp [ofTerms, renderAll], rfl⟩
  | cons t ts =>
    rw [ofTerms, List.map_cons, renderAll]
    apply undirected_render (.term (hts t List.mem_cons_self))

end Written

namespace Assembly

variable {setting : Setting} {encoding : Encoding} {a : Assembly} {rest : List Char}

/-- Without a budget all of a text is left, if it does not begin with a blank. -/
theorem readOn_of_spent (hbudget : a.budget = 0) {l : List Char}
    (hl : ∀ c ∈ l.head?, encoding.isSpace c = false) :
  a.readOn setting encoding.isSpace l = .ok ((a.finish setting).value, l)
  := by
  cases l with
  | nil =>
    rw [readOn, lexemes_nil]
    rfl
  | cons c l => rw [readOn, lexemes_of_not_isSpace (hl c rfl), value_run_cons, if_pos hbudget]

/-- So many terms are read as the budget allows. -/
theorem readOn_ofTerms {ts : List (Option Connective × WrittenTerm)}
    (hts : ∀ t ∈ ts, t.2.Valid encoding.isSpace) (hrest : Separated rest)
    (hconnective : a.inner.connective = none) (hmode : a.inner.mode = none)
    (hbudget : ts.length ≤ a.budget) :
  a.readOn setting encoding.isSpace (Written.renderAll (Written.ofTerms ts) ++ rest)
    = (a.withOperands
        (Written.operands setting.standard setting.termWeight (Written.ofTerms ts))
        ts.length).readOn setting encoding.isSpace rest
  := by
  induction ts generalizing a with
  | nil =>
    obtain ⟨⟨operands, _, _⟩, outer, budget⟩ := a
    obtain rfl := hconnective
    obtain rfl := hmode
    simp [Written.ofTerms, Written.renderAll, Written.operands, withOperands]
  | cons t ts ih =>
    obtain ⟨ht, hts⟩ := List.forall_mem_cons.mp hts
    rw [List.length_cons] at hbudget
    let read := a.withOperands [⟨t.1, .term (t.2.term setting.termWeight)⟩] 1
    have hmore : ts.length ≤ read.budget := by
      change ts.length ≤ a.budget - 1
      omega
    have hsplit : Written.renderAll (Written.ofTerms (t :: ts)) ++ rest
        = (Written.term t.1 t.2).render
          ++ (Written.renderMore (Written.ofTerms ts) ++ rest) := by
      rw [Written.ofTerms, List.map_cons, Written.renderAll, List.append_assoc]
      rfl
    rw [hsplit, readOn_writtenTerm ht (separated_renderMore _ hrest) hmode (by omega), hconnective,
      Option.or_none, readOn_renderMore, ih hts rfl rfl hmore, withOperands_withOperands,
      List.length_cons, Nat.add_comm]
    rfl

/-- A budget is spent on so many of the terms, and the others are left. -/
theorem readOn_budget {ts : List (Option Connective × WrittenTerm)} (hne : ts ≠ [])
    (hts : ∀ t ∈ ts, t.2.Valid encoding.isSpace) {budget : Nat} (hbudget : budget ≠ 0) :
  (start budget).readOn setting encoding.isSpace (Written.renderAll (Written.ofTerms ts))
    = .ok (Operand.combine setting.standard (Written.operands setting.standard setting.termWeight
          (Written.ofTerms (ts.take budget))),
        Written.renderAll (Written.ofTerms (ts.drop budget)))
  := by
  have htaken : ∀ t ∈ ts.take budget, t.2.Valid encoding.isSpace :=
    fun t ht => hts t (List.mem_of_mem_take ht)
  have hleft : ∀ t ∈ ts.drop budget, t.2.Valid encoding.isSpace :=
    fun t ht => hts t (List.mem_of_mem_drop ht)
  have hsplit : Written.renderAll (Written.ofTerms ts)
      = Written.renderAll (Written.ofTerms (ts.take budget))
        ++ Written.renderMore (Written.ofTerms (ts.drop budget)) := by
    rw [← Written.renderAll_append (by simp [Written.ofTerms, hne, hbudget]), Written.ofTerms,
      Written.ofTerms, Written.ofTerms, ← List.map_append, List.take_append_drop]
  have hseparated : Separated (Written.renderMore (Written.ofTerms (ts.drop budget))) := by
    rw [← List.append_nil (Written.renderMore _)]
    apply separated_renderMore _ separated_nil
  let read := (start budget).withOperands (Written.operands setting.standard setting.termWeight
    (Written.ofTerms (ts.take budget))) (ts.take budget).length
  have hmore : read.readOn setting encoding.isSpace
        (Written.renderMore (Written.ofTerms (ts.drop budget)))
      = read.readOn setting encoding.isSpace
        (Written.renderAll (Written.ofTerms (ts.drop budget))) := by
    rw [← List.append_nil (Written.renderMore _), readOn_renderMore, List.append_nil]
  have hfinish : (read.finish setting).value = Operand.combine setting.standard
      (Written.operands setting.standard setting.termWeight
        (Written.ofTerms (ts.take budget))) := by
    rw [← Operand.fold_eq_combine]
    rfl
  rw [hsplit, readOn_ofTerms htaken hseparated rfl rfl (List.length_take_le _ _), hmore, ← hfinish]
  cases hdrop : ts.drop budget with
  | nil =>
    rw [readOn, Written.ofTerms, List.map_nil, Written.renderAll, lexemes_nil]
    rfl
  | cons t more =>
    have hspent : read.budget = 0 := by
      change budget - (ts.take budget).length = 0
      have hlength := congrArg List.length hdrop
      rw [List.length_drop, List.length_cons] at hlength
      rw [List.length_take]
      omega
    rw [← hdrop]
    apply readOn_of_spent hspent (Written.undirected_ofTerms hleft).1

end Assembly

namespace Query

variable {options : ReadOptions}

/-- A text that begins neither with a blank nor with a directive is read by its lexemes. -/
theorem value_read_of_undirected {l : List Char} (h : Undirected options.encoding.isSpace l)
    (hbudget : options.budget ≠ 0) :
  (read options (String.ofList l)).value
    = ((Assembly.start options.budget.toNat).readOn
        ⟨options.defaultOperator.connective, options.termWeight, Text.byteLength l⟩
        options.encoding.isSpace l).map
      fun (root, rest) => ⟨root, .ofOperator options.defaultOperator, String.ofList rest⟩
  := by
  rw [read, String.toList_ofList, readChars, if_neg hbudget]
  simp only [Directives.read_of_undirected h, Noted.plain]
  rfl

/-- The query that is read in one of the rounds over terms next to each other: of so many terms as
the budget allows, after those of the rounds before. -/
def ofRound (options : ReadOptions) (ts : List (Option Connective × WrittenTerm)) (round : Nat) :
    Query :=
  let budget := options.budget.toNat
  { root := Operand.combine options.defaultOperator.connective
      (Written.operands options.defaultOperator.connective options.termWeight
        (Written.ofTerms ((ts.drop (round * budget)).take budget)))
    directives := .ofOperator options.defaultOperator
    rest := String.ofList
      (Written.renderAll (Written.ofTerms (ts.drop ((round + 1) * budget)))) }

theorem ofRound_succ (ts : List (Option Connective × WrittenTerm)) (round : Nat) :
  ofRound options ts (round + 1) = ofRound options (ts.drop options.budget.toNat) round
  := by
  have hnext : ∀ i, options.budget.toNat + i * options.budget.toNat
      = (i + 1) * options.budget.toNat := by
    intro i
    rw [Nat.succ_mul, Nat.add_comm]
  simp only [ofRound, List.drop_drop, hnext]

theorem rest_ofRound_zero (ts : List (Option Connective × WrittenTerm)) :
  (ofRound options ts 0).rest
    = String.ofList (Written.renderAll (Written.ofTerms (ts.drop options.budget.toNat)))
  := by simp [ofRound]

/-- The first round over terms next to each other. -/
theorem read_ofTerms {ts : List (Option Connective × WrittenTerm)} (hne : ts ≠ [])
    (hts : ∀ t ∈ ts, t.2.Valid options.encoding.isSpace) (hbudget : options.budget ≠ 0) :
  (read options (String.ofList (Written.renderAll (Written.ofTerms ts)))).value
    = .ok (ofRound options ts 0)
  := by
  have hpos : options.budget.toNat ≠ 0 := fun h => hbudget (UInt32.toNat_inj.mp h)
  rw [value_read_of_undirected (Written.undirected_ofTerms hts) hbudget,
    Assembly.readOn_budget hne hts hpos]
  simp [ofRound, Except.map]

/-- How often a budget goes into a number, counting a last part, is once more than into what is left
of the number without the budget. -/
theorem rounds_succ {n budget : Nat} (hn : 0 < n) (hbudget : 0 < budget) :
  (n + budget - 1) / budget = (n - budget + budget - 1) / budget + 1
  := by
  rw [← Nat.add_div_right _ hbudget]
  by_cases hle : n ≤ budget
  · rw [Nat.sub_eq_zero_of_le hle, Nat.div_eq_of_lt_le (k := 1) (by omega) (by omega),
      Nat.div_eq_of_lt_le (k := 1) (by omega) (by omega)]
  · congr 1
    omega

/-- Terms next to each other are read in rounds, and none of them is lost or read twice: the budget
says how many terms make a round, of which the last one takes what is left, and each round gives the
query of its own terms and leaves the text of those after them. -/
theorem readRounds_ofTerms {options : ReadOptions} (hbudget : options.budget ≠ 0)
    {ts : List (Option Connective × WrittenTerm)} (hne : ts ≠ [])
    (hts : ∀ t ∈ ts, t.2.Valid options.encoding.isSpace) :
  let rounds := (ts.length + options.budget.toNat - 1) / options.budget.toNat
  readRounds options rounds (String.ofList (Written.renderAll (Written.ofTerms ts)))
    = some (.ok ((List.range rounds).map (ofRound options ts)))
  := by
  have hpos : 0 < options.budget.toNat := by
    apply Nat.pos_of_ne_zero
    exact fun h => hbudget (UInt32.toNat_inj.mp h)
  dsimp only
  induction hlength : ts.length using Nat.strongRecOn generalizing ts with
  | ind n ih =>
    subst hlength
    have hn := List.length_pos_iff.mpr hne
    rw [rounds_succ hn hpos, readRounds, read_ofTerms hne hts hbudget, List.range_succ_eq_map,
      List.map_cons, List.map_map]
    have hleft : ∀ t ∈ ts.drop options.budget.toNat, t.2.Valid options.encoding.isSpace :=
      fun t ht => hts t (List.mem_of_mem_drop ht)
    simp only [rest_ofRound_zero, String.ofList_eq_empty_iff,
      Written.renderAll_ofTerms_eq_nil hleft]
    split
    · rename_i hdrop
      have hle : ts.length ≤ options.budget.toNat := List.drop_eq_nil_iff.mp hdrop
      rw [Nat.sub_eq_zero_of_le hle, Nat.zero_add, Nat.div_eq_of_lt (by omega)]
      rfl
    · rename_i hdrop
      have hmore := ih _ (by rw [List.length_drop]; omega) hdrop hleft rfl
      rw [List.length_drop] at hmore
      have hrounds : ofRound options ts ∘ Nat.succ
          = ofRound options (ts.drop options.budget.toNat) := by
        funext round
        apply ofRound_succ
      rw [hmore, hrounds]
      rfl

/-- Three terms with a budget for two of them. The first of them is an exclusion, which is dropped,
and the last one is left with its connective and its way of matching. -/
theorem readRounds_ofTerms_three :
  let options : ReadOptions := { ReadOptions.standard with budget := 2 }
  let ts : List (Option Connective × WrittenTerm) :=
    [(some .but, ⟨none, ['a'], false, false⟩),
      (none, ⟨some ⟨.near, -3⟩, ['b', '"', ' '], true, false⟩),
      (some .or, ⟨some ⟨.similar, 7⟩, ['d', '-'], false, false⟩)]
  Written.renderAll (Written.ofTerms ts) = "-a *N-3 \"b\\\" \" OR *S7 d-".toList
    ∧ readRounds options 2 (String.ofList (Written.renderAll (Written.ofTerms ts)))
      = some (.ok [
        ⟨.term ⟨"b\" ", false, true, 5, some ⟨.near, -3⟩⟩, .ofOperator .or, "OR *S7 d-"⟩,
        ⟨.term ⟨"d-", false, false, 5, some ⟨.similar, 7⟩⟩, .ofOperator .or, ""⟩])
  := by
  intro options ts
  have hts : ∀ t ∈ ts, t.2.Valid options.encoding.isSpace := by
    simp only [ts, List.forall_mem_cons, List.not_mem_nil, false_implies, implies_true, and_true]
    have ha : options.encoding.isSpace 'a' = false := by decide
    have hd : options.encoding.isSpace 'd' = false := by decide
    have hminus : options.encoding.isSpace '-' = false := by decide
    refine ⟨?_, ?_, ?_⟩
    · constructor <;> simp [ha]
    · constructor <;> simp
    · constructor <;> simp [hd, hminus]
  have hthree : Text.decimalInt (Int32.toInt (-3)) = ['-', '3'] := by
    rw [show Int32.toInt (-3) = -3 by decide]
    simp [Text.decimalInt, Text.decimal]
  have hseven : Text.decimalInt (Int32.toInt 7) = ['7'] := by
    rw [show Int32.toInt 7 = 7 by decide]
    simp [Text.decimalInt, Text.decimal]
  have hlast : Written.renderAll (Written.ofTerms (ts.drop 2)) = "OR *S7 d-".toList := by
    simp only [ts, Written.ofTerms, List.drop, List.map, Written.renderAll, Written.renderMore,
      Written.render, WrittenTerm.render, WrittenMode.render, Option.elim_some, hseven]
    rfl
  constructor
  · simp only [ts, Written.ofTerms, List.map, Written.renderAll, Written.renderMore,
      Written.render, WrittenTerm.render, WrittenMode.render, Option.elim_some, hthree, hseven]
    rfl
  · have hcount : (ts.length + options.budget.toNat - 1) / options.budget.toNat = 2 := by
      simp [ts, options]
    have hbudget : options.budget ≠ 0 := by decide
    have hne : ts ≠ [] := by simp [ts]
    have hrounds := readRounds_ofTerms hbudget hne hts
    dsimp only at hrounds
    rw [hcount] at hrounds
    rw [hrounds]
    have hfirst : ofRound options ts 0
        = ⟨.term ⟨"b\" ", false, true, 5, some ⟨.near, -3⟩⟩, .ofOperator .or,
          String.ofList (Written.renderAll (Written.ofTerms (ts.drop 2)))⟩ := rfl
    have hsecond : ofRound options ts 1
        = ⟨.term ⟨"d-", false, false, 5, some ⟨.similar, 7⟩⟩, .ofOperator .or, ""⟩ := rfl
    rw [hlast] at hfirst
    rw [List.range_succ_eq_map]
    change some (Except.ok [ofRound options ts 0, ofRound options ts 1]) = _
    rw [hfirst, hsecond]
    rfl

end Query

end Retrieval
