import Retrieval.Proofs.Session.Places
import Retrieval.Session.Basic

/-!
# Values in statements

A fragment with places and the values for them complete a statement. It holds as many queries
whatever the values are. Values in open places are phrases and nothing else: where all places of a
query are open, the query is the same up to the texts of the phrases that the values are. A value
in a place that is not open is read as a part of a directive, of a word or of another phrase, and
signs in it may be read as syntax then.
-/

namespace Retrieval

/-! ### Queries of a statement -/

namespace Query

/-- Queries that correspond one by one: each pair is one template with values on both sides. The
values are given as pairs, and the places of each query come after those of the queries before
it. Whether a place after open ones is open is whether a lexeme begins at the quote of the value, and
this is so on both sides or on none. A query all of whose places are open is read alike, if it is
shorter than the number of expressions that may be read. -/
inductive Correspond (options : ReadOptions) :
    (Nat → Prop) → List (String × String) → List String → List String → Prop where
  | nil {isOpen : Nat → Prop} : Correspond options isOpen [] [] []
  | cons {isOpen : Nat → Prop} {t : Template} {ys zs : List (String × String)}
      {text text' : String} {texts texts' : List String} (hlength : ys.length = t.places)
      (htext : t.query (ys.map Prod.fst) = text) (htext' : t.query (ys.map Prod.snd) = text')
      (hbegins : ∀ place < t.places, (∀ earlier < place, isOpen earlier) →
        (isOpen place ↔ t.BeginsAt options (ys.map Prod.fst) place)
          ∧ (isOpen place ↔ t.BeginsAt options (ys.map Prod.snd) place))
      (h : (∀ place < t.places, isOpen place) →
        text.toList.length < options.budget.toNat → ReadAlike options ys text text')
      (hs : Correspond options (fun place => isOpen (t.places + place)) zs texts texts') :
      Correspond options isOpen (ys ++ zs) (text :: texts) (text' :: texts')

variable {options : ReadOptions} {isOpen : Nat → Prop} {zs : List (String × String)}

theorem Correspond.length_eq {texts texts' : List String}
    (h : Correspond options isOpen zs texts texts') :
  texts.length = texts'.length
  := by
  induction h with
  | nil => rfl
  | cons _ _ _ _ _ _ ih => rw [List.length_cons, List.length_cons, ih]

/-- All values are in the places of a query that is the only one. -/
theorem Correspond.readAlike {text text' : String}
    (h : Correspond options isOpen zs [text] [text'])
    (hopen : ∀ place < zs.length, isOpen place)
    (hbudget : text.toList.length < options.budget.toNat) :
  ReadAlike options zs text text'
  := by
  cases h with
  | cons hlength _ _ _ h hs =>
    cases hs with
    | nil =>
      rw [List.append_nil] at hopen ⊢
      apply h _ hbudget
      rw [← hlength]
      apply hopen

end Query

namespace Statement

/-- The queries that parts of a statement hold. -/
def queriesOf (parts : List (List Char)) : List String :=
  (parts.map fun part => Text.trim (String.ofList part)).filter fun q => !q.isEmpty

theorem queries_eq (text : List Char) :
  queries text = queriesOf (parts false text)
  := rfl

theorem queriesOf_cons (part : List Char) (parts : List (List Char)) :
  queriesOf (part :: parts)
    = if (Text.trim (String.ofList part)).isEmpty then queriesOf parts
      else Text.trim (String.ofList part) :: queriesOf parts
  := by
  rw [queriesOf, List.map_cons, List.filter_cons]
  cases (Text.trim (String.ofList part)).isEmpty <;> rfl

end Statement

namespace Template

variable {options : ReadOptions}

/-- A query corresponds to the one with other values, in front of others. -/
theorem correspond_cons {t : Template} {isOpen : Nat → Prop}
    (hopen : ∀ place < t.places, (∀ earlier < place, isOpen earlier) →
      (isOpen place ↔ t.OpensAt options.encoding.isSpace place))
    {ys zs : List (String × String)} (hlength : ys.length = t.places)
    (hvalues : ∀ y ∈ ys, y.1 ≠ "" ∧ y.2 ≠ "") {parts parts' : List (List Char)}
    (hs : Query.Correspond options (fun place => isOpen (t.places + place)) zs
      (Statement.queriesOf parts) (Statement.queriesOf parts')) :
  Query.Correspond options isOpen (ys ++ zs)
    (Statement.queriesOf (t.render (ys.map Prod.fst) :: parts))
    (Statement.queriesOf (t.render (ys.map Prod.snd) :: parts'))
  := by
  have hopens : ∀ place ≤ t.places, (∀ earlier < place, isOpen earlier) →
      ∀ earlier < place, t.OpensAt options.encoding.isSpace earlier := by
    intro place hplace h earlier hlt
    apply (hopen earlier (Nat.lt_of_lt_of_le hlt hplace) _).mp (h earlier hlt)
    intro first hfirst
    apply h first (Nat.lt_trans hfirst hlt)
  have hbegins : ∀ place < t.places, (∀ earlier < place, isOpen earlier) →
      (isOpen place ↔ t.BeginsAt options (ys.map Prod.fst) place)
        ∧ (isOpen place ↔ t.BeginsAt options (ys.map Prod.snd) place) := by
    intro place hplace h
    have hfst := beginsAt_iff ((List.length_map Prod.fst).trans hlength)
      (List.forall_mem_map.mpr fun y hy => (hvalues y hy).1) hplace
      (hopens place (Nat.le_of_lt hplace) h)
    have hsnd := beginsAt_iff ((List.length_map Prod.snd).trans hlength)
      (List.forall_mem_map.mpr fun y hy => (hvalues y hy).2) hplace
      (hopens place (Nat.le_of_lt hplace) h)
    rw [hfst, hsnd]
    exact ⟨hopen place hplace h, hopen place hplace h⟩
  rw [Statement.queriesOf_cons, Statement.queriesOf_cons, ← query, ← query]
  by_cases hne : t.afterPlaces = []
  · have hnone : t.places = 0 := by rw [places, hne, List.length_nil]
    obtain rfl : ys = [] := List.length_eq_zero_iff.mp (hlength.trans hnone)
    rw [List.map_nil, List.map_nil]
    by_cases hquery : (t.query []).isEmpty = true
    · rw [if_pos hquery, if_pos hquery, List.nil_append]
      simpa [hnone] using hs
    · rw [if_neg hquery, if_neg hquery]
      apply Query.Correspond.cons hlength rfl rfl hbegins _ hs
      intro _ hbudget
      apply Query.readAlike_refl hbudget
  · have hfst := isEmpty_query ((List.length_map Prod.fst).trans hlength) hne
    have hsnd := isEmpty_query ((List.length_map Prod.snd).trans hlength) hne
    rw [hfst, hsnd]
    apply Query.Correspond.cons hlength rfl rfl hbegins _ hs
    intro hall
    have hopenAll : t.Open options.encoding.isSpace := hopens t.places (Nat.le_refl _) hall
    apply hopenAll.readAlike hne hlength hvalues

/-- The queries of templates correspond to those with other values. -/
theorem correspond_renderEach {ts : List Template} {isOpen : Nat → Prop}
    (hopen : OpenWhere options.encoding.isSpace isOpen ts) {zs : List (String × String)}
    (hlength : zs.length = totalPlaces ts) (hvalues : ∀ z ∈ zs, z.1 ≠ "" ∧ z.2 ≠ "") :
  Query.Correspond options isOpen zs (Statement.queriesOf (renderEach ts (zs.map Prod.fst)))
    (Statement.queriesOf (renderEach ts (zs.map Prod.snd)))
  := by
  induction ts generalizing zs isOpen with
  | nil =>
    obtain rfl := List.length_eq_zero_iff.mp hlength
    exact .nil
  | cons t ts ih =>
    obtain ⟨hfirst, hrest⟩ := hopen
    rw [totalPlaces] at hlength
    simp only [renderEach, ← List.map_take, ← List.map_drop]
    have htake : (zs.take t.places).length = t.places := by
      rw [List.length_take]
      omega
    have hdrop : (zs.drop t.places).length = totalPlaces ts := by
      rw [List.length_drop]
      omega
    have hread := correspond_cons hfirst htake
      (fun z hz => hvalues z (List.mem_of_mem_take hz))
      (ih hrest hdrop fun z hz => hvalues z (List.mem_of_mem_drop hz))
    rw [List.take_append_drop] at hread
    apply hread

/-- Statements that differ in values have queries that correspond. -/
theorem correspond_render {t : Template} (hbalanced : t.Balanced)
    {zs : List (String × String)} (hlength : zs.length = t.places)
    (hvalues : ∀ z ∈ zs, z.1 ≠ "" ∧ z.2 ≠ "") :
  Query.Correspond options (t.OpenAt options.encoding.isSpace) zs
    (Statement.queries (t.render (zs.map Prod.fst)))
    (Statement.queries (t.render (zs.map Prod.snd)))
  := by
  have hquote : options.encoding.isSpace '"' = false :=
    options.encoding.isSpace_sign '"' (by simp)
  have hparts := parts_render hbalanced ((List.length_map Prod.fst).trans hlength)
  have hparts' := parts_render hbalanced ((List.length_map Prod.snd).trans hlength)
  rw [Statement.queries_eq, Statement.queries_eq, render, render, hparts, hparts']
  apply correspond_renderEach (openWhere_cut hquote hbalanced) _ hvalues
  rw [totalPlaces_cut]
  apply hlength

end Template

/-! ### Sending values -/

namespace Session

/-- The session after fragments have been sent in order. -/
def sendAll (s : Session) (sent : List (String × Flags)) : Session :=
  sent.foldl (fun s x => (s.send x.1 x.2).state) s

theorem sendAll_cons (s : Session) (x : String × Flags) (sent : List (String × Flags)) :
  s.sendAll (x :: sent) = (s.send x.1 x.2).state.sendAll sent
  := rfl

/-- The session with a draft, which is complete if it awaits no value. -/
def settle (s : Session) (d : Draft) : Session :=
  if d.awaitsValue then { s with draft := some d }
  else { s with draft := none, statements := s.statements ++ [⟨d.template.start, d.quiet⟩] }

theorem state_send {s : Session} (hclosed : s.closed = false) (fragment : String)
    {flags : Flags} (hmore : flags.has .more = false) :
  (s.send fragment flags).state
    = s.settle ((s.draft.getD .start).add fragment.toList (flags.has .quiet))
  := by
  rw [send, if_neg (by simp [hclosed])]
  dsimp only
  rw [hmore, settle]
  simp only [Bool.false_eq_true, or_false]
  split <;> rfl

/-- Values are put in the places of a draft, one after another. -/
theorem sendAll_settle {s : Session} (hclosed : s.closed = false) {d : Draft}
    {sent : List (String × Flags)} (hlength : sent.length = d.template.places)
    (hmore : ∀ x ∈ sent, x.2.has .more = false) :
  ∃ quiet, (s.settle d).sendAll sent
    = { s with
        draft := none
        statements := s.statements ++ [⟨d.template.render (sent.map Prod.fst), quiet⟩] }
  := by
  induction sent generalizing s d with
  | nil =>
    have hnone : d.template.afterPlaces = [] := List.length_eq_zero_iff.mp hlength.symm
    use d.quiet
    rw [settle, if_neg (by simp [Draft.awaitsValue, hnone])]
    simp [sendAll, Template.render, Template.renderAfter]
  | cons x sent ih =>
    obtain ⟨hx, hmore⟩ := List.forall_mem_cons.mp hmore
    have hne : d.template.afterPlaces ≠ [] := by
      intro hnone
      rw [Template.places, hnone] at hlength
      cases hlength
    have hawaits : d.awaitsValue = true := by simpa [Draft.awaitsValue] using hne
    have hadd : (d.add x.1.toList (x.2.has .quiet)).template = d.template.fill x.1.toList := by
      simp [Draft.add, hawaits]
    have hplaces : sent.length = (d.add x.1.toList (x.2.has .quiet)).template.places := by
      rw [hadd, Template.places_fill, ← hlength, List.length_cons, Nat.succ_sub_one]
    obtain ⟨quiet, hquiet⟩ := ih hclosed hplaces hmore
    rw [hadd, Template.render_fill hne] at hquiet
    use quiet
    have hsettle : s.settle d = { s with draft := some d } := by rw [settle, if_pos hawaits]
    rw [hsettle, sendAll_cons, state_send (s := { s with draft := some d }) hclosed x.1 hx,
      List.map_cons, ← hquiet]
    simp [settle]

/-- A fragment and as many values as it has places complete a statement. -/
theorem exists_sendAll {s : Session} (hclosed : s.closed = false) (hdraft : s.draft = none)
    {fragment : String} {values : List String} {sent : List (String × Flags)}
    (hsent : sent.map Prod.fst = fragment :: values)
    (hmore : ∀ x ∈ sent, x.2.has .more = false)
    (hlength : values.length = (Template.ofChars false fragment.toList).1.places) :
  ∃ quiet, s.sendAll sent
    = { s with statements := s.statements
          ++ [⟨(Template.ofChars false fragment.toList).1.render values, quiet⟩] }
  := by
  cases sent with
  | nil => cases hsent
  | cons x sent =>
    obtain ⟨rfl, rfl⟩ := List.cons.inj hsent
    obtain ⟨hx, hmore⟩ := List.forall_mem_cons.mp hmore
    rw [sendAll_cons, state_send hclosed x.1 hx, hdraft]
    have htemplate : (Draft.start.add x.1.toList (x.2.has .quiet)).template
        = (Template.ofChars false x.1.toList).1 := rfl
    rw [List.length_map, ← htemplate] at hlength
    obtain ⟨quiet, hquiet⟩ := sendAll_settle hclosed hlength hmore
    use quiet
    rw [Option.getD_none, hquiet, htemplate]

/-- Values in open places are read as phrases and as nothing else. A fragment is sent in a session
that awaits nothing, once with some values and once with others. Then the two statements hold as
many queries. A place is open if and only if a lexeme of its query begins at the quote of the value,
which can be told from the text before it. Where all places of a query are open, the two queries are
read alike: with the same directives and with expressions that differ in the texts of the phrases
that the values are. -/
theorem correspond_sendAll {s : Session} (hclosed : s.closed = false) (hdraft : s.draft = none)
    {fragment : String} {v w : List String}
    (hv : v.length = (Template.ofChars false fragment.toList).1.places)
    (hw : w.length = (Template.ofChars false fragment.toList).1.places)
    (hvalues : ∀ value ∈ v ++ w, value ≠ "")
    {sent sent' : List (String × Flags)} (hsent : sent.map Prod.fst = fragment :: v)
    (hsent' : sent'.map Prod.fst = fragment :: w)
    (hmore : ∀ x ∈ sent ++ sent', x.2.has .more = false) (options : ReadOptions) :
  ∃ S S' : Statement,
    s.sendAll sent = { s with statements := s.statements ++ [S] }
    ∧ s.sendAll sent' = { s with statements := s.statements ++ [S'] }
    ∧ (Statement.queries S.text).length = (Statement.queries S'.text).length
    ∧ Query.Correspond options
        ((Template.ofChars false fragment.toList).1.OpenAt options.encoding.isSpace) (v.zip w)
        (Statement.queries S.text) (Statement.queries S'.text)
  := by
  obtain ⟨hmore, hmore'⟩ := List.forall_mem_append.mp hmore
  obtain ⟨quiet, hS⟩ := exists_sendAll hclosed hdraft hsent hmore hv
  obtain ⟨quiet', hS'⟩ := exists_sendAll hclosed hdraft hsent' hmore' hw
  have hfst : (v.zip w).map Prod.fst = v := List.map_fst_zip (by omega)
  have hsnd : (v.zip w).map Prod.snd = w := List.map_snd_zip (by omega)
  have hlength : (v.zip w).length = (Template.ofChars false fragment.toList).1.places := by
    rw [List.length_zip, hv, hw, Nat.min_self]
  have hpairs : ∀ z ∈ v.zip w, z.1 ≠ "" ∧ z.2 ≠ "" := by
    rintro ⟨x, y⟩ hz
    obtain ⟨hx, hy⟩ := List.of_mem_zip hz
    exact ⟨hvalues x (List.mem_append_left w hx), hvalues y (List.mem_append_right v hy)⟩
  have hcorrespond : Query.Correspond options _ _ _ _ :=
    Template.correspond_render (Template.balanced_ofChars fragment.toList) hlength hpairs
  rw [hfst, hsnd] at hcorrespond
  exact ⟨_, _, hS, hS', hcorrespond.length_eq, hcorrespond⟩

/-- Brackets and signs in values in open places are text. -/
theorem correspond_sendAll_two :
  ∃ q q', (Query.read .standard "a \"x) y\" +\"-b\"").value = .ok q
    ∧ (Query.read .standard "a \"c\" +\"d\"").value = .ok q'
    ∧ q.directives = q'.directives ∧ q.root.Varies [("x) y", "c"), ("-b", "d")] q'.root
  := by
  let s : Session := .start (fun _ => []) .standard
  let sent : List (String × Flags) := [("a ? +?", .none), ("x) y", .none), ("-b", .none)]
  let sent' : List (String × Flags) := [("a ? +?", .none), ("c", .none), ("d", .quiet)]
  have hmore : ∀ x ∈ sent ++ sent', x.2.has .more = false := by
    intro x hx
    have hall : (sent ++ sent').all (fun x => !x.2.has .more) = true := by decide
    simpa using List.all_eq_true.mp hall x hx
  obtain ⟨S, S', hS, hS', -, hread⟩ := @correspond_sendAll s rfl rfl "a ? +?" ["x) y", "-b"]
    ["c", "d"] (by decide) (by decide) (by simp) sent sent' rfl rfl hmore .standard
  have hsent : (s.sendAll sent).statements = [⟨"a \"x) y\" +\"-b\"".toList, false⟩] := by
    decide +kernel
  have hsent' : (s.sendAll sent').statements = [⟨"a \"c\" +\"d\"".toList, true⟩] := by
    decide +kernel
  rw [hS] at hsent
  rw [hS'] at hsent'
  obtain rfl := List.singleton_inj.mp hsent
  obtain rfl := List.singleton_inj.mp hsent'
  have hquery : Statement.queries "a \"x) y\" +\"-b\"".toList = ["a \"x) y\" +\"-b\""] := by
    decide
  have hquery' : Statement.queries "a \"c\" +\"d\"".toList = ["a \"c\" +\"d\""] := by
    decide
  rw [hquery, hquery'] at hread
  have halike : Query.ReadAlike .standard [("x) y", "c"), ("-b", "d")]
      "a \"x) y\" +\"-b\"" "a \"c\" +\"d\"" := by
    apply hread.readAlike
    · intro place hplace
      obtain rfl | rfl : place = 0 ∨ place = 1 := by
        rw [List.length_zip] at hplace
        simp at hplace
        omega
      · decide +kernel
      · decide +kernel
    · decide
  have hremarks : (Query.read .standard "a \"x) y\" +\"-b\"").remarks = [] := by
    decide +kernel
  apply halike.all_kept <;> simp [hremarks]

/-- What the queries of the statements are read as that are complete after fragments have been
sent in a new session. -/
def rootsSent (fragments : List String) : List (Option Expr) :=
  let s := (start (fun _ => []) .standard).sendAll (fragments.map fun x => (x, .none))
  s.statements.flatMap fun S => (Statement.queries S.text).map fun query =>
    (Query.read .standard query).value.toOption.map Query.root

/-- A value in a word is no phrase, and a sign in it is an operator. -/
theorem rootsSent_of_word :
  rootsSent ["a?", "z"] = [some (.term ⟨"a\"z\"", false, false, 5, none⟩)]
    ∧ rootsSent ["a?", "x -y"]
      = [some (.join .but (.term ⟨"a\"x", false, false, 5, none⟩)
          (.term ⟨"y\"", false, false, 5, none⟩))]
  := by
  refine ⟨?_, ?_⟩ <;> decide +kernel

/-- A value is lost after a sign of exclusion with nothing before it, and after a bracket that
closes nothing. -/
example :
  rootsSent ["-?", "a"] = [some .empty]
    ∧ rootsSent ["a) ?", "b"] = [some (.term ⟨"a", false, false, 5, none⟩)]
  := by
  refine ⟨?_, ?_⟩ <;> decide +kernel

end Session

end Retrieval
