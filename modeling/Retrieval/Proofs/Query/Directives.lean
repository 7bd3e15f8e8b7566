import Mathlib.Data.List.DropRight
import Retrieval.Proofs.Query.Budget

/-!
# Directives as they are written

Directives that are written one after the other are read back one by one, since the star of the
next one ends the one before it. What the last one ends at depends on what it is: the numbers of
an escalation or of weights end at any blank, while the sign of an operator ends at a star or a
blank of ASCII only. Any other blank is taken up into the sign, with what comes after it, and then
the sign names no operator.
-/

namespace Retrieval

/-- The characters that go on with a number are blank in no encoding. -/
theorem Encoding.not_isDigit_of_isSpace {encoding : Encoding} {c : Char}
    (h : encoding.isSpace c = true) :
  c.isDigit = false ∧ c ≠ ','
  := by
  have hblank : Text.isBlank c = true := by
    cases encoding with
    | ascii => exact Text.isBlank_of_isAsciiBlank h
    | unspecified | eucJp | utf8 | shiftJis => exact h
  constructor
  · -- no range of blanks meets the range of digits
    have hrange : c.toNat < 48 ∨ 57 < c.toNat := by
      simp [Text.isBlank, Text.blanks, Text.Ranges.contains] at hblank
      omega
    rw [Char.isDigit, Bool.and_eq_false_iff]
    simp only [decide_eq_false_iff_not, ge_iff_le, UInt32.le_iff_toNat_le]
    apply hrange.imp
    · exact Nat.not_le_of_lt
    · exact Nat.not_le_of_lt
  · rintro rfl
    revert hblank
    decide

/-! ### Tables of weights -/

namespace WeightTable

theorem lookup_cons (e : UInt32 × Score) (l : List (UInt32 × Score)) (n : UInt32) :
  (e :: l).lookup n = if n = e.1 then some e.2 else l.lookup n
  := by
  rw [List.lookup_cons]
  by_cases hn : n = e.1
  · simp [hn]
  · simp [hn, beq_false_of_ne hn]

theorem lookup_put (sectionNo : UInt32) (weight : Score) (l : List (UInt32 × Score))
    (n : UInt32) :
  (put sectionNo weight l).lookup n = if n = sectionNo then some weight else l.lookup n
  := by
  induction l with
  | nil => rw [put, lookup_cons]
  | cons e l ih =>
    rw [put]
    split
    · rw [lookup_cons]
    · split
      · rename_i hsame
        rw [lookup_cons, lookup_cons, hsame]
        split <;> rfl
      · rename_i hother
        rw [lookup_cons, lookup_cons, ih]
        split
        · rename_i hn
          rw [if_neg (hn ▸ Ne.symm hother)]
        · rfl

/-- A table has the last of the weights that are given for a section. -/
theorem lookup_ofList (l : List (UInt32 × Score)) (n : UInt32) :
  (ofList l).entries.lookup n = l.reverse.lookup n
  := by
  induction l using List.reverseRecOn with
  | nil => rfl
  | append_singleton l e ih =>
    have hlast : (ofList (l ++ [e])).entries = put e.1 e.2 (ofList l).entries := by
      rw [ofList, List.foldl_append]
      rfl
    rw [hlast, lookup_put, ih, List.reverse_append, List.reverse_singleton,
      List.singleton_append, lookup_cons]

end WeightTable

/-! ### Written directives -/

/-- A section with its weight, as a directive lists it. -/
structure ListedWeight where
  sectionNo : UInt32
  weight : Score
  sectionNo_ne_zero : sectionNo ≠ 0
deriving DecidableEq

namespace ListedWeight

def entry (w : ListedWeight) : UInt32 × Score :=
  (w.sectionNo, w.weight)

def render (w : ListedWeight) : List Char :=
  Text.decimal w.sectionNo.toNat ++ ':' :: Text.decimalInt w.weight.toInt

/-- The weights with commas between them. -/
def renderAll (ws : List ListedWeight) : List Char :=
  [','].intercalate (ws.map render)

theorem renderAll_cons_cons (w w' : ListedWeight) (ws : List ListedWeight) :
  renderAll (w :: w' :: ws) = w.render ++ ',' :: renderAll (w' :: ws)
  := by simp [renderAll, List.intercalate_cons_cons]

end ListedWeight

/-- The sign that names an operator. -/
def Operator.sign : Operator → List Char
  | .or => ['O', 'R']
  | .and => ['+']
  | .but => ['-']
  | .adjust => ['>']

/-- A directive that says something. -/
inductive WrittenDirective where
  | escalate (escalation : Escalation)
  | defaultOperator (operator : Operator)
  | weigh (weights : List ListedWeight)
deriving DecidableEq

namespace WrittenDirective

/-- What is written after the star. -/
def renderAfterStar : WrittenDirective → List Char
  | escalate ⟨threshold, none⟩ => 'E' :: Text.decimalInt threshold.toInt
  | escalate ⟨threshold, some secondary⟩ =>
    'E' :: (Text.decimalInt threshold.toInt ++ ',' :: Text.decimalInt secondary.toInt)
  | defaultOperator operator => 'D' :: operator.sign
  | weigh weights => 'W' :: ListedWeight.renderAll weights

def render (d : WrittenDirective) : List Char :=
  '*' :: d.renderAfterStar

/-- Directives one after the other, with nothing between them. -/
def renderAll (ds : List WrittenDirective) : List Char :=
  ds.flatMap render

theorem renderAll_cons (d : WrittenDirective) (ds : List WrittenDirective) :
  renderAll (d :: ds) = d.render ++ renderAll ds
  := List.flatMap_cons

/-- The directive that is read. -/
def directive : WrittenDirective → Directive
  | escalate escalation => .escalate escalation
  | defaultOperator operator => .defaultOperator operator.sign
  | weigh weights => .weigh (weights.map ListedWeight.entry)

/-- Whether a directive ends before the text that comes after it. -/
def EndsBefore (rest : List Char) : WrittenDirective → Prop
  | defaultOperator _ => ∀ c ∈ rest.head?, Directive.endsSign c = true
  | escalate _ | weigh _ => ∀ c ∈ rest.head?, c.isDigit = false ∧ c ≠ ','

/-- A directive ends before the next one. -/
theorem endsBefore_star (d : WrittenDirective) (rest : List Char) :
  d.EndsBefore ('*' :: rest)
  := by
  cases d <;> simp [EndsBefore, Directive.endsSign]

/-! ### Reading one back -/

theorem operator?_sign (operator : Operator) :
  Directive.operator? operator.sign = some operator
  := by cases operator <;> rfl

/-- A sign that goes on names nothing. -/
theorem operator?_sign_append (operator : Operator) (c : Char) (l : List Char) :
  Directive.operator? (operator.sign ++ c :: l) = none
  := by cases operator <;> simp [Operator.sign, Directive.operator?]

theorem not_endsSign_of_mem_sign {operator : Operator} {c : Char} (h : c ∈ operator.sign) :
  Directive.endsSign c = false
  := by
  have hall : operator.sign.all (fun c => !Directive.endsSign c) = true := by
    cases operator <;> decide
  simpa using List.all_eq_true.mp hall c h

theorem clampSection_toNat (n : UInt32) :
  Directive.clampSection n.toNat = n
  := by
  have hle : n.toNat ≤ UInt32.size - 1 := Nat.le_pred_of_lt n.toNat_lt
  rw [Directive.clampSection, Nat.min_eq_left hle, UInt32.ofNat_toNat]

theorem readEscalation_threshold (threshold : Int32) {rest : List Char}
    (hrest : ∀ c ∈ rest.head?, c.isDigit = false ∧ c ≠ ',') :
  Directive.readEscalation (Text.decimalInt threshold.toInt ++ rest)
    = (⟨threshold, none⟩, rest)
  := by
  rw [Directive.readEscalation,
    Text.readInteger_decimalInt threshold fun c hc => (hrest c hc).1]
  dsimp only
  split
  · exact absurd rfl (hrest ',' rfl).2
  · rfl

theorem readEscalation_secondary (threshold secondary : Int32) {rest : List Char}
    (hrest : ∀ c ∈ rest.head?, c.isDigit = false) :
  Directive.readEscalation (Text.decimalInt threshold.toInt
      ++ ',' :: (Text.decimalInt secondary.toInt ++ rest))
    = (⟨threshold, some secondary⟩, rest)
  := by
  have hcomma : ∀ c ∈ (',' :: (Text.decimalInt secondary.toInt ++ rest)).head?,
      c.isDigit = false := by simp
  rw [Directive.readEscalation, Text.readInteger_decimalInt threshold hcomma]
  simp only [Text.readInteger_decimalInt secondary hrest]

/-- One weight is read back, and then what comes after its comma, if there is one. -/
theorem readWeights_render (w : ListedWeight) {rest : List Char}
    (hrest : ∀ c ∈ rest.head?, c.isDigit = false) :
  Directive.readWeights (w.render ++ rest)
    = if rest.head? = some ',' then
        (w.entry :: (Directive.readWeights rest.tail).1, (Directive.readWeights rest.tail).2)
      else ([w.entry], rest)
  := by
  have hnumber : Text.readNumber (w.render ++ rest)
      = (w.sectionNo.toNat, ':' :: (Text.decimalInt w.weight.toInt ++ rest)) := by
    rw [ListedWeight.render, List.append_assoc, List.cons_append]
    apply Text.readNumber_decimal
    simp
  have hweight : Directive.readWeight (':' :: (Text.decimalInt w.weight.toInt ++ rest))
      = (w.weight, rest) := Text.readInteger_decimalInt w.weight hrest
  have hzero : w.sectionNo.toNat ≠ 0 := by
    intro h
    exact w.sectionNo_ne_zero (UInt32.toNat_inj.mp h)
  rw [Directive.readWeights_eq, hnumber, if_neg hzero]
  simp only [hweight, clampSection_toNat]
  split
  · rfl
  · rename_i hcomma
    rw [if_neg]
    · rfl
    · intro hhead
      obtain ⟨rest', rfl⟩ := List.head?_eq_some_iff.mp hhead
      exact hcomma rest' rfl

theorem readWeights_renderAll (ws : List ListedWeight) {rest : List Char}
    (hrest : ∀ c ∈ rest.head?, c.isDigit = false ∧ c ≠ ',') :
  Directive.readWeights (ListedWeight.renderAll ws ++ rest)
    = (ws.map ListedWeight.entry, rest)
  := by
  induction ws with
  | nil =>
    have hnone : (Text.readNumber rest).1 = 0 := by
      cases rest with
      | nil => rfl
      | cons c rest => simp [Text.readNumber, (hrest c rfl).1, Text.valueOf]
    exact (Directive.readWeights_eq rest).trans (if_pos hnone)
  | cons w ws ih =>
    cases ws with
    | nil =>
      rw [ListedWeight.renderAll, List.map_singleton, List.intercalate_singleton,
        readWeights_render w fun c hc => (hrest c hc).1, if_neg]
      · rfl
      · intro hcomma
        exact (hrest ',' hcomma).2 rfl
    | cons w' ws =>
      rw [ListedWeight.renderAll_cons_cons, List.append_assoc, List.cons_append,
        readWeights_render w (by simp), if_pos List.head?_cons,
        List.tail_cons, ih]
      rfl

/-- A directive is read back, if it ends before what comes after it. -/
theorem read?_render {d : WrittenDirective} {rest : List Char} (h : d.EndsBefore rest) :
  Directive.read? (d.render ++ rest) = some (d.directive, rest)
  := by
  cases d with
  | escalate escalation =>
    obtain ⟨threshold, _ | secondary⟩ := escalation
    · rw [render, renderAfterStar, List.cons_append, List.cons_append, Directive.read?,
        readEscalation_threshold threshold h]
      rfl
    · rw [render, renderAfterStar, List.cons_append, List.cons_append, List.append_assoc,
        List.cons_append, Directive.read?,
        readEscalation_secondary threshold secondary fun c hc => (h c hc).1]
      rfl
  | defaultOperator operator =>
    have hsign : ∀ c ∈ operator.sign, (!Directive.endsSign c) = true :=
      fun c hc => by simp [not_endsSign_of_mem_sign hc]
    have hrest : ∀ c ∈ rest.head?, (!Directive.endsSign c) = false :=
      fun c hc => by simp [h c hc]
    obtain ⟨htake, hdrop⟩ :=
      Text.takeWhile_append_of_stops (p := fun c => !Directive.endsSign c) hsign hrest
    rw [render, renderAfterStar, List.cons_append, List.cons_append, Directive.read?, htake,
      hdrop]
    rfl
  | weigh ws =>
    rw [render, renderAfterStar, List.cons_append, List.cons_append, Directive.read?,
      readWeights_renderAll ws h]
    rfl

/-- Directives are read back, if the last of them ends before what comes after it. -/
theorem readAll_append {ds : List WrittenDirective} {rest : List Char}
    (h : ∀ d ∈ ds.getLast?, d.EndsBefore rest) :
  Directive.readAll (renderAll ds ++ rest)
    = (ds.map directive ++ (Directive.readAll rest).1, (Directive.readAll rest).2)
  := by
  induction ds with
  | nil => rfl
  | cons d ds ih =>
    have hd : d.EndsBefore (renderAll ds ++ rest) := by
      cases ds with
      | nil => exact h d rfl
      | cons d' ds => apply endsBefore_star
    have hds : ∀ d ∈ ds.getLast?, d.EndsBefore rest := by
      intro d' hd'
      apply h
      rw [List.getLast?_cons, Option.mem_def.mp hd']
      rfl
    rw [renderAll_cons, List.append_assoc, Directive.readAll_of_some (read?_render hd), ih hds]
    rfl

/-! ### What they say together -/

def escalation? : WrittenDirective → Option Escalation
  | escalate escalation => some escalation
  | _ => none

def defaultOperator? : WrittenDirective → Option Operator
  | defaultOperator operator => some operator
  | _ => none

def weights? : WrittenDirective → Option SectionWeights
  | weigh ws => some (.listed (.ofList (ws.map ListedWeight.entry)))
  | _ => none

/-- What directives say: the last of each kind counts, and what none of them says is left as it
is. -/
def said (operator : Operator) (ds : List WrittenDirective) : Directives :=
  { escalation := (ds.filterMap escalation?).getLast?
    defaultOperator := (ds.filterMap defaultOperator?).getLast?.getD operator
    sectionWeights := (ds.filterMap weights?).getLast?.getD .uniform }

theorem foldl_apply (operator : Operator) (ds : List WrittenDirective) :
  (ds.map directive).foldl Directive.apply (.ofOperator operator) = said operator ds
  := by
  induction ds using List.reverseRecOn with
  | nil => rfl
  | append_singleton ds d ih =>
    rw [List.map_append, List.foldl_append, ih]
    cases d <;>
      simp [said, directive, Directive.apply, escalation?, defaultOperator?, weights?,
        operator?_sign]

end WrittenDirective

/-! ### Queries -/

theorem Directive.readAll_of_head? {l : List Char} (h : l.head? ≠ some '*') :
  readAll l = ([], l)
  := by
  apply readAll_of_none
  cases l with
  | nil => rfl
  | cons c l =>
    apply read?_cons_of_ne
    rintro rfl
    exact h rfl

theorem lexemes_dropWhile {isSpace : Char → Bool} (l : List Char) :
  lexemes isSpace (l.dropWhile isSpace) = lexemes isSpace l
  := by rw [lexemes_eq, List.dropWhile_idempotent, ← lexemes_eq]

namespace WrittenDirective

section block

variable {encoding : Encoding} {s : Char} {body : List Char} {ds : List WrittenDirective}

/-- No blanks are skipped before a directive. -/
theorem dropWhile_renderAll (hds : ds ≠ []) (rest : List Char) :
  (renderAll ds ++ rest).dropWhile encoding.isSpace = renderAll ds ++ rest
  := by
  cases ds with
  | nil => exact absurd rfl hds
  | cons d ds =>
    apply List.dropWhile_cons_of_neg
    simp [encoding.isSpace_sign '*' (by simp)]

/-- Before a blank all directives end, but the sign of an operator only before some. -/
theorem endsBefore_of_isSpace (hs : encoding.isSpace s = true) {d : WrittenDirective}
    (hd : Text.isAsciiBlank s = true ∨ ∀ operator, d ≠ .defaultOperator operator) :
  d.EndsBefore (s :: body)
  := by
  have hplain : ∀ c ∈ (s :: body).head?, c.isDigit = false ∧ c ≠ ',' := by
    rintro c ⟨⟩
    exact Encoding.not_isDigit_of_isSpace hs
  cases d with
  | escalate | weigh => exact hplain
  | defaultOperator operator =>
    have hblank : Text.isAsciiBlank s = true := hd.resolve_right fun h => h operator rfl
    rintro c ⟨⟩
    simp [Directive.endsSign, hblank]

/-- The directives before a text are read, and what they leave has the lexemes of the text. -/
theorem readAll_block (hs : encoding.isSpace s = true)
    (hbody : (body.dropWhile encoding.isSpace).head? ≠ some '*')
    (hends : ∀ d ∈ ds.getLast?, d.EndsBefore (s :: body)) :
  ∃ l, Directive.readAll ((renderAll ds ++ s :: body).dropWhile encoding.isSpace)
      = (ds.map directive, l)
    ∧ lexemes encoding.isSpace l = lexemes encoding.isSpace body
  := by
  by_cases hds : ds = []
  · subst hds
    use body.dropWhile encoding.isSpace
    constructor
    · rw [renderAll, List.flatMap_nil, List.nil_append, List.dropWhile_cons_of_pos hs]
      apply Directive.readAll_of_head? hbody
    · apply lexemes_dropWhile
  · use s :: body
    constructor
    · have hblank : (s :: body).head? ≠ some '*' := by
        rintro ⟨⟩
        rw [encoding.isSpace_sign '*' (by simp)] at hs
        cases hs
      rw [dropWhile_renderAll hds, readAll_append hends, Directive.readAll_of_head? hblank,
        List.append_nil]
    · apply lexemes_of_isSpace hs

/-- The sign of the last operator runs on over a blank that does not end it. -/
theorem readAll_sign (hs : encoding.isSpace s = true) (hblank : Text.isAsciiBlank s = false)
    (ds : List WrittenDirective) (operator : Operator) (body : List Char) :
  Directive.readAll (renderAll (ds ++ [.defaultOperator operator]) ++ s :: body)
    = (ds.map directive ++ .defaultOperator
          (operator.sign ++ s :: body.takeWhile fun c => !Directive.endsSign c)
        :: (Directive.readAll (body.dropWhile fun c => !Directive.endsSign c)).1,
      (Directive.readAll (body.dropWhile fun c => !Directive.endsSign c)).2)
  := by
  have hstar : s ≠ '*' := by
    rintro rfl
    rw [encoding.isSpace_sign '*' (by simp)] at hs
    cases hs
  let goes : Char → Bool := fun c => !Directive.endsSign c
  have hgoes : goes s = true := by simp [goes, Directive.endsSign, hstar, hblank]
  have hsign : ∀ c ∈ operator.sign, goes c = true :=
    fun c hc => by simp [goes, not_endsSign_of_mem_sign hc]
  have hlast : Directive.read? ('*' :: 'D' :: (operator.sign ++ s :: body))
      = some (.defaultOperator (operator.sign ++ s :: body.takeWhile goes),
        body.dropWhile goes) := by
    rw [Directive.read?, List.takeWhile_append_of_pos hsign, List.dropWhile_append_of_pos hsign,
      List.takeWhile_cons_of_pos hgoes, List.dropWhile_cons_of_pos hgoes]
  have hrender : renderAll (ds ++ [.defaultOperator operator]) ++ s :: body
      = renderAll ds ++ '*' :: 'D' :: (operator.sign ++ s :: body) := by
    simp [renderAll, render, renderAfterStar]
  rw [hrender, readAll_append fun d _ => d.endsBefore_star _, Directive.readAll_of_some hlast]

end block

end WrittenDirective

namespace Query

open WrittenDirective

section directives

variable {options : ReadOptions} {s : Char} {body : List Char}

/-- Directives that end before a blank are read back, and the text after them is read as it is by
itself with the operator they set. -/
theorem read_of_endsBefore {ds : List WrittenDirective} (hs : options.encoding.isSpace s = true)
    (hbody : (body.dropWhile options.encoding.isSpace).head? ≠ some '*')
    (hends : ∀ d ∈ ds.getLast?, d.EndsBefore (s :: body)) :
  let directives := said options.defaultOperator ds
  (read options (String.ofList (renderAll ds ++ s :: body))).value
    = (read { options with defaultOperator := directives.defaultOperator }
        (String.ofList body)).value.map fun q => { q with directives }
  := by
  intro directives
  obtain ⟨l, hread, hlexemes⟩ := readAll_block hs hbody hends
  have halone := value_readChars
    { options with defaultOperator := directives.defaultOperator }
    (Directive.readAll_of_head? hbody) 0
  have hmap : ∀ found : Except Error (Expr × List Char),
      found.map (fun r => (⟨r.1, directives, String.ofList r.2⟩ : Query))
        = (found.map fun r =>
            (⟨r.1, .ofOperator directives.defaultOperator, String.ofList r.2⟩ : Query)).map
          fun q => { q with directives } := by
    rintro (e | r) <;> rfl
  rw [read, read, String.toList_ofList, String.toList_ofList,
    value_readChars options hread 0, halone]
  dsimp only
  rw [foldl_apply, hlexemes, lexemes_dropWhile]
  split
  · rfl
  · apply hmap

/-- A sign that runs on over a blank sets no operator. -/
theorem directives_of_sign {ds : List WrittenDirective} {operator : Operator} {q : Query}
    (hs : options.encoding.isSpace s = true) (hblank : Text.isAsciiBlank s = false)
    (h : (read options (String.ofList
      (renderAll (ds ++ [.defaultOperator operator]) ++ s :: body))).value = .ok q) :
  q.directives
    = (Directive.readAll (body.dropWhile fun c => !Directive.endsSign c)).1.foldl Directive.apply
      (said options.defaultOperator ds)
  := by
  rw [read, String.toList_ofList, readChars_eq_ok 0, dropWhile_renderAll (by simp),
    readAll_sign hs hblank] at h
  obtain ⟨-, _, _, hsame, hdirectives, -⟩ := h
  obtain ⟨rfl, rfl⟩ := Prod.mk.inj hsame
  rw [hdirectives, List.foldl_append, foldl_apply, List.foldl_cons, Directive.apply,
    operator?_sign_append]
  rfl

/-- Directives with a blank after them say together what the last of each kind says, and the text
after them is read as it is by itself with the operator they set. This fails only if the last one
gives an operator and the blank is none of ASCII: its sign then takes up the blank and what comes
after it, up to a star or a blank of ASCII, and sets no operator. Of the weights that a directive
gives for one section the last one counts. -/
theorem read_directives (hs : options.encoding.isSpace s = true)
    (hbody : (body.dropWhile options.encoding.isSpace).head? ≠ some '*')
    (ds : List WrittenDirective) :
  let text := renderAll ds ++ s :: body
  let directives := said options.defaultOperator ds
  ((Text.isAsciiBlank s = true ∨ ∀ operator, ds.getLast? ≠ some (.defaultOperator operator)) →
    (read options (String.ofList text)).value
      = (read { options with defaultOperator := directives.defaultOperator }
          (String.ofList body)).value.map fun q => { q with directives })
    ∧ (∀ front operator, Text.isAsciiBlank s = false →
      ds = front ++ [.defaultOperator operator] →
        let sign := operator.sign ++ s :: body.takeWhile fun c => !Directive.endsSign c
        let more := Directive.readAll (body.dropWhile fun c => !Directive.endsSign c)
        Directive.readAll text
            = (front.map directive ++ .defaultOperator sign :: more.1, more.2)
          ∧ ∀ q, (read options (String.ofList text)).value = .ok q →
            q.directives = more.1.foldl Directive.apply (said options.defaultOperator front))
    ∧ ∀ (ws : List ListedWeight) (n : UInt32),
      (WeightTable.ofList (ws.map ListedWeight.entry)).entries.lookup n
        = (ws.map ListedWeight.entry).reverse.lookup n
  := by
  intro text directives
  refine ⟨?_, ?_, fun ws n => WeightTable.lookup_ofList _ n⟩
  · intro hlast
    apply read_of_endsBefore hs hbody
    intro d hd
    apply endsBefore_of_isSpace hs
    apply hlast.imp_right
    rintro h operator rfl
    exact h operator hd
  · rintro front operator hblank rfl
    exact ⟨readAll_sign hs hblank front operator body,
      fun q hq => directives_of_sign hs hblank hq⟩

end directives

/-- The ideographic space after weights, of which the later one for the section counts, and after
an operator, which is lost. -/
theorem read_directives_ideographic :
  let options : ReadOptions := { ReadOptions.standard with encoding := .utf8 }
  let s := '\u3000'
  let body := ['a', ' ', 'b']
  let ds : List WrittenDirective := [.defaultOperator .and, .escalate ⟨-7, some 2⟩,
    .weigh [⟨1, 3, by decide⟩, ⟨1, -2, by decide⟩]]
  let directives : Directives := ⟨some ⟨-7, some 2⟩, .and, .listed ⟨[(1, -2)], by simp⟩⟩
  let signLast : List WrittenDirective := [.escalate ⟨1, none⟩, .defaultOperator .and]
  options.encoding.isSpace s = true ∧ (body.dropWhile options.encoding.isSpace).head? ≠ some '*'
    ∧ (read options (String.ofList (renderAll ds ++ s :: body))).value
      = (read { options with defaultOperator := .and } (String.ofList body)).value.map
        (fun q => { q with directives })
    ∧ ∀ q, (read options (String.ofList (renderAll signLast ++ s :: body))).value = .ok q →
      q.directives = ⟨some ⟨1, none⟩, .or, .uniform⟩
  := by
  intro options s body ds directives signLast
  have hs : options.encoding.isSpace s = true := by decide
  have hbody : (body.dropWhile options.encoding.isSpace).head? ≠ some '*' := by decide
  obtain ⟨hread, -, -⟩ := read_directives hs hbody ds
  obtain ⟨-, hsign, -⟩ := read_directives hs hbody signLast
  obtain ⟨-, hlost⟩ := hsign [.escalate ⟨1, none⟩] .and (by decide) rfl
  exact ⟨hs, hbody, hread (.inr (by simp [ds])),
    fun q hq => (hlost q hq).trans (by decide +kernel)⟩

/-- The operator that a directive sets is lost if the directive is the last one and the ideographic
space comes after it. -/
theorem read_sign_ideographic :
  let options : ReadOptions := { ReadOptions.standard with encoding := .utf8 }
  let s := '\u3000'
  let body := ['a', ' ', 'b']
  let ds : List WrittenDirective := [.defaultOperator .and]
  let directives := said options.defaultOperator ds
  options.encoding.isSpace s = true ∧ (body.dropWhile options.encoding.isSpace).head? ≠ some '*'
    ∧ directives.defaultOperator = .and
    ∧ (read options (String.ofList (renderAll ds ++ s :: body))).value
      = .ok ⟨.term ⟨"b", false, false, 5, none⟩, .ofOperator .or, ""⟩
    ∧ (read options (String.ofList (renderAll ds ++ s :: body))).value
      ≠ (read { options with defaultOperator := directives.defaultOperator }
          (String.ofList body)).value.map fun q => { q with directives }
  := by decide +kernel

end Query

end Retrieval
