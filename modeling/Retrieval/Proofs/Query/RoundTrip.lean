import Retrieval.Proofs.Json.Held
import Retrieval.Query.Json

/-!
# Reading queries back

A query is read back from the JSON value that writes it, and from the text of that value, unless
the value nests too deep. Expressions are read by recursion as they were written, and a table of
weights is put together again from its entries, since these stand in the order of the sections.
-/

namespace Retrieval

/-! ### Enumerations -/

namespace Enumeration

variable {α : Type} [Enumeration α] {a : α}

theorem plainChoice?_text (held : Bool) (s : String) :
  (Json.text s).plainChoice? held = some s
  := by
  simp [Json.plainChoice?, Json.choice?, Json.text, Json.unescape?_escape, Json.saysNothing]

theorem ofJson?_toJson (h : ofName? (name a) = some a) :
  ofJson? (toJson a) = some a
  := by
  rw [ofJson?, toJson, plainChoice?_text, Option.bind_eq_bind, Option.bind_some, h]

theorem ofHeld?_toJson (h : ofName? (name a) = some a) :
  ofHeld? (toJson a) = some a
  := by
  rw [ofHeld?, toJson, plainChoice?_text, Option.bind_eq_bind, Option.bind_some, h]

end Enumeration

theorem MatchMode.ofName?_name (mode : MatchMode) :
  Enumeration.ofName? (Enumeration.name mode) = some mode
  := by
  cases mode <;> decide

theorem Connective.ofName?_name (connective : Connective) :
  Enumeration.ofName? (Enumeration.name connective) = some connective
  := by
  cases connective <;> decide

theorem Operator.ofName?_name (operator : Operator) :
  Enumeration.ofName? (Enumeration.name operator) = some operator
  := by
  cases operator <;> decide

@[simp]
theorem Json.plain_toJson {α : Type} [Enumeration α] (a : α) :
  Plain (Enumeration.toJson a)
  := plain_text (Enumeration.name a)

/-! ### Expressions -/

@[simp]
theorem Score.plain (s : Score) :
  Json.Plain s.toJson
  := Json.plain_int32 s

namespace ModeChoice

theorem storable (m : ModeChoice) :
  Json.Storable m.toJson
  := by
  apply Json.storable_record
  simp

@[simp]
theorem nullable?_toJson (m : ModeChoice) :
  m.toJson.nullable? ofJson? = some (some m)
  := by
  have hread : ofJson? m.toJson = some m := by
    rw [ofJson?, toJson, Json.fields?_record (by simp) (by simp)]
    simp [Enumeration.ofHeld?_toJson m.mode.ofName?_name]
  change (ofJson? m.toJson).map some = _
  rw [hread]
  rfl

end ModeChoice

theorem Term.storable (t : Term) :
  Json.Storable t.toJson
  := by
  apply Json.storable_record
  cases t.mode with
  | none => simp
  | some m => simp [m.storable]

namespace Expr

theorem readFields_eq_map (fields : List (List Char × Json)) :
  readFields fields = fields.map fun (n, j) => (n, (j, read? true j))
  := by
  induction fields with
  | nil => rfl
  | cons f fields ih => rw [readFields, ih, List.map_cons]

/-- Whatever an expression holds can be written and held. -/
theorem storable (x : Expr) :
  Json.Storable x.toJson
  := by
  induction x with
  | empty =>
    apply Json.storable_record
    simp
  | term t => exact t.storable
  | group child ih =>
    apply Json.storable_record
    simp [ih]
  | join connective left right ihl ihr =>
    apply Json.storable_record
    simp [ihl, ihr]

/-- A tagged record is read by its kind and its fields. -/
theorem exists_tagged (held : Bool) {kind : String} {fields : List (String × Json)} {j : Json}
    (hj : j = Json.record (("type", Json.text kind) :: fields))
    (hdistinct : ((("type", Json.text kind) :: fields).map Prod.fst).Nodup) :
  ∃ t : Json.Tagged Held, read? held j = ofTagged? held t
    ∧ t.tag.1 = Json.text kind ∧ ∀ names : List String, "type" ∉ names →
      t.fields? names = some ⟨true, (fields.map fun (n, j) => (n, (j, read? true j))).filter
        fun (n, _) => names.contains n⟩
  := by
  subst hj
  have hdistinct' : ((("type", (Json.text kind, read? true (Json.text kind)))
      :: fields.map fun (n, j) => (n, (j, read? true j))).map Prod.fst).Nodup := by
    rw [List.map_cons, List.map_map]
    exact hdistinct
  obtain ⟨t, ht, htag, hfields⟩ := Json.Tagged.ofNamed?_names _ hdistinct'
  refine ⟨t, ?_, by rw [htag], hfields⟩
  rw [List.map_cons, List.map_map] at ht
  rw [Json.record, List.map_cons, read?, readFields_eq_map, List.map_cons, List.map_map]
  refine Eq.trans ?_ (congrArg (fun t => t.bind (ofTagged? held)) ht)
  rfl

/-- An expression is read back, whether its outermost part was held or not. -/
theorem read?_toJson (held : Bool) (x : Expr) :
  read? held x.toJson = some x
  := by
  induction x generalizing held with
  | empty =>
    obtain ⟨t, hread, htag, hfields⟩ := exists_tagged held (j := toJson .empty) rfl (by simp)
    simp [hread, ofTagged?, htag, Json.kind?, hfields]
  | term t =>
    obtain ⟨text, isPrefix, isPhrase, weight, mode⟩ := t
    cases mode with
    | none =>
      obtain ⟨t, hread, htag, hfields⟩ := exists_tagged held
        (j := toJson (.term ⟨text, isPrefix, isPhrase, weight, none⟩)) rfl (by simp)
      simp [hread, ofTagged?, htag, Json.kind?, hfields, termFields, term?, Json.bool?,
        Score.toJson]
    | some m =>
      obtain ⟨t, hread, htag, hfields⟩ := exists_tagged held
        (j := toJson (.term ⟨text, isPrefix, isPhrase, weight, some m⟩)) rfl (by simp)
      simp [hread, ofTagged?, htag, Json.kind?, hfields, termFields, term?, Json.bool?,
        Score.toJson]
  | group child ih =>
    obtain ⟨t, hread, htag, hfields⟩ :=
      exists_tagged held (j := toJson (.group child)) rfl (by simp)
    simp [hread, ofTagged?, htag, Json.kind?, hfields, ih]
  | join connective left right ihl ihr =>
    obtain ⟨t, hread, htag, hfields⟩ :=
      exists_tagged held (j := toJson (.join connective left right)) rfl (by simp)
    simp [hread, ofTagged?, htag, Json.kind?, hfields, ihl, ihr,
      Enumeration.ofHeld?_toJson connective.ofName?_name]

/-- An expression is read back if it does not nest too deep. -/
theorem ofJson?_toJson (levels : Nat) (x : Expr) :
  ofJson? levels x.toJson = if x.toJson.depth ≤ levels then some x else none
  := by
  rw [ofJson?, Json.holdable, x.storable.sound, Bool.and_true, read?_toJson]
  simp only [decide_eq_true_eq]

end Expr

/-! ### Directives -/

namespace Escalation

theorem written (e : Escalation) :
  Json.Written e.toJson
  := by
  apply Json.written_record
  cases e.secondary <;> simp [Json.ofOption]

theorem depth_le (e : Escalation) :
  e.toJson.depth ≤ 1
  := by
  apply Json.depth_record_le_iff.mpr
  cases e.secondary <;> simp [Json.ofOption]

@[simp]
theorem ofJson?_toJson (e : Escalation) :
  ofJson? e.toJson = some e
  := by
  have hsecondary : (Json.ofOption (fun n : Int32 => Json.integer n.toInt) e.secondary).nullable?
      Json.int32? = some e.secondary :=
    Json.nullable?_ofOption Json.int32?_integer (by simp [Json.integer]) e.secondary
  rw [ofJson?, toJson, Json.fields?_record (by simp) (by simp)]
  simp [hsecondary]

end Escalation

namespace WeightTable

/-- A section that comes after all others is put at the end. -/
theorem put_of_forall_lt {sectionNo : UInt32} {weight : Score} {l : List (UInt32 × Score)}
    (h : ∀ e ∈ l, e.1 < sectionNo) :
  put sectionNo weight l = l ++ [(sectionNo, weight)]
  := by
  induction l with
  | nil => rfl
  | cons e l ih =>
    obtain ⟨hfirst, hmore⟩ := List.forall_mem_cons.mp h
    rw [put, if_neg (UInt32.lt_asymm hfirst), if_neg (UInt32.ne_of_lt hfirst).symm, ih hmore]
    rfl

theorem entries_foldl_insert {l : List (UInt32 × Score)} {table : WeightTable}
    (h : (table.entries ++ l).Pairwise fun a b => a.1 < b.1) :
  (l.foldl (fun table e => table.insert e.1 e.2) table).entries = table.entries ++ l
  := by
  induction l generalizing table with
  | nil => rw [List.foldl_nil, List.append_nil]
  | cons e l ih =>
    have hlast : (table.insert e.1 e.2).entries = table.entries ++ [e] :=
      put_of_forall_lt fun a ha => (List.pairwise_append.mp h).2.2 a ha e List.mem_cons_self
    rw [List.foldl_cons, ih]
    · rw [hlast, List.append_assoc]
      rfl
    · rwa [hlast, List.append_assoc]

/-- A table is put together again from its entries. -/
theorem ofList_entries (table : WeightTable) :
  ofList table.entries = table
  := by
  have hentries : (ofList table.entries).entries = table.entries :=
    entries_foldl_insert table.ascending
  obtain ⟨entries, ascending⟩ := table
  cases h : ofList entries
  rw [h] at hentries
  subst hentries
  rfl

theorem ofJson?_object (table : WeightTable) :
  ofJson? (.object (table.entries.map fun (sectionNo, weight) =>
      (Text.decimal sectionNo.toNat, weight.toJson)))
    = some table
  := by
  rw [ofJson?, Json.mapM_map_eq_some]
  · rw [Option.bind_eq_bind, Option.bind_some, ofList_entries]
    rfl
  · rintro ⟨sectionNo, weight⟩ -
    simp [Json.ofBare?_decimal, Score.toJson]

end WeightTable

namespace SectionWeights

theorem written (weights : SectionWeights) :
  Json.Written weights.toJson
  := by
  cases weights with
  | uniform => apply (Json.plain_text _).written
  | listed table =>
    apply Json.written_record
    simp only [List.forall_mem_singleton]
    apply Json.Written.object
    · intro f hf
      obtain ⟨e, -, rfl⟩ := List.mem_map.mp hf
      apply Json.quotable_decimal
    · intro f hf
      obtain ⟨e, -, rfl⟩ := List.mem_map.mp hf
      exact e.2.plain.written

theorem depth_le (weights : SectionWeights) :
  weights.toJson.depth ≤ 2
  := by
  cases weights with
  | uniform => apply Nat.zero_le
  | listed table =>
    apply Json.depth_record_le_iff.mpr
    rw [List.forall_mem_singleton, Json.depth, Nat.add_le_add_iff_right, Json.depthFields_le_iff]
    intro f hf
    obtain ⟨e, -, rfl⟩ := List.mem_map.mp hf
    exact Nat.le_of_eq e.2.plain.depth

@[simp]
theorem ofJson?_toJson (weights : SectionWeights) :
  ofJson? weights.toJson = some weights
  := by
  cases weights with
  | uniform =>
    simp [ofJson?, toJson, Json.choice?, Json.text, Json.unescape?_escape, Json.saysNothing]
  | listed table =>
    simp [ofJson?, toJson, Json.record, Json.choice?, Json.name, Json.unescape?_escape,
      table.ofJson?_object]

end SectionWeights

namespace Directives

theorem written (d : Directives) :
  Json.Written d.toJson
  := by
  apply Json.written_record
  cases d.escalation with
  | none => simp [d.sectionWeights.written, Json.ofOption]
  | some e => simp [d.sectionWeights.written, e.written, Json.ofOption]

/-- Directives nest three levels at most, which a table of weights takes. -/
theorem depth_le (d : Directives) :
  d.toJson.depth ≤ 3
  := by
  apply Json.depth_record_le_iff.mpr
  cases d.escalation with
  | none => simp [d.sectionWeights.depth_le, Json.ofOption]
  | some e => simp [d.sectionWeights.depth_le, Nat.le_succ_of_le e.depth_le, Json.ofOption]

@[simp]
theorem ofJson?_toJson (d : Directives) :
  ofJson? d.toJson = some d
  := by
  have hescalation : (Json.ofOption Escalation.toJson d.escalation).nullable? Escalation.ofJson?
      = some d.escalation :=
    Json.nullable?_ofOption Escalation.ofJson?_toJson (by simp [Escalation.toJson, Json.record])
      d.escalation
  rw [ofJson?, toJson, Json.fields?_record (by simp) (by simp)]
  simp [hescalation, Enumeration.ofJson?_toJson d.defaultOperator.ofName?_name]

end Directives

/-! ### Queries -/

namespace Query

theorem written (q : Query) :
  Json.Written q.toJson
  := by
  apply Json.written_record
  split <;> simp [q.root.storable, q.directives.written]

/-- A query nests one level deeper than its expression and its directives. -/
theorem depth_toJson_le_iff (q : Query) (n : Nat) :
  q.toJson.depth ≤ n + 1 ↔ q.root.toJson.depth ≤ n ∧ q.directives.toJson.depth ≤ n
  := by
  rw [toJson, Json.depth_record_le_iff]
  split <;> simp

/-- The text that was left is read back, also where it is empty and not written. -/
theorem exists_fields (q : Query) :
  ∃ more : List (String × Json),
    q.toJson.fields? ["root", "pragmas", "rest"]
      = some ⟨true, ("root", q.root.toJson) :: ("pragmas", q.directives.toJson) :: more⟩
    ∧ (Json.Fields.mk true more).withDefault "rest" Json.text? "" = some q.rest
  := by
  rw [toJson]
  split
  · rename_i hrest
    use [], Json.fields?_record (by simp) (by simp)
    rw [String.isEmpty_iff.mp hrest]
    rfl
  · use [("rest", Json.text q.rest)], Json.fields?_record (by simp) (by simp)
    simp

/-- A query is read back if it does not nest too deep, and is refused otherwise. -/
theorem ofJson?_toJson (q : Query) :
  ofJson? q.toJson = if q.toJson.depth ≤ Json.maxLevels then some q else none
  := by
  have hdirectives : q.directives.toJson.depth ≤ Json.maxLevels - 1 :=
    Nat.le_trans q.directives.depth_le (by decide)
  have hdepth : q.toJson.depth ≤ Json.maxLevels ↔ q.root.toJson.depth ≤ Json.maxLevels - 1 :=
    (q.depth_toJson_le_iff (Json.maxLevels - 1)).trans (and_iff_left hdirectives)
  obtain ⟨more, hfields, hrest⟩ := q.exists_fields
  by_cases hroot : q.root.toJson.depth ≤ Json.maxLevels - 1
  · simp [ofJson?, hfields, hrest, Expr.ofJson?_toJson, hdepth, hroot]
  · simp [ofJson?, hfields, Expr.ofJson?_toJson, hdepth, hroot]

/-- A query is read back from its text, unless that nests too deep. -/
theorem parse?_compact (q : Query) :
  (Json.parse? q.toJson.compact.toList).bind ofJson?
    = if q.toJson.depth ≤ Json.maxLevels then some q else none
  := by
  rw [Json.compact, String.toList_ofList, q.written.parse?_compactChars, Option.bind_some,
    ofJson?_toJson]

end Query

end Retrieval
