import Retrieval.Proofs.Session.Composition

/-!
# What statements are made of

What has been sent since a statement began tells what the statement will be. A text that is sent
is a value if the fragments before it have more places than there are values, and a fragment
otherwise. The statement is the literal text of its fragments, in order, with the values, in order
and quoted, in the places. It is quiet if one of its texts was sent quietly.
-/

namespace Retrieval

/-! ### Characters and places -/

namespace Template

/-- A template as a sequence of characters and places, which are nothing yet. -/
def marks (t : Template) : List (Option Char) :=
  t.start.map some ++ t.afterPlaces.flatMap fun text => none :: text.map some

/-- The sequence with values, each between quotes, in its places from the first one on. -/
def substitute : List (Option Char) → List String → List (Option Char)
  | [], _ => []
  | some c :: ms, values => some c :: substitute ms values
  | none :: ms, [] => none :: ms
  | none :: ms, value :: values => (quoteValue value.toList).map some ++ substitute ms values

theorem substitute_nil (ms : List (Option Char)) :
  substitute ms [] = ms
  := by
  induction ms with
  | nil => rfl
  | cons m ms ih =>
    cases m with
    | none => rfl
    | some c => rw [substitute, ih]

theorem substitute_map_some (l : List Char) (ms : List (Option Char)) (values : List String) :
  substitute (l.map some ++ ms) values = l.map some ++ substitute ms values
  := by
  induction l with
  | nil => rfl
  | cons c l ih => rw [List.map_cons, List.cons_append, substitute, ih, List.cons_append]

/-- Values are put in one after another. -/
theorem substitute_substitute (ms : List (Option Char)) (values more : List String) :
  substitute (substitute ms values) more = substitute ms (values ++ more)
  := by
  fun_induction substitute ms values with
  | case1 values => rw [substitute, substitute]
  | case2 values c ms ih => rw [substitute, ih, substitute]
  | case3 ms => rw [List.nil_append]
  | case4 ms value values ih => rw [substitute_map_some, ih, List.cons_append, substitute]

theorem count_map_some (l : List Char) :
  (l.map some).count none = 0
  := by simp [List.count_eq_zero]

theorem count_substitute (ms : List (Option Char)) (values : List String) :
  (substitute ms values).count none = ms.count none - values.length
  := by
  fun_induction substitute ms values with
  | case1 => simp
  | case2 values c ms ih =>
    rw [List.count_cons_of_ne (by simp), ih, List.count_cons_of_ne (by simp)]
  | case3 => rfl
  | case4 ms value values ih =>
    rw [List.count_append, count_map_some, ih, List.count_cons_self, List.length_cons,
      Nat.zero_add, Nat.add_sub_add_right]

/-- Values that have a place each do not reach what follows. -/
theorem substitute_append {ms : List (Option Char)} {values : List String}
    (h : values.length ≤ ms.count none) (ms' : List (Option Char)) :
  substitute (ms ++ ms') values = substitute ms values ++ ms'
  := by
  fun_induction substitute ms values with
  | case1 values =>
    obtain rfl := List.length_eq_zero_iff.mp (Nat.le_zero.mp h)
    exact substitute_nil ms'
  | case2 values c ms ih =>
    rw [List.count_cons_of_ne (by simp)] at h
    rw [List.cons_append, substitute, ih h, List.cons_append]
  | case3 ms => rfl
  | case4 ms value values ih =>
    rw [List.count_cons_self, List.length_cons, Nat.add_le_add_iff_right] at h
    rw [List.cons_append, substitute, ih h, List.append_assoc]

theorem count_marks (t : Template) :
  t.marks.count none = t.places
  := by
  rw [marks, List.count_append, count_map_some, Nat.zero_add, places]
  induction t.afterPlaces with
  | nil => rfl
  | cons text texts ih =>
    rw [List.flatMap_cons, List.count_append, ih, List.count_cons_self, count_map_some,
      List.length_cons, Nat.zero_add, Nat.add_comm]

theorem append_concat (start : List Char) (before : List (List Char)) (text : List Char)
    (t : Template) :
  (mk start (before ++ [text])).append t = ⟨start, before ++ (text ++ t.start) :: t.afterPlaces⟩
  := by
  rw [append]
  split
  · rename_i hnil
    simp at hnil
  · simp

theorem marks_append (s t : Template) :
  (s.append t).marks = s.marks ++ t.marks
  := by
  obtain ⟨start, texts⟩ := s
  rcases List.eq_nil_or_concat texts with rfl | ⟨before, text, rfl⟩
  · simp [append, marks]
  · rw [List.concat_eq_append, append_concat]
    simp [marks]

theorem marks_fill (value : String) (t : Template) :
  (t.fill value.toList).marks = substitute t.marks [value]
  := by
  obtain ⟨start, texts⟩ := t
  rw [marks, marks, substitute_map_some, fill]
  cases texts with
  | nil => rfl
  | cons text texts => simp [substitute, substitute_nil]

end Template

/-! ### Fragments and values -/

/-- What a statement is made of: its fragments and its values, each in the order in which they have
been sent. -/
structure Contents where
  fragments : List String
  values : List String
deriving DecidableEq, Repr

namespace Contents

/-- Whether fragments that begin between quotes or outside them end between quotes. -/
def openQuotes (inQuotes : Bool) : List String → Bool
  | [] => inQuotes
  | fragment :: fragments => openQuotes (Template.ofChars inQuotes fragment.toList).2 fragments

/-- The literal text of fragments that begin between quotes or outside them. -/
def literals (inQuotes : Bool) : List String → List (Option Char)
  | [] => []
  | fragment :: fragments =>
    (Template.ofChars inQuotes fragment.toList).1.marks
      ++ literals (Template.ofChars inQuotes fragment.toList).2 fragments

/-- The literal text of the fragments. -/
def literal (c : Contents) : List (Option Char) :=
  literals false c.fragments

/-- The text of a statement: the literal text with the values in its places. -/
def text (c : Contents) : List (Option Char) :=
  Template.substitute c.literal c.values

/-- The contents with one more text, which is a value if there are fewer values than places. -/
def add (c : Contents) (text : String) : Contents :=
  if c.values.length < c.literal.count none then { c with values := c.values ++ [text] }
  else { c with fragments := c.fragments ++ [text] }

/-- The contents of a statement for which texts have been sent. -/
def ofSent (sent : List (String × Flags)) : Contents :=
  (sent.map Prod.fst).foldl add ⟨[], []⟩

theorem literals_append (inQuotes : Bool) (fragments more : List String) :
  literals inQuotes (fragments ++ more)
    = literals inQuotes fragments ++ literals (openQuotes inQuotes fragments) more
  := by
  induction fragments generalizing inQuotes with
  | nil => rfl
  | cons fragment fragments ih =>
    rw [List.cons_append, literals, ih, literals, List.append_assoc, openQuotes]

theorem openQuotes_append (inQuotes : Bool) (fragments more : List String) :
  openQuotes inQuotes (fragments ++ more) = openQuotes (openQuotes inQuotes fragments) more
  := by
  induction fragments generalizing inQuotes with
  | nil => rfl
  | cons fragment fragments ih => rw [List.cons_append, openQuotes, ih, openQuotes]

end Contents

/-! ### Drafts and what has been sent -/

/-- A draft is what has been sent since the statement began comes to. -/
structure Draft.Holds (d : Draft) (sent : List (String × Flags)) : Prop where
  marks_eq : d.template.marks = (Contents.ofSent sent).text
  inQuotes_eq : d.inQuotes = Contents.openQuotes false (Contents.ofSent sent).fragments
  quiet_eq : d.quiet = sent.any fun x => x.2.has .quiet
  length_le : (Contents.ofSent sent).values.length ≤ (Contents.ofSent sent).literal.count none

/-- A statement is the literal text of its fragments with its values in the places, and quiet if
one of its texts was sent quietly. -/
structure Statement.MadeOf (S : Statement) (sent : List (String × Flags)) : Prop where
  text_eq : S.text.map some = (Contents.ofSent sent).text
  quiet_eq : S.quiet = sent.any fun x => x.2.has .quiet

namespace Draft

theorem Holds.start :
  start.Holds []
  := ⟨rfl, rfl, rfl, Nat.le_refl _⟩

variable {d : Draft} {sent : List (String × Flags)}

/-- A value is awaited as long as there are more places than values. -/
theorem Holds.awaitsValue_iff (h : d.Holds sent) :
  d.awaitsValue = true
    ↔ (Contents.ofSent sent).values.length < (Contents.ofSent sent).literal.count none
  := by
  rw [Draft.awaitsValue_iff, ← Template.count_marks, h.marks_eq, Contents.text,
    Template.count_substitute, Nat.sub_pos_iff_lt]

/-- A draft that awaits no value has a value for each place, and is the text of a statement. -/
theorem Holds.finish (h : d.Holds sent) (hawaits : ¬(d.awaitsValue = true)) :
  (Contents.ofSent sent).values.length = (Contents.ofSent sent).literal.count none
    ∧ (Statement.mk d.template.start d.quiet).MadeOf sent
  := by
  refine ⟨?_, ?_, h.quiet_eq⟩
  · exact Nat.le_antisymm h.length_le (Nat.le_of_not_lt (mt h.awaitsValue_iff.mpr hawaits))
  · have hplaces : d.template.afterPlaces = [] := by simpa [Draft.awaitsValue] using hawaits
    rw [← h.marks_eq, Template.marks, hplaces, List.flatMap_nil, List.append_nil]

/-- One more text makes of a draft what it makes of the contents. -/
theorem Holds.add (h : d.Holds sent) (text : String) (flags : Flags) :
  (d.add text.toList (flags.has .quiet)).Holds (sent ++ [(text, flags)])
  := by
  have hquiet : (d.add text.toList (flags.has .quiet)).quiet
      = (sent ++ [(text, flags)]).any fun x => x.2.has .quiet := by
    rw [List.any_append, ← h.quiet_eq, Draft.add]
    split <;> simp [Draft.append]
  have hcontents : Contents.ofSent (sent ++ [(text, flags)])
      = (Contents.ofSent sent).add text := by
    rw [Contents.ofSent, List.map_append, List.foldl_append]
    rfl
  have hmarks := h.marks_eq
  have hquotes := h.inQuotes_eq
  have hlength := h.length_le
  have hiff := h.awaitsValue_iff
  generalize Contents.ofSent sent = c at *
  by_cases hawaits : d.awaitsValue = true
  · have hlt := hiff.mp hawaits
    rw [Contents.add, if_pos hlt] at hcontents
    have htemplate : (d.add text.toList (flags.has .quiet)).template
        = d.template.fill text.toList := by simp [Draft.add, hawaits]
    have hsame : (d.add text.toList (flags.has .quiet)).inQuotes = d.inQuotes := by
      simp [Draft.add, hawaits]
    refine ⟨?_, ?_, hquiet, ?_⟩
    · rw [htemplate, Template.marks_fill, hmarks, hcontents, Contents.text, Contents.text,
        Template.substitute_substitute]
      rfl
    · rw [hsame, hquotes, hcontents]
    · rw [hcontents, List.length_append]
      exact hlt
  · -- Each place so far has its value, so the new text is a fragment and no value reaches it.
    have hnlt := mt hiff.mpr hawaits
    rw [Contents.add, if_neg hnlt] at hcontents
    have htemplate : (d.add text.toList (flags.has .quiet)).template
        = d.template.append (Template.ofChars d.inQuotes text.toList).1 := by
      simp [Draft.add, Draft.append, hawaits]
    have hends : (d.add text.toList (flags.has .quiet)).inQuotes
        = (Template.ofChars d.inQuotes text.toList).2 := by
      simp [Draft.add, Draft.append, hawaits]
    have hliteral : (Contents.mk (c.fragments ++ [text]) c.values).literal
        = c.literal ++ (Template.ofChars d.inQuotes text.toList).1.marks := by
      rw [Contents.literal, Contents.literals_append, hquotes, Contents.literals,
        Contents.literals, List.append_nil]
      rfl
    refine ⟨?_, ?_, hquiet, ?_⟩
    · rw [htemplate, Template.marks_append, hmarks, hcontents, Contents.text, Contents.text,
        hliteral, Template.substitute_append hlength]
    · rw [hends, hcontents, Contents.openQuotes_append, hquotes]
      rfl
    · rw [hcontents, hliteral, List.count_append]
      exact Nat.le_add_right_of_le hlength

end Draft

end Retrieval
