import Retrieval.Json.Fields
import Retrieval.Json.Printer
import Retrieval.Json.Reader
import Mathlib.Data.List.Basic

/-!
# Reading JSON back

A value that is put together from texts, integers, arrays and objects is read back from its
characters. Reading goes character by character, and where a value begins, the reader goes on to
the state that follows the value, whatever arrays and objects are open around it. The texts,
integers and fields of such a value are read back as well.
-/

namespace Retrieval

/-! ### Numerals -/

namespace Text

/-- A number without its last digit begins with zero only if it is a single digit. -/
theorem zero_of_decimal {n : Nat} {l : List Char} (h : decimal n = '0' :: l) :
  n = 0 ∧ l = []
  := by
  fun_induction decimal n generalizing l with
  | case1 n hn =>
    obtain ⟨hd, rfl⟩ := List.cons.inj h
    have hall : ∀ d < 10, Char.ofNat (48 + d) = '0' → d = 0 := by decide
    exact ⟨hall n hn hd, rfl⟩
  | case2 n hn ih =>
    obtain ⟨c, l', hc⟩ := List.exists_cons_of_ne_nil (decimal_ne_nil (n / 10))
    rw [hc, List.cons_append] at h
    obtain ⟨rfl, -⟩ := List.cons.inj h
    have := (ih hc).1
    omega

theorem exists_digit_cons (n : Nat) :
  ∃ c l, decimal n = c :: l ∧ c.isDigit = true ∧ l.all Char.isDigit = true
  := by
  obtain ⟨c, l, h⟩ := List.exists_cons_of_ne_nil (decimal_ne_nil n)
  have hdigit : ∀ d ∈ c :: l, d.isDigit = true := by
    intro d hd
    rw [← h] at hd
    exact isDigit_of_mem_decimal hd
  refine ⟨c, l, h, hdigit c List.mem_cons_self, ?_⟩
  rw [List.all_eq_true]
  exact fun d hd => hdigit d (List.mem_cons_of_mem c hd)

end Text

namespace Json

theorem natural_eq_integer (n : Nat) :
  natural n = integer n
  := by
  rw [natural, integer, Text.decimalInt, if_neg (by omega)]
  rfl

/-- A numeral writes the integer that it was made of. -/
theorem integer?_integer (i : Int) :
  (integer i).integer? = some i
  := by
  obtain ⟨c, l, h, hc, hl⟩ := Text.exists_digit_cons i.natAbs
  have hall : (c :: l).all Char.isDigit = true := by rw [List.all_cons, hc, hl]; rfl
  have hvalue : Text.valueOf (c :: l) = i.natAbs := by rw [← h, Text.valueOf_decimal]
  rw [integer, Text.decimalInt]
  split
  · rw [h]
    simp only [integer?, hall, hvalue, true_and]
    rw [if_pos (by omega)]
    congr
    omega
  · rw [h, integer?.eq_def]
    split
    · rename_i heq
      rw [(List.cons.inj (Json.numeral.inj heq)).1] at hc
      cases hc
    · rename_i heq
      obtain rfl := Json.numeral.inj heq
      rw [if_pos hall, hvalue]
      congr
      omega
    · rename_i hother
      exact (hother _ rfl).elim

theorem natural?_natural {bound n : Nat} (h : n < bound) :
  (natural n).natural? bound = some n
  := by
  rw [natural?, natural_eq_integer, integer?_integer]
  exact if_pos h

@[simp]
theorem uint8?_natural (n : UInt8) :
  (natural n.toNat).uint8? = some n
  := by
  rw [uint8?, natural?_natural n.toNat_lt, Option.map_some, UInt8.ofNat_toNat]

@[simp]
theorem uint32?_natural (n : UInt32) :
  (natural n.toNat).uint32? = some n
  := by
  rw [uint32?, natural?_natural n.toNat_lt, Option.map_some, UInt32.ofNat_toNat]

@[simp]
theorem int32?_integer (i : Int32) :
  (integer i.toInt).int32? = some i
  := by
  rw [int32?, integer?_integer]
  dsimp only
  rw [if_pos ⟨i.minValue_le_toInt, i.toInt_le⟩, Int32.ofInt_toInt]

theorem isFraction_of_all_isDigit {l : List Char} (h : l.all Char.isDigit = true) :
  isFraction (l.dropWhile Char.isDigit) = true
  := by
  rw [← List.append_nil l, List.dropWhile_append_of_pos (List.all_eq_true.mp h)]
  rfl

theorem isNumeral_digits {c : Char} {l : List Char} (hc : c.isDigit = true)
    (hl : l.all Char.isDigit = true) (hzero : c = '0' → l = []) :
  isNumeral (c :: l) = true ∧ isNumeral ('-' :: c :: l) = true
  := by
  by_cases hz : c = '0'
  · obtain rfl := hzero hz
    subst hz
    exact ⟨rfl, rfl⟩
  · have hminus : c ≠ '-' := by
      rintro rfl
      cases hc
    simp [isNumeral, hminus, hc, isFraction_of_all_isDigit hl]

/-- A numeral made of an integer is a numeral. -/
theorem isNumeral_decimalInt (i : Int) :
  isNumeral (Text.decimalInt i) = true
  := by
  obtain ⟨c, l, h, hc, hl⟩ := Text.exists_digit_cons i.natAbs
  have hnumeral := isNumeral_digits hc hl (by
    rintro rfl
    exact (Text.zero_of_decimal h).2)
  rw [Text.decimalInt, h]
  split
  · exact hnumeral.2
  · exact hnumeral.1

/-! ### Texts -/

/-- A character is written as a letter after a backslash, as a code point, or as it is. -/
theorem escapeChar_cases (c : Char) :
  (∃ letter, escapeLetter? letter = some c ∧ escapeChar c = ['\\', letter])
    ∨ (c.toNat < 0x20 ∧ escapeChar c
        = ['\\', 'u', '0', '0', hexDigit (c.toNat / 16), hexDigit (c.toNat % 16)])
    ∨ (c ≠ '"' ∧ c ≠ '\\' ∧ ¬c.toNat < 0x20 ∧ escapeChar c = [c])
  := by
  fun_cases escapeChar c with
  | case8 => exact .inr (.inl ⟨‹_›, rfl⟩)
  | case9 hquote hbackslash => exact .inr (.inr ⟨hquote, hbackslash, ‹_›, rfl⟩)
  | _ =>
    subst c
    exact .inl ⟨_, rfl, rfl⟩

/-- The hexadecimal digits of a control write its code point. -/
theorem codeUnit?_hexDigit :
  ∀ n < 32, codeUnit? '0' '0' (hexDigit (n / 16)) (hexDigit (n % 16)) = some n
  := by
  decide

theorem unescape?_letter {c d : Char} (hd : escapeLetter? c = some d) (rest : List Char) :
  unescape? ('\\' :: c :: rest) = (unescape? rest).map (d :: ·)
  := by
  have hc : c ≠ 'u' := by
    rintro rfl
    cases hd
  rw [unescape?]
  · rw [hd]
    cases unescape? rest <;> rfl
  · rintro _ _ _ _ _ rfl
    exact absurd rfl hc

theorem unescape?_control {c : Char} (hc : c.toNat < 32) (rest : List Char) :
  unescape? ('\\' :: 'u' :: '0' :: '0' :: hexDigit (c.toNat / 16) :: hexDigit (c.toNat % 16)
      :: rest)
    = (unescape? rest).map (c :: ·)
  := by
  rw [unescape?, codeUnit?_hexDigit _ hc, Option.bind_eq_bind, Option.bind_some,
    if_pos (.inl (by omega)), Char.ofNat_toNat]
  cases unescape? rest <;> rfl

theorem unescape?_plain {c : Char} (hc : c ≠ '\\') (rest : List Char) :
  unescape? (c :: rest) = (unescape? rest).map (c :: ·)
  := by
  rw [unescape?]
  · rw [if_neg hc]
    cases unescape? rest <;> rfl
  · rintro _ _ _ _ _ rfl
    exact absurd rfl hc
  · rintro _ _ rfl
    exact absurd rfl hc

/-- A character is read back from the way in which it is written, whatever follows. -/
theorem unescape?_escapeChar (c : Char) (rest : List Char) :
  unescape? (escapeChar c ++ rest) = (unescape? rest).map (c :: ·)
  := by
  rcases escapeChar_cases c with ⟨letter, hletter, h⟩ | ⟨hc, h⟩ | ⟨-, hc, -, h⟩
  · rw [h]
    exact unescape?_letter hletter rest
  · rw [h]
    exact unescape?_control hc rest
  · rw [h]
    exact unescape?_plain hc rest

theorem unescape?_escape (l : List Char) :
  unescape? (escape l) = some l
  := by
  induction l with
  | nil => rfl
  | cons c l ih =>
    rw [escape, List.flatMap_cons, unescape?_escapeChar, ← escape, ih]
    rfl

/-- A text is read back. -/
@[simp]
theorem text?_text (s : String) :
  (text s).text? = some s
  := by
  rw [text, text?, unescape?_escape, Option.map_some, String.ofList_toList]

/-! ### Lists and records -/

theorem mapM_map_eq_some {α β : Type} {read : β → Option α} {write : α → β} {l : List α}
    (h : ∀ a ∈ l, read (write a) = some a) :
  (l.map write).mapM read = some l
  := by
  induction l with
  | nil => rfl
  | cons a l ih =>
    rw [List.map_cons, List.mapM_cons, h a List.mem_cons_self,
      ih fun b hb => h b (List.mem_cons_of_mem a hb)]
    rfl

/-- A list is read back if its items are. -/
theorem list?_array {α : Type} {read : Json → Option α} {write : α → Json} {l : List α}
    (h : ∀ a ∈ l, read (write a) = some a) :
  (Json.array (l.map write)).list? read = some l
  := by
  rw [list?, items?, Option.bind_eq_bind, Option.bind_some, mapM_map_eq_some h]

/-- What may be absent is read back if what may be there is, and is not written as nothing. -/
theorem nullable?_ofOption {α : Type} {read : Json → Option α} {write : α → Json}
    (hread : ∀ a, read (write a) = some a) (hwrite : ∀ a, write a ≠ .null) (a : Option α) :
  (ofOption write a).nullable? read = some a
  := by
  cases a with
  | none => rfl
  | some a =>
    rw [ofOption, nullable?.eq_def]
    split
    · rename_i hnull
      exact absurd hnull (hwrite a)
    · rw [hread, Option.map_some]

theorem mapM_unescape? {α : Type} (fields : List (String × α)) :
  ((fields.map fun (n, a) => (name n, a)).mapM fun (n, a) => do
      return (String.ofList (← unescape? n), a) : Option (List (String × α)))
    = some fields
  := by
  apply mapM_map_eq_some
  rintro ⟨n, a⟩ -
  dsimp only
  rw [name, unescape?_escape, Option.bind_eq_bind, Option.bind_some, String.ofList_toList]
  rfl

/-- The fields of an object that are asked for, where each of them stands once. -/
theorem ofNamed?_names {α : Type} {names : List String} {fields : List (String × α)}
    (h : (fields.map Prod.fst).Nodup) :
  Fields.ofNamed? names (fields.map fun (n, a) => (name n, a))
    = some ⟨true, fields.filter fun (n, _) => names.contains n⟩
  := by
  rw [Fields.ofNamed?, mapM_unescape?, Option.bind_eq_bind, Option.bind_some, if_pos]
  apply List.Nodup.sublist (List.filter_sublist.map Prod.fst) h

/-- A record whose fields are all asked for is read back. -/
theorem fields?_record {names : List String} {fields : List (String × Json)}
    (hasked : ∀ f ∈ fields, f.1 ∈ names) (hdistinct : (fields.map Prod.fst).Nodup) :
  (record fields).fields? names = some ⟨true, fields⟩
  := by
  rw [record, fields?, ofNamed?_names hdistinct, List.filter_eq_self.mpr]
  intro f hf
  exact List.contains_iff_mem.mpr (hasked f hf)

/-- The tag of an object is read, and of its other fields those that are asked for. -/
theorem Tagged.ofNamed?_names {α : Type} (tag : α) {fields : List (String × α)}
    (h : ((("type", tag) :: fields).map Prod.fst).Nodup) :
  ∃ t : Tagged α, Tagged.ofNamed? ((("type", tag) :: fields).map fun (n, a) => (name n, a))
      = some t
    ∧ t.tag = tag ∧ ∀ names : List String, "type" ∉ names →
      t.fields? names = some ⟨true, fields.filter fun (n, _) => names.contains n⟩
  := by
  have htag : (("type", tag) :: fields).filter (fun (n, _) => ["type"].contains n)
      = [("type", tag)] := by
    rw [List.filter_cons_of_pos (by simp), List.filter_eq_nil_iff.mpr]
    intro f hf
    have hne : f.1 ≠ "type" := by
      rintro heq
      apply (List.nodup_cons.mp h).1
      rw [← heq]
      apply List.mem_map_of_mem hf
    simpa using hne
  refine ⟨⟨tag, fun names =>
    Fields.ofNamed? names ((("type", tag) :: fields).map fun (n, a) => (name n, a))⟩, ?_, rfl, ?_⟩
  · rw [Tagged.ofNamed?, Json.ofNamed?_names h, htag, Option.bind_eq_bind, Option.bind_some,
      Fields.required, List.lookup_cons_self]
    rfl
  · intro names hnames
    dsimp only
    rw [Json.ofNamed?_names h, List.filter_cons_of_neg]
    simpa using hnames

namespace Fields

variable {α β : Type} {named : Bool} {name other : String} {a : α} {fields : List (String × α)}
  {read : α → Option β}

@[simp]
theorem required_cons_self :
  (Fields.mk named ((name, a) :: fields)).required name read = read a
  := by
  rw [required, List.lookup_cons_self]
  rfl

@[simp]
theorem required_cons_of_ne (h : name ≠ other) :
  (Fields.mk named ((other, a) :: fields)).required name read
    = (Fields.mk named fields).required name read
  := by
  rw [required, List.lookup_cons, beq_eq_false_iff_ne.mpr h]
  rfl

@[simp]
theorem withDefault_cons_self (default : β) :
  (Fields.mk named ((name, a) :: fields)).withDefault name read default = read a
  := by
  rw [withDefault, List.lookup_cons_self]

@[simp]
theorem withDefault_cons_of_ne (h : name ≠ other) (default : β) :
  (Fields.mk named ((other, a) :: fields)).withDefault name read default
    = (Fields.mk named fields).withDefault name read default
  := by
  rw [withDefault, List.lookup_cons, beq_eq_false_iff_ne.mpr h]
  rfl

@[simp]
theorem withDefault_nil (default : β) :
  (Fields.mk named ([] : List (String × α))).withDefault name read default = some default
  := rfl

@[simp]
theorem nullable_cons_self {read : Json → Option β} {j : Json} {fields : List (String × Json)} :
  (Fields.mk named ((name, j) :: fields)).nullable name read = j.nullable? read
  := by
  rw [nullable, List.lookup_cons_self]

@[simp]
theorem nullable_cons_of_ne (h : name ≠ other) {read : Json → Option β} {j : Json}
    {fields : List (String × Json)} :
  (Fields.mk named ((other, j) :: fields)).nullable name read
    = (Fields.mk named fields).nullable name read
  := by
  rw [nullable, List.lookup_cons, beq_eq_false_iff_ne.mpr h]
  rfl

end Fields

/-! ### Characters -/

namespace Reader

theorem run_append (r : Reader) (l l' : List Char) :
  r.run (l ++ l') = (r.run l).bind fun r => r.run l'
  := List.foldlM_append

theorem run_cons (r : Reader) (c : Char) (l : List Char) :
  r.run (c :: l) = (r.step c).bind fun r => r.run l
  := List.foldlM_cons

end Reader

/-- The characters between the quotes of a string, which a reader takes one after another. -/
def Quotable (l : List Char) : Prop :=
  ∀ chars b, Reader.run ⟨.string chars, b⟩ l = some ⟨.string (l.reverse ++ chars), b⟩

theorem Quotable.append {l l' : List Char} (h : Quotable l) (h' : Quotable l') :
  Quotable (l ++ l')
  := by
  intro chars b
  rw [Reader.run_append, h, Option.bind_some, h', List.reverse_append, List.append_assoc]

/-- The hexadecimal digits of a control are digits. -/
theorem hexValue?_hexDigit :
  ∀ n < 32, (hexValue? (hexDigit (n / 16))).isSome ∧ (hexValue? (hexDigit (n % 16))).isSome
  := by
  decide

theorem quotable_escapeChar (c : Char) :
  Quotable (escapeChar c)
  := by
  intro chars b
  rcases escapeChar_cases c with ⟨letter, hletter, h⟩ | ⟨hc, h⟩ | ⟨hquote, hbackslash, hc, h⟩
  · have hu : letter ≠ 'u' := by
      rintro rfl
      cases hletter
    rw [h]
    simp [Reader.run, Reader.step, hu, hletter]
  · obtain ⟨hhigh, hlow⟩ := hexValue?_hexDigit _ hc
    have hzero : (hexValue? '0').isSome := rfl
    rw [h]
    simp [Reader.run, Reader.step, Option.ne_none_iff_isSome.mpr, hhigh, hlow, hzero]
  · rw [h]
    simp [Reader.run, Reader.step, hquote, hbackslash, hc]

theorem quotable_escape (l : List Char) :
  Quotable (escape l)
  := by
  induction l with
  | nil => exact fun _ _ => rfl
  | cons c l ih =>
    rw [escape, List.flatMap_cons]
    exact (quotable_escapeChar c).append ih

theorem escapeChar_of_isDigit {c : Char} (h : c.isDigit = true) :
  escapeChar c = [c]
  := by
  have hne {d : Char} (hd : d.isDigit = false) : c ≠ d := by
    rintro rfl
    rw [h] at hd
    cases hd
  have hcontrol : ¬c.toNat < 0x20 := by
    rw [Char.isDigit, Bool.and_eq_true, decide_eq_true_eq, decide_eq_true_eq] at h
    exact Nat.not_lt.mpr (Nat.le_trans (by decide) h.1)
  rw [escapeChar, if_neg (hne rfl), if_neg (hne rfl), if_neg (hne rfl), if_neg (hne rfl),
    if_neg (hne rfl), if_neg (hne rfl), if_neg (hne rfl), if_neg hcontrol]

theorem quotable_decimal (n : Nat) :
  Quotable (Text.decimal n)
  := by
  have hescape : escape (Text.decimal n) = Text.decimal n := by
    rw [escape, List.flatMap_congr fun c hc =>
      escapeChar_of_isDigit (Text.isDigit_of_mem_decimal hc)]
    apply List.flatMap_singleton'
  rw [← hescape]
  apply quotable_escape

/-! ### Values -/

/-- A value of integers and of strings that can be written. -/
inductive Written : Json → Prop where
  | null : Written .null
  | bool (b : Bool) : Written (.bool b)
  | integer (i : Int) : Written (integer i)
  | string {l : List Char} (h : Quotable l) : Written (.string l)
  | array {items : List Json} (h : ∀ j ∈ items, Written j) : Written (.array items)
  | object {fields : List (List Char × Json)} (hnames : ∀ f ∈ fields, Quotable f.1)
      (h : ∀ f ∈ fields, Written f.2) : Written (.object fields)

theorem written_natural (n : Nat) :
  Written (natural n)
  := natural_eq_integer n ▸ .integer n

theorem written_record {fields : List (String × Json)} (h : ∀ f ∈ fields, Written f.2) :
  Written (record fields)
  := by
  apply Written.object
  · intro f hf
    obtain ⟨f, -, rfl⟩ := List.mem_map.mp hf
    apply quotable_escape
  · intro f hf
    obtain ⟨field, hfield, rfl⟩ := List.mem_map.mp hf
    apply h field hfield

/-- A value may stand where a builder is. -/
def Builder.AwaitsValue (b : Builder) : Prop :=
  b.awaiting = .value ∨ b.awaiting = .firstItem

/-- What a builder that awaits a value does with the tokens that begin one. -/
theorem Builder.AwaitsValue.step_eq {b : Builder} (h : b.AwaitsValue) :
  (∀ j, b.step (.scalar j) = accept b.stack j)
    ∧ b.step .openArray = some ⟨.array [] :: b.stack, .firstItem⟩
    ∧ b.step .openObject = some ⟨.object [] :: b.stack, .firstName⟩
  := by
  obtain ⟨stack, awaiting⟩ := b
  rcases h with rfl | rfl
  · exact ⟨fun _ => rfl, rfl, rfl⟩
  · rcases stack with _ | ⟨_ | _ | _, _⟩
    all_goals exact ⟨fun _ => rfl, rfl, rfl⟩

/-- The builder that a reader comes to when the token ends at which it stands. -/
def Reader.Settles (r : Reader) (b : Builder) : Prop :=
  match r.lexer with
  | .between => r.builder = b
  | .bare chars => Reader.settle r.builder chars = some b
  | _ => False

theorem Reader.Settles.step {r : Reader} {b : Builder} (h : r.Settles b) {c : Char}
    (hc : Reader.endsBare c = true) :
  r.step c = Reader.fresh b c
  := by
  obtain ⟨lexer, builder⟩ := r
  cases lexer with
  | between =>
    obtain rfl : builder = b := h
    rfl
  | bare chars =>
    have hsettle : Reader.settle builder chars = some b := h
    rw [Reader.step]
    dsimp only
    rw [if_pos hc, hsettle]
    rfl
  | _ => exact h.elim

/-- Characters are read as a value wherever a value may stand. -/
def Reads (l : List Char) (j : Json) : Prop :=
  ∀ b b' : Builder, b.AwaitsValue → Builder.accept b.stack j = some b' →
    ∃ r, Reader.run ⟨.between, b⟩ l = some r ∧ r.Settles b'

theorem Reader.run_bare (b : Builder) (chars : List Char) {l : List Char}
    (hl : ∀ c ∈ l, Reader.endsBare c = false) :
  Reader.run ⟨.bare chars, b⟩ l = some ⟨.bare (l.reverse ++ chars), b⟩
  := by
  induction l generalizing chars with
  | nil => rfl
  | cons c l ih =>
    have hstep : Reader.step ⟨.bare chars, b⟩ c = some ⟨.bare (c :: chars), b⟩ :=
      if_neg (Bool.eq_false_iff.mp (hl c List.mem_cons_self))
    rw [Reader.run_cons, hstep, Option.bind_some, ih _ fun d hd => hl d (List.mem_cons_of_mem c hd),
      List.reverse_cons, List.append_assoc]
    rfl

theorem Reader.fresh_bare (b : Builder) {c : Char} (hc : Reader.endsBare c = false) :
  Reader.fresh b c = some ⟨.bare [c], b⟩
  := by
  simp only [Reader.endsBare, Bool.or_eq_false_iff, beq_eq_false_iff_ne] at hc
  obtain ⟨⟨hgap, hmark⟩, hquote⟩ := hc
  rw [Reader.fresh, if_neg (Bool.eq_false_iff.mp hgap),
    Option.not_isSome_iff_eq_none.mp (Bool.eq_false_iff.mp hmark)]
  dsimp only
  rw [if_neg hquote]

/-- A run of bare characters is read as the value that it writes. -/
theorem reads_bare {c : Char} {l : List Char} {j : Json}
    (hbare : ∀ d ∈ c :: l, Reader.endsBare d = false) (hj : ofBare? (c :: l) = some j) :
  Reads (c :: l) j
  := by
  intro b b' hb hb'
  have hfirst : Reader.step ⟨.between, b⟩ c = some ⟨.bare [c], b⟩ :=
    Reader.fresh_bare b (hbare c List.mem_cons_self)
  refine ⟨⟨.bare (l.reverse ++ [c]), b⟩, ?_, ?_⟩
  · rw [Reader.run_cons, hfirst, Option.bind_some,
      Reader.run_bare b [c] fun d hd => hbare d (List.mem_cons_of_mem c hd)]
  · change Reader.settle b (l.reverse ++ [c]) = some b'
    rw [Reader.settle, ← List.reverse_cons, List.reverse_reverse, hj]
    exact (hb.step_eq.1 j).trans hb'

theorem endsBare_of_isDigit {c : Char} (h : c.isDigit = true) :
  Reader.endsBare c = false
  := by
  have hne {d : Char} (hd : d.isDigit = false) : (c == d) = false := by
    rw [beq_eq_false_iff_ne]
    rintro rfl
    rw [h] at hd
    cases hd
  have hmark : mark? c = none := by
    unfold mark?
    split
    all_goals first | rfl | exact absurd h (by decide)
  rw [Reader.endsBare, isGap, hne rfl, hne rfl, hne rfl, hne rfl, hmark, hne rfl]
  rfl

theorem ofBare?_of_isNumeral {l : List Char} (h : isNumeral l = true) :
  ofBare? l = some (.numeral l)
  := by
  have hne {l' : List Char} (hl' : isNumeral l' = false) : l ≠ l' := by
    rintro rfl
    rw [h] at hl'
    cases hl'
  rw [ofBare?, if_neg (hne rfl), if_neg (hne rfl), if_neg (hne rfl), if_pos h]

/-- The digits of a number may stand without quotes. -/
theorem ofBare?_decimal (n : Nat) :
  ofBare? (Text.decimal n) = some (natural n)
  := by
  have hinteger : Text.decimal n = Text.decimalInt n :=
    Json.numeral.inj (natural_eq_integer n)
  apply ofBare?_of_isNumeral
  rw [hinteger]
  apply isNumeral_decimalInt

theorem reads_integer (i : Int) :
  Reads (compactChars (integer i)) (integer i)
  := by
  change Reads (Text.decimalInt i) (integer i)
  have hbare : ∀ c ∈ Text.decimalInt i, Reader.endsBare c = false := by
    intro c hc
    rw [Text.decimalInt] at hc
    split at hc
    · rcases List.mem_cons.mp hc with rfl | hc
      · rfl
      · exact endsBare_of_isDigit (Text.isDigit_of_mem_decimal hc)
    · exact endsBare_of_isDigit (Text.isDigit_of_mem_decimal hc)
  have hvalue := ofBare?_of_isNumeral (isNumeral_decimalInt i)
  cases h : Text.decimalInt i with
  | nil =>
    rw [h] at hvalue
    cases hvalue
  | cons c l =>
    rw [h] at hbare hvalue
    rw [integer, h]
    exact reads_bare hbare hvalue

/-- A string is read from its first quote to its last. -/
theorem run_string {l : List Char} (h : Quotable l) {b b' : Builder}
    (hb : b.step (.scalar (.string l)) = some b') (rest : List Char) :
  Reader.run ⟨.between, b⟩ (inQuotes l ++ rest) = Reader.run ⟨.between, b'⟩ rest
  := by
  have hopen : Reader.step ⟨.between, b⟩ '"' = some ⟨.string [], b⟩ := rfl
  have hclose : Reader.step ⟨.string l.reverse, b⟩ '"' = some ⟨.between, b'⟩ := by
    rw [Reader.step]
    dsimp only
    rw [if_pos rfl, List.reverse_reverse, hb]
    rfl
  rw [inQuotes, List.cons_append, List.cons_append, List.append_assoc, Reader.run_cons, hopen,
    Option.bind_some, Reader.run_append, h, List.append_nil, Option.bind_some, List.cons_append,
    Reader.run_cons, hclose]
  rfl

theorem reads_string {l : List Char} (h : Quotable l) :
  Reads (inQuotes l) (.string l)
  := by
  intro b b' hb hb'
  refine ⟨⟨.between, b'⟩, ?_, rfl⟩
  rw [← List.append_nil (inQuotes l), run_string h ((hb.step_eq.1 _).trans hb')]
  rfl

/-- A mark between tokens is a token of its own. -/
theorem Reader.Settles.run_mark {r : Reader} {b b' : Builder} (h : r.Settles b) {c : Char}
    {t : Token} (ht : mark? c = some t) (hgap : isGap c = false) (hb : b.step t = some b')
    (rest : List Char) :
  r.run (c :: rest) = Reader.run ⟨.between, b'⟩ rest
  := by
  have hc : Reader.endsBare c = true := by
    rw [Reader.endsBare, ht]
    simp
  have hstep : Reader.fresh b c = some ⟨.between, b'⟩ := by
    rw [Reader.fresh, if_neg (Bool.eq_false_iff.mp hgap), ht]
    dsimp only
    rw [hb]
    rfl
  rw [Reader.run_cons, h.step hc, hstep]
  rfl

/-- The items after the first one are read one after another, each after a comma. -/
theorem run_items {items : List Json} (h : ∀ j ∈ items, Reads (compactChars j) j)
    {before : List Json} {stack : List Container} {b : Builder}
    (hb : Builder.accept stack (.array (before.reverse ++ items)) = some b) {r : Reader}
    (hr : r.Settles ⟨.array before :: stack, .separator⟩) :
  r.run (compactItems false items ++ [']']) = some ⟨.between, b⟩
  := by
  induction items generalizing before r with
  | nil =>
    rw [List.append_nil] at hb
    exact hr.run_mark (t := .closeArray) rfl rfl hb []
  | cons j items ih =>
    obtain ⟨r', hrun, hr'⟩ :=
      h j List.mem_cons_self ⟨.array before :: stack, .value⟩ _ (.inl rfl) rfl
    have hcomma : compactItems false (j :: items) ++ [']']
        = ',' :: (compactChars j ++ (compactItems false items ++ [']'])) := by
      rw [compactItems, if_neg Bool.false_ne_true]
      simp
    rw [hcomma, hr.run_mark rfl rfl rfl, Reader.run_append, hrun, Option.bind_some]
    apply ih (fun j' hj' => h j' (List.mem_cons_of_mem j hj')) _ hr'
    rw [← hb, List.reverse_cons, List.append_assoc]
    rfl

theorem reads_array {items : List Json} (h : ∀ j ∈ items, Reads (compactChars j) j) :
  Reads (compactChars (.array items)) (.array items)
  := by
  intro b b' hb hb'
  have hstart : Reader.Settles ⟨.between, b⟩ b := rfl
  refine ⟨⟨.between, b'⟩, ?_, rfl⟩
  rw [compactChars, List.cons_append, hstart.run_mark rfl rfl hb.step_eq.2.1]
  cases items with
  | nil =>
    have hclose : Reader.Settles ⟨.between, ⟨.array [] :: b.stack, .firstItem⟩⟩
      ⟨.array [] :: b.stack, .firstItem⟩ := rfl
    exact hclose.run_mark (t := .closeArray) rfl rfl hb' []
  | cons j items =>
    obtain ⟨r, hrun, hr⟩ :=
      h j List.mem_cons_self ⟨.array [] :: b.stack, .firstItem⟩ _ (.inr rfl) rfl
    rw [compactItems, if_pos rfl, List.nil_append, List.append_assoc, Reader.run_append, hrun,
      Option.bind_some]
    exact run_items (fun j' hj' => h j' (List.mem_cons_of_mem j hj')) hb' hr

/-- A name and the colon after it are read in an object. -/
theorem run_name {n : List Char} (h : Quotable n) {before : List (List Char × Json)}
    {stack : List Container} {awaiting : Awaiting}
    (ha : awaiting = .name ∨ awaiting = .firstName) (rest : List Char) :
  Reader.run ⟨.between, ⟨.object before :: stack, awaiting⟩⟩ (inQuotes n ++ ':' :: rest)
    = Reader.run ⟨.between, ⟨.field before n :: stack, .value⟩⟩ rest
  := by
  have hname : Builder.step ⟨.object before :: stack, awaiting⟩ (.scalar (.string n))
      = some ⟨.object before :: stack, .colon n⟩ := by
    rcases ha with rfl | rfl <;> rfl
  have hcolon : Reader.Settles ⟨.between, ⟨.object before :: stack, .colon n⟩⟩
      ⟨.object before :: stack, .colon n⟩ := rfl
  rw [run_string h hname]
  exact hcolon.run_mark (t := .colon) rfl rfl rfl rest

/-- The fields after the first one are read one after another, each after a comma. -/
theorem run_fields {fields : List (List Char × Json)} (hnames : ∀ f ∈ fields, Quotable f.1)
    (h : ∀ f ∈ fields, Reads (compactChars f.2) f.2) {before : List (List Char × Json)}
    {stack : List Container} {b : Builder}
    (hb : Builder.accept stack (.object (before.reverse ++ fields)) = some b) {r : Reader}
    (hr : r.Settles ⟨.object before :: stack, .separator⟩) :
  r.run (compactFields false fields ++ ['\x7d']) = some ⟨.between, b⟩
  := by
  induction fields generalizing before r with
  | nil =>
    rw [List.append_nil] at hb
    exact hr.run_mark (t := .closeObject) rfl rfl hb []
  | cons f fields ih =>
    obtain ⟨r', hrun, hr'⟩ :=
      h f List.mem_cons_self ⟨.field before f.1 :: stack, .value⟩ _ (.inl rfl) rfl
    have hcomma : compactFields false (f :: fields) ++ ['\x7d']
        = ',' :: (inQuotes f.1 ++ ':'
          :: (compactChars f.2 ++ (compactFields false fields ++ ['\x7d']))) := by
      rw [compactFields, if_neg Bool.false_ne_true]
      simp
    rw [hcomma, hr.run_mark rfl rfl rfl, run_name (hnames f List.mem_cons_self) (.inl rfl),
      Reader.run_append, hrun, Option.bind_some]
    apply ih (fun f' hf' => hnames f' (List.mem_cons_of_mem f hf'))
      (fun f' hf' => h f' (List.mem_cons_of_mem f hf')) _ hr'
    rw [← hb, List.reverse_cons, List.append_assoc]
    rfl

theorem reads_object {fields : List (List Char × Json)} (hnames : ∀ f ∈ fields, Quotable f.1)
    (h : ∀ f ∈ fields, Reads (compactChars f.2) f.2) :
  Reads (compactChars (.object fields)) (.object fields)
  := by
  intro b b' hb hb'
  have hstart : Reader.Settles ⟨.between, b⟩ b := rfl
  refine ⟨⟨.between, b'⟩, ?_, rfl⟩
  rw [compactChars, List.cons_append, hstart.run_mark rfl rfl hb.step_eq.2.2]
  cases fields with
  | nil =>
    have hclose : Reader.Settles ⟨.between, ⟨.object [] :: b.stack, .firstName⟩⟩
      ⟨.object [] :: b.stack, .firstName⟩ := rfl
    exact hclose.run_mark (t := .closeObject) rfl rfl hb' []
  | cons f fields =>
    obtain ⟨r, hrun, hr⟩ :=
      h f List.mem_cons_self ⟨.field [] f.1 :: b.stack, .value⟩ _ (.inl rfl) rfl
    have hfirst : compactFields true (f :: fields) ++ ['\x7d']
        = inQuotes f.1 ++ ':'
          :: (compactChars f.2 ++ (compactFields false fields ++ ['\x7d'])) := by
      rw [compactFields, if_pos rfl]
      simp
    rw [hfirst, run_name (hnames f List.mem_cons_self) (.inr rfl), Reader.run_append, hrun,
      Option.bind_some]
    exact run_fields (fun f' hf' => hnames f' (List.mem_cons_of_mem f hf'))
      (fun f' hf' => h f' (List.mem_cons_of_mem f hf')) hb' hr

/-- A written value is read from its characters wherever a value may stand. -/
theorem Written.reads {j : Json} (h : Written j) :
  Reads (compactChars j) j
  := by
  have hbare {c : Char} {l : List Char} (h : (c :: l).all (!Reader.endsBare ·) = true) :
      ∀ d ∈ c :: l, Reader.endsBare d = false := by simpa using h
  induction h with
  | null =>
    have hchars : compactChars .null = ['n', 'u', 'l', 'l'] := by decide
    rw [hchars]
    apply reads_bare (hbare (by decide))
    simp [ofBare?]
  | bool b =>
    cases b with
    | true =>
      have hchars : compactChars (.bool true) = ['t', 'r', 'u', 'e'] := by decide
      rw [hchars]
      apply reads_bare (hbare (by decide))
      simp [ofBare?]
    | false =>
      have hchars : compactChars (.bool false) = ['f', 'a', 'l', 's', 'e'] := by decide
      rw [hchars]
      apply reads_bare (hbare (by decide))
      simp [ofBare?]
  | integer i => exact reads_integer i
  | string h => exact reads_string h
  | array _ ih => exact reads_array ih
  | object hnames _ ih => exact reads_object hnames ih

/-- A written value is read back from its characters. -/
theorem Written.parse?_compactChars {j : Json} (h : Written j) :
  parse? (compactChars j) = some j
  := by
  obtain ⟨⟨lexer, builder⟩, hrun, hr⟩ := h.reads .start ⟨[], .nothing j⟩ (.inl rfl) rfl
  rw [parse?, Reader.start, hrun, Option.bind_eq_bind, Option.bind_some, Reader.finish]
  cases lexer with
  | between =>
    obtain rfl : builder = ⟨[], .nothing j⟩ := hr
    rfl
  | bare chars =>
    have hsettle : Reader.settle builder chars = some ⟨[], .nothing j⟩ := hr
    dsimp only
    rw [hsettle]
    rfl
  | _ => exact hr.elim

end Json

end Retrieval
