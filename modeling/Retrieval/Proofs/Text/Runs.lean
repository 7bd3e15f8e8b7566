import Retrieval.Encoding
import Retrieval.Proofs.Text.Place
import Retrieval.Text.Token
import Mathlib.Data.List.TakeWhile
import Mathlib.Order.Defs.Unbundled

/-!
# The longest runs of a text

A stretch of a text is some of its characters, one after another and none of them a blank, with the
place at which they stand. The tokens of a text are those of its longest stretches that are not too
long, in their order. A stretch is a longest one exactly if it has blanks or nothing on both sides
(`maximal_iff`), and `runs_append` says that the runs of a text are those of its two parts wherever a
blank ends the first part or begins the second one.

The tokens are found in one pass as well, in which only the place is kept at which the run that has
been begun starts. `walk` gives nothing if it cuts the text where it cannot be cut.
-/

namespace Retrieval.Text

variable {isSpace : Char → Bool} {text l l₁ l₂ rest : List Char} {n : Nat}

/-! ### Unbroken characters -/

/-- Some characters of which none is a blank. -/
structure Unbroken (isSpace : Char → Bool) (l : List Char) : Prop where
  ne_nil : l ≠ []
  isSpace_eq_false : ∀ c ∈ l, isSpace c = false

/-- A text ends in a blank, or what comes after it begins with one, where there is anything. -/
def Apart (isSpace : Char → Bool) (l₁ l₂ : List Char) : Prop :=
  (∀ c ∈ l₁.getLast?, isSpace c = true) ∨ ∀ c ∈ l₂.head?, isSpace c = true

theorem Unbroken.cons {c : Char} (hc : isSpace c = false) (h : Unbroken isSpace l) :
  Unbroken isSpace (c :: l)
  := ⟨List.cons_ne_nil c l, List.forall_mem_cons.mpr ⟨hc, h.isSpace_eq_false⟩⟩

theorem Unbroken.concat {c : Char} (hc : isSpace c = false) (h : Unbroken isSpace l) :
  Unbroken isSpace (l ++ [c])
  := by
  refine ⟨List.append_ne_nil_of_left_ne_nil h.ne_nil _, ?_⟩
  intro d hd
  obtain hd | hd := List.mem_append.mp hd
  · exact h.isSpace_eq_false d hd
  · rwa [List.mem_singleton.mp hd]

theorem Apart.tail {c : Char} (h : Apart isSpace (c :: l₁) l₂) :
  Apart isSpace l₁ l₂
  := by
  refine h.imp_left fun h d hd => h d ?_
  rw [List.getLast?_cons, Option.mem_def.mp hd]
  rfl

/-- Nothing but blanks can be the end of a text that ends in a blank. -/
theorem eq_nil_of_getLast?_append (hblank : ∀ c ∈ (l₁ ++ l).getLast?, isSpace c = true)
    (h : ∀ c ∈ l, isSpace c = false) :
  l = []
  := by
  rw [← List.getLast?_eq_none_iff, Option.eq_none_iff_forall_not_mem]
  intro c hc
  have hspace := hblank c (by rw [List.getLast?_append, Option.mem_def.mp hc]; rfl)
  rw [h c (List.mem_of_getLast? hc)] at hspace
  cases hspace

/-- Nothing but blanks can be the beginning of a text that begins with a blank. -/
theorem eq_nil_of_head?_append (hblank : ∀ c ∈ (l ++ l₂).head?, isSpace c = true)
    (h : ∀ c ∈ l, isSpace c = false) :
  l = []
  := by
  rw [← List.head?_eq_none_iff, Option.eq_none_iff_forall_not_mem]
  intro c hc
  have hspace := hblank c (by rw [List.head?_append, Option.mem_def.mp hc]; rfl)
  rw [h c (List.mem_of_head? hc)] at hspace
  cases hspace

/-- What holds of the empty text, and of a text with a blank or with unbroken characters in front if it
holds of the text, holds of every text. -/
theorem rec_unbroken (isSpace : Char → Bool) {p : List Char → Prop} (nil : p [])
    (blank : ∀ c l, isSpace c = true → p l → p (c :: l))
    (unbroken : ∀ l rest, Unbroken isSpace l → (∀ c ∈ rest.head?, isSpace c = true) → p rest →
      p (l ++ rest))
    (l : List Char) :
  p l
  := by
  induction hlength : l.length using Nat.strongRecOn generalizing l with
  | ind k ih =>
    subst hlength
    cases l with
    | nil => exact nil
    | cons c l =>
      cases hc : isSpace c with
      | true => exact blank c l hc (ih _ (Nat.lt_succ_self _) l rfl)
      | false =>
        have hfront : Unbroken isSpace (c :: l.takeWhile fun c => !isSpace c) := by
          refine ⟨List.cons_ne_nil _ _, List.forall_mem_cons.mpr ⟨hc, ?_⟩⟩
          intro d hd
          simpa using List.mem_takeWhile_imp hd
        have hrest : ∀ d ∈ (l.dropWhile fun c => !isSpace c).head?, isSpace d = true := by
          intro d hd
          have hstop := List.head?_dropWhile_not (fun c => !isSpace c) l
          rw [Option.mem_def.mp hd] at hstop
          simpa using hstop
        rw [← List.takeWhile_append_dropWhile (p := fun c => !isSpace c) (l := l), ← List.cons_append]
        apply unbroken _ _ hfront hrest
        apply ih _ (Nat.lt_succ_of_le (List.dropWhile_suffix _).length_le) _ rfl

namespace Token

/-! ### The runs of parts of a text -/

/-- A character before runs that do not follow it at once is a run of its own. -/
theorem cons_of_apart {c : Char} {runs : List Token}
    (h : ∀ t ∈ runs, t.start ≠ n + c.utf8Size) :
  cons n c runs = ⟨n, [c]⟩ :: runs
  := by
  cases runs with
  | nil => rfl
  | cons run runs => exact if_neg (h run List.mem_cons_self)

/-- Only the first of the runs is joined by a character. -/
theorem cons_append {c : Char} {runs more : List Token} (h : runs ≠ []) :
  cons n c (runs ++ more) = cons n c runs ++ more
  := by
  obtain ⟨run, runs, rfl⟩ := List.exists_cons_of_ne_nil h
  rw [List.cons_append, cons, cons]
  split <;> rfl

theorem start_of_mem_cons {c : Char} {runs : List Token} {t : Token} (h : t ∈ cons n c runs) :
  t.start = n ∨ t ∈ runs
  := by
  cases runs with
  | nil =>
    rw [cons, List.mem_singleton] at h
    exact .inl (congrArg start h)
  | cons run runs =>
    rw [cons] at h
    split at h
    · obtain rfl | h := List.mem_cons.mp h
      · exact .inl rfl
      · exact .inr (List.mem_cons_of_mem run h)
    · obtain rfl | h := List.mem_cons.mp h
      · exact .inl rfl
      · exact .inr h

theorem le_start {t : Token} (h : t ∈ runs isSpace n l) :
  n ≤ t.start
  := by
  induction l generalizing n with
  | nil => cases h
  | cons c l ih =>
    rw [runs] at h
    split at h
    · apply Nat.le_of_add_right_le (ih h)
    · obtain h | h := start_of_mem_cons h
      · exact Nat.le_of_eq h.symm
      · apply Nat.le_of_add_right_le (ih h)

theorem runs_blank {c : Char} (hc : isSpace c = true) :
  runs isSpace n (c :: l) = runs isSpace (n + c.utf8Size) l
  := if_pos hc

theorem lt_start {t : Token} (hl : ∀ c ∈ l.head?, isSpace c = true) (h : t ∈ runs isSpace n l) :
  n < t.start
  := by
  cases l with
  | nil => cases h
  | cons c l =>
    rw [runs_blank (hl c rfl)] at h
    have hle := le_start h
    have hc := c.utf8Size_pos
    omega

/-- The runs of a text are those of its two parts, if no run goes from one into the other. -/
theorem runs_append (h : Apart isSpace l₁ l₂) :
  runs isSpace n (l₁ ++ l₂) = runs isSpace n l₁ ++ runs isSpace (n + byteLength l₁) l₂
  := by
  induction l₁ generalizing n with
  | nil => rfl
  | cons c l₁ ih =>
    rw [List.cons_append, runs, runs, ih h.tail, byteLength_cons, ← Nat.add_assoc]
    split
    · rfl
    next hc =>
      by_cases hempty : runs isSpace (n + c.utf8Size) l₁ = []
      · rw [hempty]
        -- The character is a run of its own: a blank comes after it, in the first part or the second.
        apply cons_of_apart
        intro t ht
        apply Nat.ne_of_gt
        cases l₁ with
        | nil =>
          obtain h | h := h
          · exact absurd (h c rfl) hc
          · apply lt_start h ht
        | cons d l₁ =>
          have hle := le_start ht
          have hd := d.utf8Size_pos
          rw [byteLength_cons] at hle
          omega
      · apply cons_append hempty

/-- Unbroken characters are one run. -/
theorem runs_unbroken (h : Unbroken isSpace l) :
  runs isSpace n l = [⟨n, l⟩]
  := by
  obtain ⟨hl, hspace⟩ := h
  induction l generalizing n with
  | nil => exact absurd rfl hl
  | cons c l ih =>
    obtain ⟨hc, hspace⟩ := List.forall_mem_cons.mp hspace
    rw [runs, hc, if_neg Bool.false_ne_true]
    cases l with
    | nil => rfl
    | cons d l =>
      rw [ih (List.cons_ne_nil d l) hspace]
      exact if_pos rfl

theorem runs_unbroken_append (h : Unbroken isSpace l) (hrest : ∀ c ∈ rest.head?, isSpace c = true) :
  runs isSpace n (l ++ rest) = ⟨n, l⟩ :: runs isSpace (n + byteLength l) rest
  := by
  rw [runs_append (.inr hrest), runs_unbroken h]
  rfl

/-! ### Longest stretches -/

/-- The place at which a token ends. -/
def stop (t : Token) : Nat :=
  t.start + byteLength t.chars

/-- A token lies within another one if its places do. -/
instance : LE Token :=
  ⟨fun t u => u.start ≤ t.start ∧ t.stop ≤ u.stop⟩

/-- The characters of a token are unbroken and stand in a text at its place. -/
structure IsStretch (isSpace : Char → Bool) (text : List Char) (t : Token) : Prop where
  unbroken : Unbroken isSpace t.chars
  stands : ∃ rest, At text t.start (t.chars ++ rest)

/-- A token divides a text, which starts at the place `n`, into what is before it, its unbroken
characters and what is after it, with blanks or nothing beside them. -/
structure Divides (isSpace : Char → Bool) (n : Nat) (text : List Char) (t : Token)
    (front rest : List Char) : Prop where
  eq_append : text = front ++ (t.chars ++ rest)
  start_eq : t.start = n + byteLength front
  unbroken : Unbroken isSpace t.chars
  front_blank : ∀ c ∈ front.getLast?, isSpace c = true
  rest_blank : ∀ c ∈ rest.head?, isSpace c = true

variable {t : Token} {front : List Char}

/-- With more text in front, a token still divides the text, if there was something in front of it or
what is in front now ends in a blank. -/
theorem Divides.append (h : Divides isSpace (n + byteLength l) text t front rest)
    (hfront : front ≠ [] ∨ ∀ c ∈ l.getLast?, isSpace c = true) :
  Divides isSpace n (l ++ text) t (l ++ front) rest
  where
  eq_append := by rw [h.eq_append, List.append_assoc]
  start_eq := by rw [h.start_eq, byteLength_append, Nat.add_assoc]
  unbroken := h.unbroken
  front_blank := by
    intro c hc
    rw [List.getLast?_append] at hc
    cases hlast : front.getLast? with
    | some d =>
      rw [hlast, Option.some_or, Option.mem_some_iff] at hc
      exact h.front_blank c (hc ▸ hlast)
    | none =>
      rw [hlast, Option.none_or] at hc
      obtain hfront | hfront := hfront
      · exact absurd (List.getLast?_eq_none_iff.mp hlast) hfront
      · exact hfront c hc
  rest_blank := h.rest_blank

/-- The runs of a text are the tokens that divide it. -/
theorem mem_runs_iff :
  t ∈ runs isSpace n text ↔ ∃ front rest, Divides isSpace n text t front rest
  := by
  constructor
  · intro ht
    -- By induction on the text, a blank or unbroken characters at a time.
    induction text using rec_unbroken isSpace generalizing n with
    | nil => cases ht
    | blank c l hc ih =>
      rw [runs_blank hc] at ht
      obtain ⟨front, rest, h⟩ := ih ht
      refine ⟨_, _, Divides.append (l := [c]) h (.inr ?_)⟩
      rintro d ⟨⟩
      exact hc
    | unbroken l rest hl hrest ih =>
      rw [runs_unbroken_append hl hrest] at ht
      obtain rfl | ht := List.mem_cons.mp ht
      · refine ⟨[], rest, rfl, rfl, hl, ?_, hrest⟩
        rintro c ⟨⟩
      · obtain ⟨front, rest, h⟩ := ih ht
        refine ⟨_, _, h.append (.inl ?_)⟩
        -- A token at the very start would begin with a blank.
        rintro rfl
        rw [h.eq_append] at hrest
        exact h.unbroken.ne_nil (eq_nil_of_head?_append hrest h.unbroken.isSpace_eq_false)
  · rintro ⟨front, rest, htext, hstart, hl, hfront, hrest⟩
    rw [htext, runs_append (.inl hfront), runs_unbroken_append hl hrest, ← hstart]
    apply List.mem_append_right
    apply List.mem_cons_self

/-- A character beside a longest stretch is a blank, since any other one would make it longer. -/
theorem exists_divides_of_maximal (h : Maximal (IsStretch isSpace text) t) :
  ∃ front rest, Divides isSpace 0 text t front rest
  := by
  obtain ⟨⟨hunbroken, rest, hat⟩, hmaximal⟩ := h
  obtain ⟨front, htext, hstart⟩ := at_iff.mp hat
  refine ⟨front, rest, htext, by rw [hstart, Nat.zero_add], hunbroken, ?_, ?_⟩
  · intro c hc
    rw [← Bool.not_eq_false]
    intro hspace
    obtain ⟨front, rfl⟩ := List.getLast?_eq_some_iff.mp hc
    rw [byteLength_append, byteLength_cons, byteLength_nil, Nat.add_zero] at hstart
    have hsize := c.utf8Size_pos
    have hlonger : IsStretch isSpace text ⟨byteLength front, c :: t.chars⟩ := by
      refine ⟨hunbroken.cons hspace, rest, at_iff.mpr ⟨front, ?_, rfl⟩⟩
      rw [htext, List.append_assoc]
      rfl
    have hstop : stop ⟨byteLength front, c :: t.chars⟩ = t.stop := by
      rw [stop, stop, hstart, byteLength_cons, Nat.add_assoc]
    have hle : t.start ≤ byteLength front :=
      (hmaximal hlonger ⟨hstart ▸ Nat.le_add_right _ _, Nat.le_of_eq hstop.symm⟩).1
    omega
  · intro c hc
    rw [← Bool.not_eq_false]
    intro hspace
    obtain ⟨rest, rfl⟩ := List.head?_eq_some_iff.mp hc
    have hsize := c.utf8Size_pos
    have hlonger : IsStretch isSpace text ⟨t.start, t.chars ++ [c]⟩ := by
      refine ⟨hunbroken.concat hspace, rest, ?_⟩
      rwa [List.append_assoc]
    have hstop : stop ⟨t.start, t.chars ++ [c]⟩ = t.stop + c.utf8Size := by
      rw [stop, stop, byteLength_append, ← Nat.add_assoc]
      rfl
    have hle := (hmaximal hlonger ⟨Nat.le_refl _, hstop ▸ Nat.le_add_right _ _⟩).2
    omega

/-- A token that divides a text lies within no stretch but itself. -/
theorem Divides.eq_of_le {u : Token} (h : Divides isSpace 0 text t front rest)
    (hu : IsStretch isSpace text u) (hle : t ≤ u) :
  u = t
  := by
  obtain ⟨htext, hstart, -, hfront, hrest⟩ := h
  obtain ⟨⟨-, hspace⟩, urest, hat⟩ := hu
  obtain ⟨ufront, hutext, hustart⟩ := at_iff.mp hat
  obtain ⟨hlestart, hlestop⟩ := hle
  rw [Nat.zero_add] at hstart
  rw [stop, stop] at hlestop
  -- What the stretch has more stands at the end of `front` and at the start of `rest`.
  obtain ⟨before, rfl, hbefore⟩ :=
    exists_of_append_eq (hutext.symm.trans htext) (by rwa [← hustart, ← hstart])
  rw [byteLength_append] at hstart
  obtain ⟨chars, hchars, hafter⟩ := exists_of_append_eq hbefore.symm (by omega)
  rw [hchars, byteLength_append] at hlestop
  obtain ⟨after, rfl, rfl⟩ := exists_of_append_eq hafter (by omega)
  rw [hchars] at hspace
  obtain rfl : before = [] := by
    apply eq_nil_of_getLast?_append hfront
    intro c hc
    exact hspace c (List.mem_append_left _ hc)
  obtain rfl : after = [] := by
    apply eq_nil_of_head?_append hrest
    intro c hc
    exact hspace c (List.mem_append_right _ (List.mem_append_right _ hc))
  rw [List.nil_append, List.append_nil] at hchars
  have hstarts : u.start = t.start := hustart.trans hstart.symm
  calc
    u = ⟨u.start, u.chars⟩ := rfl
    _ = t := by rw [hstarts, hchars]

/-- The stretches of a text that lie within no other stretch are the tokens that divide it. -/
theorem maximal_iff :
  Maximal (IsStretch isSpace text) t ↔ ∃ front rest, Divides isSpace 0 text t front rest
  := by
  constructor
  · exact exists_divides_of_maximal
  · rintro ⟨front, rest, h⟩
    refine ⟨⟨h.unbroken, rest, at_iff.mpr ⟨front, h.eq_append, ?_⟩⟩, ?_⟩
    · rw [h.start_eq, Nat.zero_add]
    · intro u hu hle
      rw [h.eq_of_le hu hle]
      exact ⟨Nat.le_refl _, Nat.le_refl _⟩

/-- The runs of a text come one after another, with something between them. -/
theorem pairwise_runs :
  (runs isSpace n text).Pairwise fun t u => t.stop < u.start
  := by
  induction text using rec_unbroken isSpace generalizing n with
  | nil => exact .nil
  | blank c l hc ih =>
    rw [runs_blank hc]
    apply ih
  | unbroken l rest hl hrest ih =>
    rw [runs_unbroken_append hl hrest]
    apply List.pairwise_cons.mpr ⟨?_, ih⟩
    intro u hu
    apply lt_start hrest hu

end Token

/-! ### One pass -/

/-- Where one pass over a text is: its place, the place at which the run starts that has been begun, if
there is one, and the tokens found before. -/
structure Walk where
  place : Nat
  opened : Option Nat
  found : List Token

namespace Walk

/-- Ends the run that has been begun, if there is one. It is cut out of the text unless it is too
long. -/
def close (text : List Char) (w : Walk) : Option Walk :=
  match w.opened with
  | none => some w
  | some start =>
    if w.place - start ≤ Token.maxLength then do
      let chars ← sliceBytes? text start w.place
      return ⟨w.place, none, w.found ++ [⟨start, chars⟩]⟩
    else return ⟨w.place, none, w.found⟩

/-- Goes on by a character, which ends the run or begins one or belongs to it. -/
def step (isSpace : Char → Bool) (text : List Char) (w : Walk) (c : Char) : Option Walk := do
  let w ← if isSpace c then w.close text else some { w with opened := w.opened.or w.place }
  return { w with place := w.place + c.utf8Size }

/-- Goes on by all characters that are left, and ends the last run. -/
def toEnd (isSpace : Char → Bool) (text : List Char) (w : Walk) (rest : List Char) : Option Walk := do
  (← rest.foldlM (step isSpace text) w).close text

end Walk

/-- The tokens of a text, found in one pass. -/
def walk (isSpace : Char → Bool) (text : List Char) : Option (List Token) := do
  return (← Walk.toEnd isSpace text ⟨0, none, []⟩ text).found

namespace Walk

variable {opened : Option Nat} {found : List Token} {w w' : Walk} {c : Char}

theorem step_blank (hc : isSpace c = true) (hclose : w.close text = some w') :
  step isSpace text w c = some { w' with place := w'.place + c.utf8Size }
  := by
  rw [step, if_pos hc, hclose]
  rfl

theorem step_unbroken (hc : isSpace c = false) :
  step isSpace text w c
    = some { w with place := w.place + c.utf8Size, opened := w.opened.or (some w.place) }
  := by
  rw [step, hc, if_neg Bool.false_ne_true]
  rfl

theorem toEnd_cons (h : step isSpace text w c = some w') :
  toEnd isSpace text w (c :: l) = toEnd isSpace text w' l
  := by
  rw [toEnd, toEnd, List.foldlM_cons, h]
  rfl

/-- A run that is cut out of the text is a token, unless it is too long. -/
theorem close_at (h : At text n (l ++ rest)) :
  close text ⟨n + byteLength l, some n, found⟩
    = some ⟨n + byteLength l, none,
      found ++ [⟨n, l⟩].filter fun t => byteLength t.chars ≤ Token.maxLength⟩
  := by
  rw [close]
  simp only [Nat.add_sub_cancel_left, sliceBytes?_append h]
  by_cases hshort : byteLength l ≤ Token.maxLength
  · rw [if_pos hshort]
    simp [hshort]
  · rw [if_neg hshort]
    simp [hshort]

/-- Unbroken characters belong to the run that has been begun, or else begin one. -/
theorem foldlM_unbroken (h : Unbroken isSpace l) :
  l.foldlM (step isSpace text) ⟨n, opened, found⟩
    = some ⟨n + byteLength l, opened.or (some n), found⟩
  := by
  obtain ⟨hl, hspace⟩ := h
  induction l generalizing n opened with
  | nil => exact absurd rfl hl
  | cons c l ih =>
    obtain ⟨hc, hspace⟩ := List.forall_mem_cons.mp hspace
    rw [List.foldlM_cons, step_unbroken hc, Option.bind_eq_bind, Option.bind_some, byteLength_cons]
    by_cases hl : l = []
    · rw [hl]
      rfl
    · rw [ih hl hspace, Nat.add_assoc, Option.or_assoc, Option.some_or]

/-- Where a blank or the end comes next, the run can as well be ended beforehand. -/
theorem toEnd_of_close (hclose : w.close text = some ⟨n, none, found⟩)
    (hrest : ∀ c ∈ rest.head?, isSpace c = true) :
  toEnd isSpace text w rest = toEnd isSpace text ⟨n, none, found⟩ rest
  := by
  cases rest with
  | nil => exact hclose
  | cons c rest =>
    rw [toEnd_cons (step_blank (hrest c rfl) hclose), toEnd_cons (step_blank (hrest c rfl) rfl)]

/-- From a place between two runs, the runs that come after it are found. -/
theorem toEnd_eq (h : At text n l) :
  toEnd isSpace text ⟨n, none, found⟩ l
    = some ⟨n + byteLength l, none,
      found ++ (Token.runs isSpace n l).filter fun t => byteLength t.chars ≤ Token.maxLength⟩
  := by
  induction l using rec_unbroken isSpace generalizing n found with
  | nil =>
    rw [Token.runs, List.filter_nil, List.append_nil]
    rfl
  | blank c l hc ih =>
    rw [toEnd_cons (step_blank hc rfl), ih h.tail, Token.runs_blank hc, byteLength_cons,
      Nat.add_assoc]
  | unbroken l rest hl hrest ih =>
    have hbegin : toEnd isSpace text ⟨n, none, found⟩ (l ++ rest)
        = toEnd isSpace text ⟨n + byteLength l, some n, found⟩ rest := by
      rw [toEnd, toEnd, List.foldlM_append, foldlM_unbroken hl]
      rfl
    rw [hbegin, toEnd_of_close (close_at h) hrest, ih h.append, Token.runs_unbroken_append hl hrest,
      byteLength_append, Nat.add_assoc, List.append_assoc, ← List.filter_append]
    rfl

end Walk

theorem walk_eq (isSpace : Char → Bool) (text : List Char) :
  walk isSpace text = some (tokens isSpace text)
  := by
  rw [walk, Walk.toEnd_eq (.start text)]
  rfl

/-! ### Tokens -/

/-- The tokens of a text are its longest stretches without blanks. In every text and under every
encoding they are exactly the stretches of characters without blanks of the encoding that lie within no
other such stretch and take at most 128 bytes. They come in the order of the places where they start and
do not overlap: there is something between one and the next. In the bytes of the text, the bytes of a
token stand from its start to its end, and no character of it is a blank. One pass over the text finds
the same tokens and cuts each of them out where the text can be cut. -/
theorem tokens_longest (encoding : Encoding) (text : String) :
  let found := tokens encoding.isSpace text.toList
  (∀ t, t ∈ found ↔ Maximal (Token.IsStretch encoding.isSpace text.toList) t
      ∧ (encode (String.ofList t.chars)).length ≤ 128)
    ∧ (found.Pairwise fun t u => t.start < u.start ∧ t.stop < u.start)
    ∧ (∀ t ∈ found, (encode text).extract t.start t.stop = encode (String.ofList t.chars)
      ∧ ∀ c ∈ t.chars, encoding.isSpace c = false)
    ∧ walk encoding.isSpace text.toList = some found
  := by
  intro found
  have hmem : ∀ t, t ∈ found ↔ Maximal (Token.IsStretch encoding.isSpace text.toList) t
      ∧ (encode (String.ofList t.chars)).length ≤ 128 := by
    intro t
    rw [Token.maximal_iff, ← Token.mem_runs_iff, length_encode_ofList]
    simp only [found, tokens, List.mem_filter, decide_eq_true_eq]
    rfl
  refine ⟨hmem, ?_, ?_, walk_eq _ _⟩
  · apply List.Pairwise.filter
    apply Token.pairwise_runs.imp
    intro t u h
    exact ⟨Nat.lt_of_le_of_lt (Nat.le_add_right _ _) h, h⟩
  · intro t ht
    obtain ⟨⟨⟨-, hspace⟩, rest, hat⟩, -⟩ := ((hmem t).mp ht).1
    refine ⟨?_, hspace⟩
    have htext : encode text = bytesOf text.toList := by
      rw [← encode_ofList, String.ofList_toList]
    rw [htext, encode_ofList, List.extract_eq_take_drop, hat.drop_bytesOf, bytesOf_append, Token.stop,
      Nat.add_sub_cancel_left, ← length_bytesOf, List.take_left]

/-- A text with characters of several bytes, a wide blank, blanks at its start and a run at its end
that is too long by a byte. -/
theorem tokens_longest_wide :
  let text := String.ofList ("  né\t東京\u3000大阪 ".toList ++ List.replicate 129 'x')
  let found := tokens Encoding.utf8.isSpace text.toList
  found = [⟨2, ['n', 'é']⟩, ⟨6, ['東', '京']⟩, ⟨15, ['大', '阪']⟩]
    ∧ Maximal (Token.IsStretch Encoding.utf8.isSpace text.toList) ⟨6, ['東', '京']⟩
    ∧ (encode text).extract 6 12 = encode "東京"
    ∧ walk Encoding.utf8.isSpace text.toList = some found
  := by
  intro text found
  have hfound : found = [⟨2, ['n', 'é']⟩, ⟨6, ['東', '京']⟩, ⟨15, ['大', '阪']⟩] := by
    simp only [found, text, String.toList_ofList]
    decide +kernel
  have hmem : (⟨6, ['東', '京']⟩ : Token) ∈ found := by
    rw [hfound]
    decide
  obtain ⟨hlongest, -, hcut, hwalk⟩ := tokens_longest .utf8 text
  exact ⟨hfound, ((hlongest _).mp hmem).1, (hcut _ hmem).1, hwalk⟩

end Retrieval.Text
