import Retrieval.Text.Utf8

/-!
# Places in a text

A place in a text is a number of bytes from its start. The text can be cut where a character
starts and at the end, and nowhere else: `dropBytes?` and `sliceBytes?` give nothing at any other
place. `At text n rest` says that `rest` is the text from the place `n` on. The bytes of a
character that is not in ASCII are none of ASCII's, so a byte of ASCII is found in a text exactly
where the character is.
-/

namespace Retrieval.Text

/-! ### Cutting a text -/

/-- The text from a place on, if it can be cut there. -/
def dropBytes? : List Char → Nat → Option (List Char)
  | l, 0 => some l
  | [], _ + 1 => none
  | c :: l, n + 1 => if c.utf8Size ≤ n + 1 then dropBytes? l (n + 1 - c.utf8Size) else none

example : dropBytes? ['é', 'a'] 1 = none ∧ dropBytes? ['é', 'a'] 2 = some ['a'] := by decide

/-- The text between two places, if it can be cut at both. -/
def sliceBytes? (text : List Char) (m n : Nat) : Option (List Char) := do
  let fromFirst ← dropBytes? text m
  let fromSecond ← dropBytes? text n
  if m ≤ n then return fromFirst.take (fromFirst.length - fromSecond.length) else none

/-- The text has the given rest from a place on. -/
def At (text : List Char) (n : Nat) (rest : List Char) : Prop :=
  dropBytes? text n = some rest

variable {text l rest : List Char} {m n : Nat}

theorem At.start (text : List Char) :
  At text 0 text
  := by
  rw [At, dropBytes?]

/-- Beyond the first character the places are those of the text after it. -/
theorem at_cons_iff {c : Char} :
  At (c :: text) (c.utf8Size + n) rest ↔ At text n rest
  := by
  obtain ⟨k, hk⟩ : ∃ k, c.utf8Size + n = k + 1 :=
    Nat.exists_eq_add_one.mpr (Nat.add_pos_left c.utf8Size_pos n)
  rw [At, At, hk, dropBytes?, ← hk, if_pos (Nat.le_add_right _ _), Nat.add_sub_cancel_left]

/-- A place at which a text can be cut is its start, or lies beyond its first character. -/
theorem At.cases (h : At text n rest) :
  n = 0 ∧ rest = text ∨ ∃ c l k, text = c :: l ∧ n = c.utf8Size + k ∧ At l k rest
  := by
  unfold At at h
  fun_cases dropBytes? text n with
  | case1 l =>
    rw [dropBytes?] at h
    exact .inl ⟨rfl, (Option.some.inj h).symm⟩
  | case2 => cases h
  | case3 c l k hle =>
    rw [dropBytes?, if_pos hle] at h
    exact .inr ⟨c, l, _, rfl, (Nat.add_sub_cancel' hle).symm, h⟩
  | case4 c l k hle =>
    rw [dropBytes?, if_neg hle] at h
    cases h

/-- What holds at the start of a text, and of a text with one more character in front if it holds
of the text, holds wherever a text can be cut. -/
theorem At.rec_cons {p : List Char → Nat → Prop} (h : At text n rest) (hstart : p rest 0)
    (hcons : ∀ c l k, At l k rest → p l k → p (c :: l) (c.utf8Size + k)) :
  p text n
  := by
  induction text generalizing n with
  | nil =>
    rcases h.cases with ⟨rfl, rfl⟩ | ⟨c, l, k, heq, -, -⟩
    · exact hstart
    · cases heq
  | cons c l ih =>
    rcases h.cases with ⟨rfl, rfl⟩ | ⟨c, l, k, heq, rfl, hk⟩
    · exact hstart
    · cases heq
      exact hcons c l k hk (ih hk)

/-- Places in what comes after a place are counted from there. -/
theorem At.trans (h : At text m l) (h' : At l n rest) :
  At text (m + n) rest
  := by
  apply h.rec_cons (p := fun text m => At text (m + n) rest)
  · rwa [Nat.zero_add]
  · intro c l k _ ih
    rw [Nat.add_assoc]
    exact at_cons_iff.mpr ih

/-- After some characters a text can be cut. -/
theorem at_append (l rest : List Char) :
  At (l ++ rest) (byteLength l) rest
  := by
  induction l with
  | nil => exact .start rest
  | cons c l ih => exact at_cons_iff.mpr ih

/-- The text has a given rest from a place on exactly if the place is the length of what comes before
the rest. -/
theorem at_iff :
  At text n rest ↔ ∃ front, text = front ++ rest ∧ n = byteLength front
  := by
  constructor
  · intro h
    apply h.rec_cons (p := fun text n => ∃ front, text = front ++ rest ∧ n = byteLength front)
    · exact ⟨[], rfl, rfl⟩
    · rintro c l k - ⟨front, rfl, rfl⟩
      exact ⟨c :: front, rfl, rfl⟩
  · rintro ⟨front, rfl, rfl⟩
    apply at_append

theorem At.append (h : At text n (l ++ rest)) :
  At text (n + byteLength l) rest
  := h.trans (at_append l rest)

theorem At.tail {c : Char} (h : At text n (c :: rest)) :
  At text (n + c.utf8Size) rest
  := At.append (l := [c]) h

/-- A place is as far from the start as what comes after it takes up less. -/
theorem At.place (h : At text n rest) :
  n + byteLength rest = byteLength text
  := by
  apply h.rec_cons (p := fun text n => n + byteLength rest = byteLength text)
  · rw [Nat.zero_add]
  · intro c l k _ ih
    rw [byteLength_cons, ← ih, Nat.add_assoc]

/-- Of two beginnings of a text the longer one goes on from the shorter one. -/
theorem exists_of_append_eq {l₁ l₂ r₁ r₂ : List Char} (h : l₁ ++ r₁ = l₂ ++ r₂)
    (hle : byteLength l₁ ≤ byteLength l₂) :
  ∃ l, l₂ = l₁ ++ l ∧ r₁ = l ++ r₂
  := by
  obtain h | ⟨l, rfl, rfl⟩ := List.append_eq_append_iff.mp h
  · exact h
  · cases l with
    | nil => exact ⟨[], by simp, by simp⟩
    | cons c l =>
      have hc := c.utf8Size_pos
      rw [byteLength_append, byteLength_cons] at hle
      omega

theorem sliceBytes?_append (h : At text n (l ++ rest)) :
  sliceBytes? text n (n + byteLength l) = some l
  := by
  rw [sliceBytes?, h, h.append]
  simp

/-! ### Bytes -/

/-- The bytes of characters. -/
def bytesOf (l : List Char) : List UInt8 :=
  l.flatMap String.utf8EncodeChar

/-- The character with the number of a byte. -/
def charOfByte (b : UInt8) : Char :=
  Char.ofNat b.toNat

/-- The byte at a place, as the character with its number. -/
def byteAt? (text : List Char) (n : Nat) : Option Char :=
  (bytesOf text)[n]?.map charOfByte

theorem toNat_charOfByte (b : UInt8) :
  (charOfByte b).toNat = b.toNat
  := by
  have hlt := b.toNat_lt
  have hvalid : b.toNat.isValidChar := .inl (by omega)
  rw [charOfByte, Char.ofNat, dif_pos hvalid]
  rfl

/-- A character of ASCII is one byte, and one that is not has no bytes of ASCII. -/
theorem utf8EncodeChar_cases (c : Char) :
  c.toNat < 128 ∧ (String.utf8EncodeChar c).map charOfByte = [c]
    ∨ 128 ≤ c.toNat ∧ ∀ b ∈ String.utf8EncodeChar c, 128 ≤ (charOfByte b).toNat
  := by
  have hc : c.val.toNat = c.toNat := rfl
  by_cases hascii : c.toNat < 128
  · refine .inl ⟨hascii, ?_⟩
    rw [String.utf8EncodeChar, hc, if_pos (Nat.le_of_lt_succ hascii), List.map_singleton,
      charOfByte, UInt8.toNat_ofNat_of_lt' (Nat.lt_trans hascii (by decide)), Char.ofNat_toNat]
  · refine .inr ⟨Nat.le_of_not_lt hascii, fun b hb => ?_⟩
    rw [toNat_charOfByte]
    rw [String.utf8EncodeChar, hc, if_neg (by omega)] at hb
    split at hb
    · simp only [List.mem_cons, List.not_mem_nil, or_false] at hb
      rcases hb with rfl | rfl <;> rw [UInt8.toNat_ofNat'] <;> omega
    split at hb
    · simp only [List.mem_cons, List.not_mem_nil, or_false] at hb
      rcases hb with rfl | rfl | rfl <;> rw [UInt8.toNat_ofNat'] <;> omega
    · simp only [List.mem_cons, List.not_mem_nil, or_false] at hb
      rcases hb with rfl | rfl | rfl | rfl <;> rw [UInt8.toNat_ofNat'] <;> omega

theorem utf8Size_eq_one {c : Char} (h : c.toNat < 128) :
  c.utf8Size = 1
  := by
  have hc : c.val.toNat = c.toNat := rfl
  rw [Char.utf8Size_eq_one_iff, UInt32.le_iff_toNat_le, hc]
  exact Nat.le_of_lt_succ h

theorem bytesOf_cons (c : Char) (l : List Char) :
  bytesOf (c :: l) = String.utf8EncodeChar c ++ bytesOf l
  := rfl

theorem bytesOf_append (l₁ l₂ : List Char) :
  bytesOf (l₁ ++ l₂) = bytesOf l₁ ++ bytesOf l₂
  := List.flatMap_append

theorem length_bytesOf (l : List Char) :
  (bytesOf l).length = byteLength l
  := by
  induction l with
  | nil => rfl
  | cons c l ih =>
    rw [bytesOf_cons, List.length_append, String.length_utf8EncodeChar, ih, byteLength_cons]

/-- The bytes of a text are those of its characters. -/
theorem encode_ofList (l : List Char) :
  encode (String.ofList l) = bytesOf l
  := by
  rw [encode, bytesOf]
  change l.utf8Encode.data.toList = _
  rw [List.utf8Encode]
  simp

theorem length_encode_ofList (l : List Char) :
  (encode (String.ofList l)).length = byteLength l
  := by
  rw [encode_ofList, length_bytesOf]

theorem At.drop_bytesOf (h : At text n rest) :
  (bytesOf text).drop n = bytesOf rest
  := by
  apply h.rec_cons (p := fun text n => (bytesOf text).drop n = bytesOf rest)
  · rfl
  · intro c l k _ ih
    rw [bytesOf_cons, ← String.length_utf8EncodeChar, List.drop_length_add_append, ih]

/-- What is told of characters of ASCII only is told of the byte at a place as it is of the
character there. -/
theorem At.bind_byteAt? {α : Type} (h : At text n rest) {f : Char → Option α}
    (hf : ∀ c, 128 ≤ c.toNat → f c = none) :
  (byteAt? text n).bind f = rest.head?.bind f
  := by
  have hbyte : byteAt? text n = ((bytesOf rest).map charOfByte).head? := by
    rw [byteAt?, ← h.drop_bytesOf, List.head?_map, List.head?_drop]
  rw [hbyte]
  cases rest with
  | nil => rfl
  | cons c rest =>
    rw [bytesOf_cons, List.map_append, List.head?_cons]
    rcases utf8EncodeChar_cases c with ⟨-, hencode⟩ | ⟨hwide, hencode⟩
    · rw [hencode]
      rfl
    · obtain ⟨b, bs, hbs⟩ : ∃ b bs, String.utf8EncodeChar c = b :: bs := by
        apply List.exists_cons_of_length_pos
        rw [String.length_utf8EncodeChar]
        exact c.utf8Size_pos
      have hb := hencode b (hbs ▸ List.mem_cons_self)
      rw [hbs, List.map_cons, List.cons_append, List.head?_cons, Option.bind_some,
        Option.bind_some, hf _ hb, hf _ hwide]

/-- A byte of ASCII stands at a place exactly if its character does. -/
theorem At.byteAt?_eq_iff (h : At text n rest) {b : Char} (hb : b.toNat < 128) :
  byteAt? text n = some b ↔ rest.head? = some b
  := by
  have hbind := h.bind_byteAt? (f := fun c => if c = b then some b else none) (by
    intro c hc
    rw [if_neg]
    rintro rfl
    omega)
  have hsome (o : Option Char) :
      o = some b ↔ (o.bind fun c => if c = b then some b else none) = some b := by
    cases o <;> simp
  rw [hsome, hbind, ← hsome]

/-- The first byte that is a character of ASCII of some kind stands where the first character of
that kind does. -/
theorem findIdx_bytesOf {p : Char → Bool} (hp : ∀ c, p c = true → c.toNat < 128) (l : List Char) :
  (bytesOf l).findIdx (fun b => p (charOfByte b)) = byteLength (l.takeWhile fun c => !p c)
  := by
  induction l with
  | nil => rfl
  | cons c l ih =>
    rw [bytesOf_cons, List.findIdx_append, ih]
    rcases utf8EncodeChar_cases c with ⟨-, hencode⟩ | ⟨hwide, hencode⟩
    · obtain ⟨b, hb, hbc⟩ := List.map_eq_singleton_iff.mp hencode
      cases hpc : p c with
      | true => simp [hb, hbc, hpc]
      | false =>
        have hlength := String.length_utf8EncodeChar c
        rw [hb] at hlength
        simp [hb, hbc, hpc, ← hlength, Nat.add_comm]
    · have hpc : p c = false := by
        rw [← Bool.not_eq_true]
        intro h
        exact absurd (hp c h) (Nat.not_lt.mpr hwide)
      have hnone : (String.utf8EncodeChar c).findIdx (fun b => p (charOfByte b))
          = (String.utf8EncodeChar c).length := by
        rw [List.findIdx_eq_length]
        intro b hb
        rw [← Bool.not_eq_true]
        intro h
        exact absurd (hp _ h) (Nat.not_lt.mpr (hencode b hb))
      rw [hnone, if_neg (Nat.lt_irrefl _), String.length_utf8EncodeChar, List.takeWhile_cons, hpc,
        Bool.not_false, if_pos rfl, byteLength_cons, Nat.add_comm]

end Retrieval.Text
