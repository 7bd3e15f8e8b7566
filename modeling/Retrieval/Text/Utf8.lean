/-!
# UTF-8

Texts as bytes and bytes as texts. `decode?` reads only bytes that are UTF-8, and gives back
every text that `encode` wrote; `decodeLossy` reads any bytes, with one replacement character
for each longest piece that begins a character but does not complete one.
-/

namespace Retrieval.Text

/-- The number of bytes the characters take in UTF-8. -/
def byteLength : List Char → Nat
  | [] => 0
  | c :: l => c.utf8Size + byteLength l

/-- The bytes of a text. -/
def encode (s : String) : List UInt8 :=
  s.toUTF8.data.toList

/-- The text that the bytes write, if they are UTF-8. -/
def decode? (bytes : List UInt8) : Option String :=
  String.fromUTF8? ⟨bytes.toArray⟩

@[simp]
theorem byteLength_nil :
  byteLength [] = 0
  := rfl

@[simp]
theorem byteLength_cons (c : Char) (l : List Char) :
  byteLength (c :: l) = c.utf8Size + byteLength l
  := rfl

@[simp]
theorem byteLength_append (l₁ l₂ : List Char) :
  byteLength (l₁ ++ l₂) = byteLength l₁ + byteLength l₂
  := by
  induction l₁ with
  | nil => simp
  | cons c l₁ ih => simp [ih, Nat.add_assoc]

/-- What is written is read back. -/
theorem decode?_encode (s : String) :
  decode? (encode s) = some s
  := by
  have h : ByteArray.IsValidUTF8 ⟨(encode s).toArray⟩ := s.isValidUTF8
  simp only [decode?, String.fromUTF8?, h]
  rfl

/-! ### Reading any bytes -/

/-- A character whose first bytes have been read: how many more it takes, the least and the
greatest byte the next one may be, and the bits read so far. -/
structure Unfinished where
  missing : Nat
  least : UInt8
  greatest : UInt8
  bits : Nat

/-- What the first byte of a character begins, a character of one byte excepted. -/
def Unfinished.ofLead? (b : UInt8) : Option Unfinished :=
  if 0xc2 ≤ b ∧ b ≤ 0xdf then some ⟨1, 0x80, 0xbf, b.toNat - 0xc0⟩
  else if b = 0xe0 then some ⟨2, 0xa0, 0xbf, 0⟩
  else if b = 0xed then some ⟨2, 0x80, 0x9f, 0xd⟩
  else if 0xe1 ≤ b ∧ b ≤ 0xef then some ⟨2, 0x80, 0xbf, b.toNat - 0xe0⟩
  else if b = 0xf0 then some ⟨3, 0x90, 0xbf, 0⟩
  else if 0xf1 ≤ b ∧ b ≤ 0xf3 then some ⟨3, 0x80, 0xbf, b.toNat - 0xf0⟩
  else if b = 0xf4 then some ⟨3, 0x80, 0x8f, 4⟩
  else none

/-- The character that stands for bytes that are not UTF-8. -/
def replacement : Char := '\ufffd'

/-- What a byte adds to the text between characters: the characters it completes, and the
character it begins. -/
def lead (b : UInt8) : List Char × Option Unfinished :=
  if b < 0x80 then ([Char.ofNat b.toNat], none)
  else match Unfinished.ofLead? b with
    | some u => ([], some u)
    | none => ([replacement], none)

/-- What a byte adds to the text inside the character `u`. A byte that cannot continue the
character leaves it replaced and stands between characters. -/
def Unfinished.next (u : Unfinished) (b : UInt8) : List Char × Option Unfinished :=
  if u.least ≤ b ∧ b ≤ u.greatest then
    let bits := u.bits * 64 + (b.toNat - 0x80)
    if u.missing ≤ 1 then ([Char.ofNat bits], none)
    else ([], some ⟨u.missing - 1, 0x80, 0xbf, bits⟩)
  else
    let (chars, begun) := lead b
    (replacement :: chars, begun)

/-- The characters of the bytes that follow the first bytes of a character, if any. -/
def lossyChars : Option Unfinished → List UInt8 → List Char
  | none, [] => []
  | some _, [] => [replacement]
  | begun, b :: bytes =>
    let (chars, begun') := match begun with
      | none => lead b
      | some u => u.next b
    chars ++ lossyChars begun' bytes

/-- The text of any bytes, with replacement characters where they are not UTF-8. -/
def decodeLossy (bytes : List UInt8) : String :=
  String.ofList (lossyChars none bytes)

end Retrieval.Text
