import Retrieval.Json.Depth
import Retrieval.Proofs.Json.RoundTrip
import Mathlib.Data.List.TakeWhile

/-!
# Values that can be held

What is written of texts, truth values and integers that are not too large can be held by a reader
until it knows what it is for, if it does not nest too deep. How deep a record nests and whether it
is sound is told from its fields. A record that names its kind is read back after it was held.
-/

namespace Retrieval.Json

/-! ### Numerals -/

/-- The characters of an integer begin neither a fraction nor an exponent. -/
theorem ne_mark_of_mem_decimalInt {i : Int} {c : Char} (hc : c ∈ Text.decimalInt i) :
  c ≠ 'e' ∧ c ≠ 'E' ∧ c ≠ '.'
  := by
  have hplain : c = '-' ∨ c.isDigit = true := by
    rw [Text.decimalInt] at hc
    split at hc
    · obtain rfl | hc := List.mem_cons.mp hc
      · exact .inl rfl
      · exact .inr (Text.isDigit_of_mem_decimal hc)
    · exact .inr (Text.isDigit_of_mem_decimal hc)
  refine ⟨?_, ?_, ?_⟩ <;>
  · rintro rfl
    revert hplain
    decide

theorem filter_isDigit_decimalInt (i : Int) :
  (Text.decimalInt i).filter Char.isDigit = Text.decimal i.natAbs
  := by
  have hdigits : (Text.decimal i.natAbs).filter Char.isDigit = Text.decimal i.natAbs :=
    List.filter_eq_self.mpr fun c hc => Text.isDigit_of_mem_decimal hc
  rw [Text.decimalInt]
  split
  · rw [List.filter_cons_of_neg (by decide), hdigits]
  · exact hdigits

/-- The digits of an integer that fits a word are its leading digits, and nothing comes after
them. -/
theorem scientific_decimalInt {i : Int} (h : i.natAbs < UInt64.size) :
  scientific (Text.decimalInt i) = (i.natAbs, 0)
  := by
  have hmark : ∀ c ∈ Text.decimalInt i, (!(c == 'e' || c == 'E')) = true := by
    intro c hc
    simp [ne_mark_of_mem_decimalInt hc]
  have hpoint : ∀ c ∈ Text.decimalInt i, decide (c ≠ '.') = true := by
    intro c hc
    simp [ne_mark_of_mem_decimalInt hc]
  have hleading : leadingDigits 0 (Text.decimal i.natAbs) = (i.natAbs, 0) := by
    rw [leadingDigits_of_valueOf_lt (by rwa [Text.valueOf_decimal]), Text.valueOf_decimal]
  rw [scientific]
  dsimp only
  rw [List.takeWhile_eq_self_iff.mpr hmark, List.dropWhile_eq_nil_iff.mpr hmark,
    List.takeWhile_eq_self_iff.mpr hpoint, List.dropWhile_eq_nil_iff.mpr hpoint,
    filter_isDigit_decimalInt, hleading]
  rfl

theorem pow_lt_sub_pow {k m n : Nat} (hk : k < m) (hm : m < n) :
  Nat.pow 2 k < Nat.pow 2 n - Nat.pow 2 m
  := by
  have hsmall : 2 ^ k < 2 ^ m := Nat.pow_lt_pow_right Nat.one_lt_two hk
  have hlarge : 2 ^ (m + 1) ≤ 2 ^ n := Nat.pow_le_pow_right Nat.two_pos hm
  rw [Nat.pow_succ] at hlarge
  simp only [Nat.pow_eq]
  omega

theorem lt_doubleLimit :
  Nat.pow 2 53 < doubleLimit
  := by
  rw [doubleLimit]
  apply pow_lt_sub_pow <;> decide

/-- An integer of 53 bits is not too large. -/
theorem exceedsDouble_decimalInt {i : Int} (h : i.natAbs < Nat.pow 2 53) :
  exceedsDouble (Text.decimalInt i) = false
  := by
  have hone : nearestDouble (Nat.pow 10 (0 : Int).toNat) = 1 :=
    nearestDouble_eq_self (by decide)
  have hlimit : ¬doubleLimit ≤ i.natAbs :=
    Nat.not_le.mpr (Nat.lt_trans h lt_doubleLimit)
  rw [exceedsDouble, scientific_decimalInt (Nat.lt_trans h (by decide))]
  dsimp only
  rw [nearestDouble_eq_self h, hone, Nat.mul_one, if_neg (by decide : ¬(308 : Int) < 0),
    decide_eq_false hlimit, ite_self]

/-! ### Values without parts -/

/-- A value that can be written, and held as far as it does not nest too deep. -/
structure Storable (j : Json) : Prop where
  written : Written j
  sound : sound j = true

/-- A value without parts that can be written and held. -/
structure Plain (j : Json) : Prop extends Storable j where
  depth : depth j = 0

attribute [simp] Plain.depth Plain.toStorable Storable.written Storable.sound

@[simp]
theorem plain_null :
  Plain .null
  := ⟨⟨.null, rfl⟩, rfl⟩

@[simp]
theorem plain_bool (b : Bool) :
  Plain (.bool b)
  := ⟨⟨.bool b, rfl⟩, rfl⟩

@[simp]
theorem plain_text (s : String) :
  Plain (text s)
  := by
  refine ⟨⟨.string (quotable_escape _), ?_⟩, rfl⟩
  rw [text, sound, unescape?_escape]
  rfl

theorem plain_integer {i : Int} (h : i.natAbs < Nat.pow 2 53) :
  Plain (integer i)
  := by
  refine ⟨⟨.integer i, ?_⟩, rfl⟩
  rw [integer, sound, exceedsDouble_decimalInt h]
  rfl

@[simp]
theorem plain_int32 (i : Int32) :
  Plain (integer i.toInt)
  := by
  have hle := i.toInt_le
  have hge := i.minValue_le_toInt
  simp only [Int32.toInt_maxValue, Int32.toInt_minValue] at hle hge
  apply plain_integer
  rw [Nat.pow_eq]
  omega

@[simp]
theorem plain_uint8 (n : UInt8) :
  Plain (natural n.toNat)
  := by
  have hlt := n.toNat_lt
  rw [natural_eq_integer]
  apply plain_integer
  rw [Int.natAbs_natCast, Nat.pow_eq]
  omega

/-! ### Records -/

theorem depthFields_le_iff {fields : List (List Char × Json)} {n : Nat} :
  depthFields fields ≤ n ↔ ∀ f ∈ fields, depth f.2 ≤ n
  := by
  induction fields with
  | nil => simp [depthFields]
  | cons f fields ih => rw [depthFields, Nat.max_le, ih, List.forall_mem_cons]

theorem soundFields_iff {fields : List (List Char × Json)} :
  soundFields fields = true ↔ ∀ f ∈ fields, (unescape? f.1).isSome ∧ sound f.2 = true
  := by
  induction fields with
  | nil => simp [soundFields]
  | cons f fields ih =>
    rw [soundFields, Bool.and_eq_true, Bool.and_eq_true, ih, List.forall_mem_cons]

/-- A record nests one level deeper than its fields. -/
theorem depth_record_le_iff {fields : List (String × Json)} {n : Nat} :
  depth (record fields) ≤ n + 1 ↔ ∀ f ∈ fields, depth f.2 ≤ n
  := by
  rw [record, depth, Nat.add_le_add_iff_right, depthFields_le_iff, List.forall_mem_map]

/-- A record is sound if its fields are. -/
theorem sound_record_iff {fields : List (String × Json)} :
  sound (record fields) = true ↔ ∀ f ∈ fields, sound f.2 = true
  := by
  simp only [record, sound, soundFields_iff, List.forall_mem_map, name, unescape?_escape,
    Option.isSome_some, true_and]

theorem storable_record {fields : List (String × Json)} (h : ∀ f ∈ fields, Storable f.2) :
  Storable (record fields)
  := ⟨written_record fun f hf => (h f hf).written, sound_record_iff.mpr fun f hf => (h f hf).sound⟩

/-- A record of plain values can be held. -/
theorem holdable_record {fields : List (String × Json)} (h : ∀ f ∈ fields, Plain f.2) :
  (record fields).holdable maxLevels = true
  := by
  have hdepth : depth (record fields) ≤ maxLevels :=
    depth_record_le_iff.mpr fun f hf => (h f hf).depth ▸ Nat.zero_le _
  have hsound : sound (record fields) = true :=
    sound_record_iff.mpr fun f hf => (h f hf).sound
  rw [holdable, hsound, Bool.and_true, decide_eq_true hdepth]

/-- A record of plain values with its kind in front can be held, and its kind and its fields are
read back. -/
theorem tagged?_record (kind : String) (fields : List (String × Json))
    (hplain : ∀ f ∈ fields, Plain f.2)
    (hdistinct : ((("type", text kind) :: fields).map Prod.fst).Nodup) :
  (record (("type", text kind) :: fields)).holdable maxLevels = true
    ∧ ∃ t : Tagged Json, (record (("type", text kind) :: fields)).tagged? = some t
      ∧ t.tag = text kind ∧ ∀ names : List String, "type" ∉ names →
        t.fields? names = some ⟨true, fields.filter fun (n, _) => names.contains n⟩
  := ⟨holdable_record (List.forall_mem_cons.mpr ⟨plain_text kind, hplain⟩),
    Tagged.ofNamed?_names (text kind) hdistinct⟩

end Retrieval.Json
