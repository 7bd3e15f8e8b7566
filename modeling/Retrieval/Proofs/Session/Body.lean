import Retrieval.Proofs.Json.RoundTrip
import Retrieval.Session.Response

/-!
# Bodies of responses

What a query has found is read back from the body of a response: its records, whatever their keys
and however many parts they keep, and their number, if that fits a word of 64 bits.
-/

namespace Retrieval

open Json (written_natural written_record)

/-! ### Keys and records -/

theorem Key.written (key : Key) :
  Json.Written key.toJson
  := by
  cases key with
  | number n => exact written_natural _
  | bytes bytes =>
    apply Json.Written.array
    intro j hj
    obtain ⟨b, -, rfl⟩ := List.mem_map.mp hj
    apply written_natural

/-- A key is read back. -/
theorem Key.ofJson?_toJson (key : Key) :
  ofJson? key.toJson = some key
  := by
  cases key with
  | number n => rw [toJson, ofJson?, Json.uint32?_natural]
  | bytes bytes =>
    have hlist : (Json.array (bytes.map fun b => Json.natural b.toNat)).list? Json.uint8?
        = some bytes := Json.list?_array fun b _ => Json.uint8?_natural b
    rw [toJson, ofJson?, hlist]
    rfl

theorem Part.written (p : Part) :
  Json.Written p.toJson
  := by
  apply written_record
  intro f hf
  simp only [List.mem_cons, List.not_mem_nil, or_false] at hf
  rcases hf with rfl | rfl | rfl
  · apply written_natural
  · apply written_natural
  · apply Json.Written.integer

/-- A part is read back. -/
theorem Part.ofJson?_toJson (p : Part) :
  ofJson? p.toJson = some p
  := by
  rw [toJson, ofJson?, Json.fields?_record (by simp) (by simp)]
  simp [Score.toJson]

theorem Record.written (r : Record) :
  Json.Written r.toJson
  := by
  apply written_record
  intro f hf
  simp only [List.cons_append, List.nil_append, List.mem_cons] at hf
  rcases hf with rfl | rfl | rfl | rfl | rfl | hf
  · apply Key.written
  · apply written_natural
  · apply written_natural
  · apply Json.Written.integer
  · apply written_natural
  · split at hf
    · cases hf
    · obtain rfl := List.mem_singleton.mp hf
      apply Json.Written.array
      intro j hj
      obtain ⟨p, -, rfl⟩ := List.mem_map.mp hj
      apply Part.written

/-- A record is read back. -/
theorem Record.ofJson?_toJson (r : Record) :
  ofJson? r.toJson = some r
  := by
  have hparts : (Json.array (r.parts.map Part.toJson)).list? Part.ofJson? = some r.parts :=
    Json.list?_array fun p _ => p.ofJson?_toJson
  rw [toJson, ofJson?]
  split
  · rename_i hempty
    rw [List.append_nil, Json.fields?_record (by simp) (by simp)]
    simp [Key.ofJson?_toJson, Score.toJson, ← List.isEmpty_iff.mp hempty]
  · rw [List.cons_append, Json.fields?_record (by simp) (by simp)]
    simp [Key.ofJson?_toJson, Score.toJson, hparts]

namespace QueryResult

theorem written (r : QueryResult) :
  Json.Written r.toJson
  := by
  apply written_record
  intro f hf
  simp only [List.mem_cons, List.not_mem_nil, or_false] at hf
  rcases hf with rfl | rfl
  · apply written_natural
  · apply Json.Written.array
    intro j hj
    obtain ⟨record, -, rfl⟩ := List.mem_map.mp hj
    apply Record.written

/-- A result is read back, if the number of its records fits a word of 64 bits. -/
theorem ofJson?_toJson {r : QueryResult} (h : r.count < UInt64.size) :
  ofJson? r.toJson = some r
  := by
  have hrecords : (Json.array (r.records.map Record.toJson)).list? Record.ofJson?
      = some r.records := Json.list?_array fun record _ => record.ofJson?_toJson
  rw [toJson, ofJson?, Json.fields?_record (by simp) (by simp)]
  simp [Json.natural?_natural h, hrecords]

end QueryResult

/-- The result in the body of a response is read back. -/
theorem Response.value_compact {r : QueryResult} (h : r.count < UInt64.size) (flags : Flags) :
  (Response.mk r.toJson.compact flags).value = .ok (some r)
  := by
  have hparse : Json.parse? r.toJson.compact.toList = some r.toJson := by
    rw [Json.compact, String.toList_ofList]
    exact r.written.parse?_compactChars
  have hnonempty : r.toJson.compact.isEmpty = false := by
    rw [String.isEmpty_eq_false_iff]
    intro hempty
    rw [hempty] at hparse
    cases hparse
  rw [value, hnonempty, if_neg Bool.false_ne_true, hparse, Option.bind_some,
    QueryResult.ofJson?_toJson h]

end Retrieval
