import Retrieval.Proofs.RecordSet.Keys
import Retrieval.Proofs.RecordSet.Store

/-!
# The scores of documents

In a well-formed set by document each document has at most one record, so the set is a partial
function from documents to scores. The algebra of such sets is computed document by document.
-/

namespace Retrieval

/-! ### Records of documents -/

namespace Record

/-- The score that the record of a whole document has, if there is one. -/
def scoreOf (records : List Record) (key : Key) : Option Score :=
  (get? (.ofKey key) records).map score

variable {key : Key} {records others : List Record}

theorem ofKey_injective {k₁ k₂ : Key} (h : Address.ofKey k₁ = .ofKey k₂) :
  k₁ = k₂
  := congrArg Address.key h

/-- What only scores anew does so in each document. -/
theorem scoreOf_map {f : Record → Record} {g : Key → Score → Score}
    (haddress : ∀ r, (f r).toAddress = r.toAddress) (hscore : ∀ r, (f r).score = g r.key r.score)
    (key : Key) :
  scoreOf (records.map f) key = (scoreOf records key).map (g key)
  := by
  rw [scoreOf, get?_map haddress, scoreOf]
  cases hr : get? (.ofKey key) records with
  | none => rfl
  | some r =>
    have hkey : r.key = key := congrArg Address.key (mem_of_get?_eq_some hr).2
    simp [hscore, hkey]

/-- Keeping records by their documents keeps the scores of those documents. -/
theorem scoreOf_filter {p : Key → Bool} (distinct : (addresses records).Nodup) (key : Key) :
  scoreOf (records.filter fun r => p r.key) key
    = if p key then scoreOf records key else none
  := by
  rw [scoreOf, get?_filter_key distinct, scoreOf, apply_ite (Option.map score)]
  rfl

/-- A document has a score if it has a record, where records are those of whole documents. -/
theorem isSome_scoreOf (hdocuments : ∀ r ∈ records, r.toAddress = .ofKey r.key) (key : Key) :
  (scoreOf records key).isSome = hasKey key records
  := by
  rw [Bool.eq_iff_iff, ← mem_keys_iff_hasKey, scoreOf, Option.isSome_map]
  cases hr : get? (.ofKey key) records with
  | none =>
    rw [get?_eq_none_iff] at hr
    have hnot : key ∉ keys records := by
      rintro ⟨r, hmem, rfl⟩
      apply hr
      rw [← hdocuments r hmem]
      apply List.mem_map_of_mem hmem
    simp [hnot]
  | some r =>
    obtain ⟨hmem, ha⟩ := mem_of_get?_eq_some hr
    have hkey : key ∈ keys records := ⟨r, hmem, congrArg Address.key ha⟩
    simp [hkey]

/-- An upsert at the address of a document changes the score of that document only. -/
theorem scoreOf_upsert {change : Record → Record} {fresh : Record} {k : Key}
    (hchange : ∀ r, (change r).toAddress = r.toAddress) (hfresh : fresh.toAddress = .ofKey k)
    {g : Score → Score} (hscore : ∀ r, (change r).score = g r.score) (key : Key) :
  scoreOf (upsert (.ofKey k) change fresh records) key
    = if key = k then some ((scoreOf records k).elim fresh.score g) else scoreOf records key
  := by
  rw [scoreOf, get?_upsert hchange hfresh]
  by_cases hkey : key = k
  · subst hkey
    cases hr : get? (.ofKey key) records with
    | none => simp [scoreOf, hr]
    | some r => simp [scoreOf, hr, hscore]
  · rw [if_neg hkey, if_neg fun h => hkey (ofKey_injective h), scoreOf]

/-- Merging the records of documents adds up their scores. -/
theorem scoreOf_mergeRecords {shape : Shape} (hothers : shape.Holds others) (key : Key) :
  scoreOf (others.foldl (RecordSet.mergeRecord shape) records) key
    = Option.merge Score.plus (scoreOf records key) (scoreOf others key)
  := by
  rw [scoreOf, hothers.get?_mergeRecords, scoreOf, scoreOf]
  cases get? (.ofKey key) records <;> cases get? (.ofKey key) others <;> rfl

end Record

/-! ### Sets by document -/

namespace RecordSet

variable {s t : RecordSet}

/-- In a set by document the score of a document is that of its record. -/
theorem find?_eq_scoreOf (hunit : s.shape.unit = .perDocument) (key : Key) :
  s.find? key = Record.scoreOf s.records key
  := by
  unfold find? get?
  rw [hunit]
  rfl

theorem find?_empty (shape : Shape) (key : Key) :
  (empty shape).find? key = none
  := by
  unfold find? get?
  cases hunit : (empty shape).shape.unit <;> rfl

/-- A hit adds its score to that of its document. -/
theorem find?_add (hunit : s.shape.unit = .perDocument) (a : Address) (score : Score)
    (key : Key) :
  (s.add a score).find? key
    = if key = a.key then some (((s.find? key).getD 0).plus score) else s.find? key
  := by
  rw [find?_eq_scoreOf hunit, find?_eq_scoreOf (s := s.add a score) hunit]
  have hplace : a.project s.shape.unit = .ofKey a.key := by
    rw [hunit]
    rfl
  rw [add]
  dsimp only
  rw [hplace, Record.scoreOf_upsert (g := fun s => s.plus score)]
  · by_cases hkey : key = a.key
    · subst hkey
      cases Record.scoreOf s.records a.key <;> simp [Record.addHit, Record.ofAddress, Address.part]
    · rw [if_neg hkey, if_neg hkey]
  · intro r
    rfl
  · rfl
  · intro r
    rfl

/-- Hits add up, from the first to the last. -/
theorem find?_addAll (hunit : s.shape.unit = .perDocument) (hits : List (Address × Score))
    (key : Key) :
  (hits.foldl (fun s h => s.add h.1 h.2) s).find? key
    = ((hits.filter fun h => h.1.key = key).map Prod.snd).foldl
        (fun total s => some ((total.getD 0).plus s)) (s.find? key)
  := by
  induction hits generalizing s with
  | nil => rfl
  | cons h hits ih =>
    rw [List.foldl_cons, ih (s := s.add h.1 h.2) hunit, find?_add hunit]
    by_cases hkey : h.1.key = key
    · simp [hkey]
    · simp [hkey, Ne.symm hkey]

variable (hs : s.WellFormed) (ht : t.WellFormed) (hshape : s.shape = t.shape)
  (hunit : s.shape.unit = .perDocument)

include hs hunit in
theorem WellFormed.eq_ofKey :
  ∀ r ∈ s.records, r.toAddress = .ofKey r.key
  := by
  intro r hr
  rw [← hs.holds.projected r hr, hunit]
  rfl

include ht hshape hunit in
theorem find?_union (key : Key) :
  (s.union t).find? key = Option.merge Score.plus (s.find? key) (t.find? key)
  := by
  rw [find?_eq_scoreOf (s := s.union t) hunit, find?_eq_scoreOf hunit,
    find?_eq_scoreOf (hshape ▸ hunit)]
  apply Record.scoreOf_mergeRecords
  rw [hshape]
  apply ht.holds

include hs ht hshape hunit in
theorem find?_intersect (key : Key) :
  (s.intersect t).find? key
    = (s.find? key).bind fun a => (t.find? key).map fun b => a.plus b
  := by
  have hunit' : t.shape.unit = .perDocument := hshape ▸ hunit
  rw [find?_eq_scoreOf (s := s.intersect t) hunit, find?_eq_scoreOf hunit,
    find?_eq_scoreOf hunit']
  have hadded : s.shape.Holds (t.records.filter fun r => Record.hasKey r.key s.records) := by
    rw [hshape]
    apply ht.holds.sublist List.filter_sublist
  have hmerged : Record.scoreOf (s.intersect t).records key = _ :=
    Record.scoreOf_mergeRecords hadded key
  rw [Record.scoreOf_filter (p := fun k => Record.hasKey k t.records) hs.holds.distinct,
    Record.scoreOf_filter (p := fun k => Record.hasKey k s.records) ht.holds.distinct,
    ← Record.isSome_scoreOf (ht.eq_ofKey hunit'), ← Record.isSome_scoreOf (hs.eq_ofKey hunit)]
    at hmerged
  apply hmerged.trans
  cases Record.scoreOf s.records key <;> cases Record.scoreOf t.records key <;> rfl

include hs ht hshape hunit in
theorem find?_subtract (key : Key) :
  (s.subtract t).find? key = if (t.find? key).isSome then none else s.find? key
  := by
  have hunit' : t.shape.unit = .perDocument := hshape ▸ hunit
  have hdifference : (s.subtract t).shape.unit = .perDocument := by
    rw [subtract, shape_retain, hunit]
  rw [find?_eq_scoreOf hdifference, find?_eq_scoreOf hunit, find?_eq_scoreOf hunit', subtract,
    records_retain,
    Record.scoreOf_filter (p := fun k => !Record.hasKey k t.records) hs.holds.distinct,
    Record.isSome_scoreOf (ht.eq_ofKey hunit')]
  cases Record.hasKey key t.records <;> rfl

include ht hshape hunit in
theorem find?_adjust (f : Score → Score → Score) (key : Key) :
  (s.adjust f t).find? key
    = (s.find? key).map fun a => (t.find? key).elim a fun b => f a b
  := by
  have hunit' : t.shape.unit = .perDocument := hshape ▸ hunit
  rw [find?_eq_scoreOf (s := s.adjust f t) hunit, find?_eq_scoreOf hunit]
  have htotal : ∀ k, Record.totalScore? k t.records = t.find? k := by
    intro k
    rw [Record.totalScore?_eq, ht.find?_eq_total?]
  apply Record.scoreOf_map (g := fun k a => (t.find? k).elim a fun b => f a b)
  · intro r
    split <;> rfl
  · intro r
    rw [htotal]
    cases t.find? r.key <;> rfl

include hunit in
theorem find?_mapScores (f : Score → Score) (key : Key) :
  (s.mapScores f).find? key = (s.find? key).map f
  := by
  rw [find?_eq_scoreOf (s := s.mapScores f) hunit, find?_eq_scoreOf hunit]
  apply Record.scoreOf_map (g := fun _ => f)
  · intro r
    rfl
  · intro r
    rfl

end RecordSet

end Retrieval
