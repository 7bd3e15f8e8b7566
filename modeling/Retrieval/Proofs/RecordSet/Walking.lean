import Retrieval.Proofs.RecordSet.GroupsByKey

/-!
# Walking over a set that is edited

A cursor is a place, so it stays on its record only as long as no record before it is added, removed
or moved. Each operation resets the cursor in its own way: when it makes a new record, when it builds
the index anew, at its end, or only if it has removed something. Either way an operation keeps the
addresses of the records and the cursor, or leaves the cursor before the first record. Hence the
record under the cursor is the one that was walked to last, and a walk that no reset interrupts goes
over each record once.
-/

namespace Retrieval

theorem exists_map_some {α : Type} {l : List (Option α)} (h : ∀ r ∈ l, r.isSome) :
  ∃ given : List α, given.map some = l
  := by
  induction l with
  | nil => exact ⟨[], rfl⟩
  | cons r l ih =>
    obtain ⟨hr, hl⟩ := List.forall_mem_cons.mp h
    obtain ⟨x, rfl⟩ := Option.isSome_iff_exists.mp hr
    obtain ⟨given, rfl⟩ := ih hl
    exact ⟨x :: given, rfl⟩

theorem Record.getElem?_addresses (records : List Record) (p : Nat) :
  (addresses records)[p]? = records[p]?.map toAddress
  := List.getElem?_map

theorem Record.length_addresses (records : List Record) :
  (addresses records).length = records.length
  := List.length_map _

/-! ### Moving a cursor -/

/-- Where a cursor stands in a set of a size after a number of moves from the start. -/
def Cursor.moved (size : Nat) : Nat → Cursor
  | 0 => .start
  | k + 1 => if k < size then .on k else .done

namespace RecordSet

/-- The key of the record the cursor stands on. -/
def currentKey? (s : RecordSet) : Option Key :=
  s.current?.map fun r => r.key

/-- The score of the record the cursor stands on, or zero if it stands on none. -/
def currentScore (s : RecordSet) : Score :=
  (s.current?.map Record.score).getD 0

variable {s : RecordSet}

/-- Moves the cursor to a place, or after the last record if no record has that place. -/
def moveTo (p : Nat) (s : RecordSet) : Option Record × RecordSet :=
  match s.records[p]? with
  | some r => (some r, { s with cursor := .on p })
  | none => (none, { s with cursor := .done })

theorem next_eq (s : RecordSet) :
  s.next
    = match s.cursor with
      | .start => s.moveTo 0
      | .on p => s.moveTo (p + 1)
      | .done => (none, s)
  := by
  rw [next]
  cases s.cursor <;> rfl

theorem next_of_done (h : s.cursor = .done) :
  s.next = (none, s)
  := by
  rw [next_eq, h]

theorem moveTo_cases (p : Nat) (s : RecordSet) :
  (∃ r, s.records[p]? = some r ∧ s.moveTo p = (some r, { s with cursor := .on p }))
    ∨ s.moveTo p = (none, { s with cursor := .done })
  := by
  rw [moveTo]
  cases hp : s.records[p]? with
  | none => exact .inr rfl
  | some r => exact .inl ⟨r, rfl, rfl⟩

/-- The next record is the one on which the cursor then stands. If there is none, the cursor then
stands after the last record. -/
theorem next_cases (s : RecordSet) :
  (∃ p r, s.records[p]? = some r ∧ s.next = (some r, { s with cursor := .on p }))
    ∨ s.next = (none, { s with cursor := .done })
  := by
  rw [next_eq]
  cases hcursor : s.cursor with
  | start =>
    obtain hon | hdone := moveTo_cases 0 s
    · exact .inl ⟨0, hon⟩
    · exact .inr hdone
  | on p =>
    obtain hon | hdone := moveTo_cases (p + 1) s
    · exact .inl ⟨p + 1, hon⟩
    · exact .inr hdone
  | done =>
    have hs : s = { s with cursor := .done } := by rw [← hcursor]
    exact .inr (congrArg (Prod.mk none) hs)

theorem moveTo_eq (p : Nat) (s : RecordSet) :
  s.moveTo p = (s.records[p]?, { s with cursor := .moved s.size (p + 1) })
  := by
  rw [moveTo, Cursor.moved]
  cases hp : s.records[p]? with
  | none =>
    have hsize : ¬ p < s.size := Nat.not_lt_of_le (List.getElem?_eq_none_iff.mp hp)
    rw [if_neg hsize]
  | some r =>
    have hsize : p < s.size := (List.getElem?_eq_some_iff.mp hp).1
    rw [if_pos hsize]

/-- After a number of moves the next one goes to the record whose place is that number. -/
theorem next_of_moved {k : Nat} (h : s.cursor = .moved s.size k) :
  s.next = (s.records[k]?, { s with cursor := .moved s.size (k + 1) })
  := by
  cases k with
  | zero => rw [next_eq, h, Cursor.moved, moveTo_eq]
  | succ k =>
    by_cases hk : k < s.size
    · rw [Cursor.moved, if_pos hk] at h
      rw [next_eq, h]
      apply moveTo_eq
    · rw [Cursor.moved, if_neg hk] at h
      have hnone : s.records[k + 1]? = none :=
        List.getElem?_eq_none (Nat.le_succ_of_le (Nat.le_of_not_lt hk))
      have hdone : Cursor.moved s.size (k + 1 + 1) = s.cursor := by
        rw [h, Cursor.moved, if_neg (by omega)]
      rw [next_of_done h, hnone, hdone]

theorem cursor_of_group {limit : Nat} {t : RecordSet} (h : s.group limit = .ok t) :
  t.cursor = .start
  := by
  rw [group_eq] at h
  split at h
  · cases h
  · split at h
    · cases h
    · cases h
      rfl

theorem cursor_of_groupBy {limit : Nat} {direction : Direction}
    {keyOf : Record → Option (List UInt8)} {t : RecordSet}
    (h : s.groupBy limit direction keyOf = .ok t) :
  t.cursor = .start
  := by
  rw [groupBy] at h
  cases hshape : groupedShape .userDefined s.shape.unit limit with
  | error e =>
    rw [hshape] at h
    cases h
  | ok shape =>
    rw [hshape] at h
    cases h
    rfl

theorem cursor_retain (h : s.cursor = .start) (p : Record → Bool) :
  (s.retain p).cursor = .start
  := by
  rw [retain]
  split
  · rfl
  · exact h

end RecordSet

open RecordStore (Reachable)

/-- A set that operations have made has its cursor before the first record, until it is walked
over. -/
theorem RecordStore.Reachable.cursor_eq {s : RecordSet} (h : Reachable s) :
  s.cursor = .start
  := by
  have hadd : ∀ {s : RecordSet} {a score}, s.cursor = .start → (s.add a score).cursor = .start := by
    intro s a score h
    rw [RecordSet.add, h, ite_self]
  induction h with
  | ofShape h =>
    obtain ⟨-, rfl⟩ := RecordSet.ofShape_eq_ok_iff.mp h
    rfl
  | cleared => rfl
  | add _ _ _ ih => exact hadd ih
  | addPosting _ _ _ ih => exact hadd ih
  | insert => rfl
  | union => rfl
  | intersect => rfl
  | subtract _ _ ih => exact RecordSet.cursor_retain ih _
  | differenceLeft _ _ ih => exact RecordSet.cursor_retain ih _
  | differenceRight _ _ _ ih => exact RecordSet.cursor_retain ih _
  | adjust _ _ _ ih => exact ih
  | mapScores _ _ ih => exact ih
  | sort => rfl
  | sortBy => rfl
  | group _ ht => exact RecordSet.cursor_of_group ht
  | groupBy _ ht => exact RecordSet.cursor_of_groupBy ht

namespace IndexedSet

/-- The set with its cursor before the first record. -/
def rewind (i : IndexedSet) : IndexedSet :=
  { i with set := i.set.rewind }

/-- Moves the cursor to the next record, and gives that record. -/
def next (i : IndexedSet) : Option Record × IndexedSet :=
  (i.set.next.1, { i with set := i.set.next.2 })

/-- The set with its cursor elsewhere. -/
def withCursor (cursor : Cursor) (i : IndexedSet) : IndexedSet :=
  { i with set := { i.set with cursor } }

theorem next_cases (i : IndexedSet) :
  (∃ p r, i.set.records[p]? = some r ∧ i.next = (some r, i.withCursor (.on p)))
    ∨ i.next = (none, i.withCursor .done)
  := by
  obtain ⟨p, r, hr, hnext⟩ | hnext := i.set.next_cases
  · rw [next, hnext]
    exact .inl ⟨p, r, hr, rfl⟩
  · rw [next, hnext]
    exact .inr rfl

theorem records_next (i : IndexedSet) :
  i.next.2.set.records = i.set.records
  := by
  obtain ⟨p, r, -, hnext⟩ | hnext := i.next_cases
  · rw [hnext]
    rfl
  · rw [hnext]
    rfl

/-- After a move the cursor stands on the record that the move has given. -/
theorem current?_next (i : IndexedSet) :
  i.next.2.set.current? = i.next.1
  := by
  obtain ⟨p, r, hr, hnext⟩ | hnext := i.next_cases
  · rw [hnext]
    exact hr
  · rw [hnext]
    rfl

theorem cursor_next_of_none {i : IndexedSet} (h : i.next.1 = none) :
  i.next.2.set.cursor = .done
  := by
  obtain ⟨p, r, -, hnext⟩ | hnext := i.next_cases
  · rw [hnext] at h
    cases h
  · rw [hnext]
    rfl

theorem next_of_moved {i : IndexedSet} {k : Nat} (h : i.set.cursor = .moved i.set.size k) :
  i.next = (i.set.records[k]?, i.withCursor (.moved i.set.size (k + 1)))
  := by
  rw [next, RecordSet.next_of_moved h]
  rfl

theorem next_of_done {i : IndexedSet} (h : i.set.cursor = .done) :
  i.next = (none, i)
  := by
  rw [next, RecordSet.next_of_done h]

/-! ### Operations -/

/-- What a run leaves of a set, whether it fails or not. -/
def remains {α : Type} : EStateM.Result Error IndexedSet α → IndexedSet
  | .ok _ i => i
  | .error _ i => i

/-- What can be done with a set in place. The set may be either operand of a difference. -/
inductive Operation where
  | rewind
  | next
  | add (a : Address) (score : Score)
  | addPosting (p : Posting) (score : Score)
  | insert (r : Record)
  | union (t : IndexedSet)
  | intersect (t : IndexedSet)
  | subtract (t : IndexedSet)
  | differenceLeft (t : IndexedSet)
  | differenceRight (t : IndexedSet)
  | adjust (f : Score → Score → Score) (t : IndexedSet)
  | mapScores (f : Score → Score)
  | sort (limit : Nat) (direction : Direction)
  | sortBy (limit : Nat) (direction : Direction) (rank : Ranking)
  | group (limit : Nat)
  | groupBy (limit : Nat) (direction : Direction) (keyOf : Record → Option (List UInt8))

namespace Operation

/-- The set after an operation, also after one that fails. -/
def apply : Operation → IndexedSet → IndexedSet
  | rewind, i => i.rewind
  | next, i => i.next.2
  | add a score, i => i.add a score
  | addPosting p score, i => RecordStore.addPosting p score i
  | insert r, i => RecordStore.insert r i
  | union t, i => RecordStore.union i t
  | intersect t, i => RecordStore.intersect i t
  | subtract t, i => RecordStore.subtract i t
  | differenceLeft t, i => (i.difference t).1
  | differenceRight t, i => (t.difference i).2
  | adjust f t, i => RecordStore.adjust f i t
  | mapScores f, i => RecordStore.mapScores f i
  | sort limit direction, i => RecordStore.sort limit direction i
  | sortBy limit direction rank, i => RecordStore.sortBy limit direction rank i
  | group limit, i => remains ((groupDocuments limit).run i)
  | groupBy limit direction keyOf, i => remains ((groupByKey limit direction keyOf).run i)

/-- What a call of `next` gives. Other operations give nothing. -/
def returned : Operation → IndexedSet → List (Option Record)
  | next, i => [i.next.1]
  | _, _ => []

/-- Whether an operation is a step of a walk, or one of those that neither add nor remove records, nor
put them in another order. -/
def Quiet : Operation → IndexedSet → Prop
  | next, _ => True
  | add a _, i => (i.get? a).isSome
  | addPosting p _, i => (i.get? p.toAddress).isSome
  | subtract t, i => (RecordStore.subtract i t).set.size = i.set.size
  | differenceLeft t, i => (i.difference t).1.set.size = i.set.size
  | differenceRight t, i => (t.difference i).2.set.size = i.set.size
  | adjust _ _, _ => True
  | mapScores _, _ => True
  | group limit, i => ∃ e j, (groupDocuments limit).run i = .error e j
  | groupBy limit direction keyOf, i =>
    ∃ e j, (groupByKey limit direction keyOf).run i = .error e j
  | _, _ => False

end Operation

/-- The set after operations that are done one after another. -/
def run (ops : List Operation) (i : IndexedSet) : IndexedSet :=
  ops.foldl (fun i op => op.apply i) i

/-- What the calls of `next` among operations give, in the order of the calls. -/
def returned : List Operation → IndexedSet → List (Option Record)
  | [], _ => []
  | op :: ops, i => op.returned i ++ returned ops (op.apply i)

/-- All operations that are done one after another are quiet ones. -/
def QuietRun : List Operation → IndexedSet → Prop
  | [], _ => True
  | op :: ops, i => op.Quiet i ∧ QuietRun ops (op.apply i)

theorem run_append (ops more : List Operation) (i : IndexedSet) :
  run (ops ++ more) i = run more (run ops i)
  := List.foldl_append

theorem returned_append (ops more : List Operation) (i : IndexedSet) :
  returned (ops ++ more) i = returned ops i ++ returned more (run ops i)
  := by
  induction ops generalizing i with
  | nil => rfl
  | cons op ops ih =>
    rw [List.cons_append, returned, ih, ← List.append_assoc]
    rfl

/-! ### What an operation does to the cursor -/

/-- The addresses of the records and the cursor are kept. -/
structure Keeps (i j : IndexedSet) : Prop where
  addresses_eq : Record.addresses j.set.records = Record.addresses i.set.records
  cursor_eq : j.set.cursor = i.set.cursor

variable {i j : IndexedSet}

theorem Keeps.refl (i : IndexedSet) :
  i.Keeps i
  := ⟨rfl, rfl⟩

theorem Keeps.size_eq (h : i.Keeps j) :
  j.set.size = i.set.size
  := by
  rw [RecordSet.size, RecordSet.size, ← Record.length_addresses, h.addresses_eq,
    Record.length_addresses]

/-- A hit on a record that the index knows changes that record only. -/
theorem keeps_add {a : Address} {p : Nat} (h : i.index (a.project i.set.shape.unit) = some p)
    (score : Score) :
  i.Keeps (i.add a score)
  := by
  simp only [add, slot, h]
  constructor
  · apply Record.addresses_modify
    intro r
    rfl
  · rfl

/-- A hit on a record that the index does not know makes a new one. -/
theorem cursor_add {a : Address} (h : i.index (a.project i.set.shape.unit) = none) (score : Score) :
  (i.add a score).set.cursor = .start
  := by
  simp only [add, slot, h]
  rfl

/-- If nothing is removed, nothing happens. -/
theorem retain_eq_self {p : Record → Bool} (h : (i.retain p).set.size = i.set.size) :
  i.retain p = i
  := by
  rw [retain] at h ⊢
  split
  · rename_i hlength
    rw [if_pos hlength] at h
    exact absurd h (Nat.ne_of_lt hlength)
  · rfl

theorem keeps_or_start_retain (i : IndexedSet) (p : Record → Bool) :
  i.Keeps (i.retain p) ∨ (i.retain p).set.cursor = .start
  := by
  rw [retain]
  split
  · exact .inr rfl
  · exact .inl (.refl i)

theorem keeps_adjust (i t : IndexedSet) (f : Score → Score → Score) :
  i.Keeps (RecordStore.adjust f i t)
  := by
  constructor
  · apply Record.addresses_map
    intro r
    split <;> rfl
  · rfl

theorem keeps_mapScores (i : IndexedSet) (f : Score → Score) :
  i.Keeps (RecordStore.mapScores f i)
  := by
  constructor
  · apply Record.addresses_map
    intro r
    rfl
  · rfl

/-! ### Grouping that may fail -/

section grouping

/-- The run of a program that writes the set which a result gives, and nothing if it gives none. -/
def written (i : IndexedSet) : Except Error RecordSet → EStateM.Result Error IndexedSet Unit
  | .error e => .error e i
  | .ok s => .ok () (ofSet s)

theorem run_groupDocuments_eq_written (i : IndexedSet) (limit : Nat) :
  (groupDocuments limit).run i = i.written (i.set.group limit)
  := by
  rw [run_groupDocuments]
  cases i.set.group limit <;> rfl

theorem run_groupByKey_eq_written (i : IndexedSet) (limit : Nat) (direction : Direction)
    (keyOf : Record → Option (List UInt8)) :
  (groupByKey limit direction keyOf).run i = i.written (i.set.groupBy limit direction keyOf)
  := by
  rw [run_groupByKey]
  cases i.set.groupBy limit direction keyOf <;> rfl

variable {result : Except Error RecordSet}

theorem keeps_or_start_written (hcursor : ∀ s, result = .ok s → s.cursor = .start) :
  i.Keeps (remains (i.written result)) ∨ (remains (i.written result)).set.cursor = .start
  := by
  cases result with
  | error e => exact .inl (.refl i)
  | ok s => exact .inr (hcursor s rfl)

theorem remains_written_of_error (h : ∃ e j, i.written result = .error e j) :
  remains (i.written result) = i
  := by
  obtain ⟨e, j, h⟩ := h
  cases result with
  | error e => rfl
  | ok s => cases h

theorem exists_wellFormed_written {s : RecordSet} (hs : s.WellFormed)
    (hresult : ∀ t, result = .ok t → t.WellFormed) :
  ∃ t : RecordSet, t.WellFormed ∧ remains ((ofSet s).written result) = ofSet t
  := by
  cases result with
  | error e => exact ⟨s, hs, rfl⟩
  | ok t => exact ⟨t, hresult t rfl, rfl⟩

end grouping

namespace Operation

/-- Every operation but a step of a walk keeps the addresses of the records and the cursor, or leaves
the cursor before the first record. -/
theorem next_or_keeps_or_start (op : Operation) (i : IndexedSet) :
  op = next
    ∨ op.returned i = [] ∧ (i.Keeps (op.apply i) ∨ (op.apply i).set.cursor = .start)
  := by
  have hadd : ∀ a score, i.Keeps (i.add a score) ∨ (i.add a score).set.cursor = .start := by
    intro a score
    cases h : i.index (a.project i.set.shape.unit) with
    | none => exact .inr (cursor_add h score)
    | some p => exact .inl (keeps_add h score)
  cases op with
  | next => exact .inl rfl
  | rewind => exact .inr ⟨rfl, .inr rfl⟩
  | add a score => exact .inr ⟨rfl, hadd a score⟩
  | addPosting p score => exact .inr ⟨rfl, hadd p.toAddress score⟩
  | insert r => exact .inr ⟨rfl, .inr rfl⟩
  | union t => exact .inr ⟨rfl, .inr rfl⟩
  | intersect t => exact .inr ⟨rfl, .inr rfl⟩
  | subtract t => exact .inr ⟨rfl, keeps_or_start_retain i _⟩
  | differenceLeft t => exact .inr ⟨rfl, keeps_or_start_retain i _⟩
  | differenceRight t => exact .inr ⟨rfl, keeps_or_start_retain i _⟩
  | adjust f t => exact .inr ⟨rfl, .inl (keeps_adjust i t f)⟩
  | mapScores f => exact .inr ⟨rfl, .inl (keeps_mapScores i f)⟩
  | sort limit direction => exact .inr ⟨rfl, .inr rfl⟩
  | sortBy limit direction rank => exact .inr ⟨rfl, .inr rfl⟩
  | group limit =>
    rw [apply, run_groupDocuments_eq_written]
    exact .inr ⟨rfl, keeps_or_start_written fun _ => RecordSet.cursor_of_group⟩
  | groupBy limit direction keyOf =>
    rw [apply, run_groupByKey_eq_written]
    exact .inr ⟨rfl, keeps_or_start_written fun _ => RecordSet.cursor_of_groupBy⟩

/-- A quiet operation is a step of a walk or keeps the addresses of the records and the cursor. -/
theorem Quiet.next_or_keeps {op : Operation} (h : op.Quiet i) :
  op = next ∨ op.returned i = [] ∧ i.Keeps (op.apply i)
  := by
  have hadd : ∀ a score, (i.get? a).isSome → i.Keeps (i.add a score) := by
    intro a score hget
    obtain ⟨r, hr⟩ := Option.isSome_iff_exists.mp hget
    obtain ⟨p, hp, -⟩ := Option.bind_eq_some_iff.mp hr
    exact keeps_add hp score
  have heq : ∀ {j}, j = i → i.Keeps j := by
    rintro _ rfl
    apply Keeps.refl
  cases op with
  | next => exact .inl rfl
  | add a score => exact .inr ⟨rfl, hadd a score h⟩
  | addPosting p score => exact .inr ⟨rfl, hadd p.toAddress score h⟩
  | subtract t => exact .inr ⟨rfl, heq (retain_eq_self h)⟩
  | differenceLeft t => exact .inr ⟨rfl, heq (retain_eq_self h)⟩
  | differenceRight t => exact .inr ⟨rfl, heq (retain_eq_self h)⟩
  | adjust f t => exact .inr ⟨rfl, keeps_adjust i t f⟩
  | mapScores f => exact .inr ⟨rfl, keeps_mapScores i f⟩
  | group limit =>
    rw [Quiet, run_groupDocuments_eq_written] at h
    rw [apply, run_groupDocuments_eq_written]
    exact .inr ⟨rfl, heq (remains_written_of_error h)⟩
  | groupBy limit direction keyOf =>
    rw [Quiet, run_groupByKey_eq_written] at h
    rw [apply, run_groupByKey_eq_written]
    exact .inr ⟨rfl, heq (remains_written_of_error h)⟩
  | rewind | insert | union | intersect | sort | sortBy => cases h

/-- Every operation makes a well-formed set with the index of its records. -/
theorem exists_wellFormed_apply {s : RecordSet} (hs : s.WellFormed) (op : Operation) :
  ∃ t : RecordSet, t.WellFormed ∧ apply op (ofSet s) = ofSet t
  := by
  cases op with
  | rewind => exact ⟨s.rewind, ⟨hs.valid, hs.holds⟩, rfl⟩
  | next =>
    rw [apply]
    obtain ⟨p, r, -, hnext⟩ | hnext := (ofSet s).next_cases
    · rw [hnext]
      exact ⟨{ s with cursor := .on p }, ⟨hs.valid, hs.holds⟩, rfl⟩
    · rw [hnext]
      exact ⟨{ s with cursor := .done }, ⟨hs.valid, hs.holds⟩, rfl⟩
  | add a score => exact ⟨_, hs.add a score, add_ofSet s a score⟩
  | addPosting p score => exact ⟨_, hs.add p.toAddress score, add_ofSet s p.toAddress score⟩
  | insert r => exact ⟨_, hs.insert r, mergeRecords_ofSet s [r]⟩
  | union t => exact ⟨_, hs.union t.set, mergeRecords_ofSet s t.set.records⟩
  | intersect t => exact ⟨_, hs.intersect t.set, intersect_ofSet s t.set⟩
  | subtract t => exact ⟨_, hs.subtract t.set, retain_ofSet s _⟩
  | differenceLeft t => exact ⟨_, hs.retain _, retain_ofSet s _⟩
  | differenceRight t => exact ⟨_, hs.retain _, retain_ofSet s _⟩
  | adjust f t => exact ⟨_, hs.adjust f t.set, adjust_ofSet s t.set f⟩
  | mapScores f => exact ⟨_, hs.mapScores f, mapScores_ofSet s f⟩
  | sort limit direction => exact ⟨_, hs.sortBy limit direction _, replaceRecords_ofSet s _⟩
  | sortBy limit direction rank =>
    exact ⟨_, hs.sortBy limit direction rank, replaceRecords_ofSet s _⟩
  | group limit =>
    rw [apply, run_groupDocuments_eq_written]
    exact exists_wellFormed_written hs fun _ => RecordSet.WellFormed.group
  | groupBy limit direction keyOf =>
    rw [apply, run_groupByKey_eq_written]
    exact exists_wellFormed_written hs fun _ => RecordSet.WellFormed.groupBy

end Operation

/-! ### Walks -/

/-- Operations on a set that operations have made leave a well-formed one, with the index of its
records. -/
theorem exists_wellFormed_run (h : Reachable i) (ops : List Operation) :
  ∃ s : RecordSet, s.WellFormed ∧ run ops i = ofSet s
  := by
  induction ops using List.reverseRecOn with
  | nil =>
    obtain ⟨s, hs, rfl⟩ := exists_reachable h
    exact ⟨s, hs.wellFormed, rfl⟩
  | append_singleton ops op ih =>
    obtain ⟨s, hs, hrun⟩ := ih
    rw [run_append, hrun]
    exact Operation.exists_wellFormed_apply hs op

/-- A record is found at its own address. -/
theorem get?_toAddress {s : RecordSet} (hs : s.WellFormed) {r : Record} (hr : r ∈ s.records) :
  (ofSet s).get? r.toAddress = some r
  := by
  obtain ⟨-, hget, -⟩ := exact_ofSet hs
  rw [hget]
  apply hs.get?_eq_some_iff.mpr
  use hr
  rw [hs.holds.projected r hr]

/-- The record under the cursor has the address of the record that the last call of `next` gave. -/
theorem getLast?_returned (hstart : i.set.cursor = .start) (ops : List Operation) {p : Nat}
    (hp : (run ops i).set.cursor = .on p) :
  ∃ x, (returned ops i).getLast? = some (some x)
    ∧ (Record.addresses (run ops i).set.records)[p]? = some x.toAddress
  := by
  -- By induction on the end of the sequence, as the last call of `next` is what counts.
  induction ops using List.reverseRecOn with
  | nil =>
    rw [run, List.foldl_nil, hstart] at hp
    cases hp
  | append_singleton ops op ih =>
    rw [run_append] at hp ⊢
    rw [returned_append]
    generalize run ops i = j at *
    obtain rfl | ⟨hreturned, hkeeps | hreset⟩ := op.next_or_keeps_or_start j
    · change j.next.2.set.cursor = .on p at hp
      change ∃ x, (returned ops i ++ [j.next.1]).getLast? = _
        ∧ (Record.addresses j.next.2.set.records)[p]? = _
      rw [List.getLast?_concat]
      obtain ⟨q, r, hr, hnext⟩ | hnext := j.next_cases
      · rw [hnext] at hp ⊢
        obtain rfl : q = p := Cursor.on.inj hp
        refine ⟨r, rfl, ?_⟩
        rw [Record.getElem?_addresses]
        exact congrArg (Option.map Record.toAddress) hr
      · rw [hnext] at hp
        cases hp
    · change (op.apply j).set.cursor = .on p at hp
      obtain ⟨x, hlast, hx⟩ := ih (hkeeps.cursor_eq.symm.trans hp)
      refine ⟨x, ?_, ?_⟩
      · rw [returned, hreturned]
        simpa [returned] using hlast
      · exact hkeeps.addresses_eq ▸ hx
    · exact nomatch hreset.symm.trans hp

/-- What is given after the last record is none, as long as nothing resets the cursor. -/
theorem returned_of_done (hdone : i.set.cursor = .done) (ops : List Operation)
    (hreset : ∀ part, part <+: ops → (run part i).set.cursor ≠ .start) :
  ∀ r ∈ returned ops i, r = none
  := by
  induction ops generalizing i with
  | nil => simp [returned]
  | cons op ops ih =>
    have htail : ∀ part, part <+: ops → (run part (op.apply i)).set.cursor ≠ .start :=
      fun part hpart => hreset (op :: part) (List.cons_prefix_cons.mpr ⟨rfl, hpart⟩)
    rw [returned]
    obtain rfl | ⟨hreturned, hkeeps | hstart⟩ := op.next_or_keeps_or_start i
    · have hnext : Operation.next.apply i = i := congrArg Prod.snd (next_of_done hdone)
      have hnone : Operation.next.returned i = [none] :=
        congrArg (fun r => [r]) (congrArg Prod.fst (next_of_done hdone))
      rw [hnext] at htail ⊢
      rw [hnone]
      intro r hr
      obtain rfl | hr := List.mem_cons.mp hr
      · rfl
      · exact ih hdone htail r hr
    · rw [hreturned]
      exact ih (hkeeps.cursor_eq.trans hdone) htail
    · exact absurd hstart (htail [] List.nil_prefix)

/-- Quiet operations keep the addresses of the records, and the calls of `next` among them go from
address to address. -/
theorem QuietRun.walks {ops : List Operation} (h : QuietRun ops i) {k : Nat}
    (hk : i.set.cursor = .moved i.set.size k) :
  Record.addresses (run ops i).set.records = Record.addresses i.set.records
    ∧ (run ops i).set.cursor = .moved i.set.size (k + (returned ops i).length)
    ∧ (returned ops i).map (Option.map Record.toAddress)
      = (List.range' k (returned ops i).length).map fun n => (Record.addresses i.set.records)[n]?
  := by
  -- The number `k` of moves that are done grows with each call, so it varies in the induction.
  induction ops generalizing i k with
  | nil => exact ⟨rfl, hk, rfl⟩
  | cons op ops ih =>
    obtain ⟨hquiet, htail⟩ := h
    obtain rfl | ⟨hreturned, hkeeps⟩ := hquiet.next_or_keeps
    · let j := i.withCursor (.moved i.set.size (k + 1))
      have hnext : i.next = (i.set.records[k]?, j) := next_of_moved hk
      have happly : Operation.next.apply i = j := congrArg Prod.snd hnext
      have hreturned : returned (.next :: ops) i = i.set.records[k]? :: returned ops j := by
        rw [returned, happly]
        exact congrArg (· :: returned ops j) (congrArg Prod.fst hnext)
      have hrun : run (.next :: ops) i = run ops j := congrArg (run ops) happly
      rw [happly] at htail
      obtain ⟨haddresses, hcursor, hgiven⟩ := ih (k := k + 1) htail rfl
      rw [hreturned, hrun, List.length_cons]
      refine ⟨haddresses, ?_, ?_⟩
      · rw [hcursor, Nat.add_right_comm]
        rfl
      · rw [List.map_cons, hgiven, List.range'_succ, List.map_cons, Record.getElem?_addresses]
        rfl
    · have hreturned : returned (op :: ops) i = returned ops (op.apply i) := by
        rw [returned, hreturned, List.nil_append]
      have hk' : (op.apply i).set.cursor = .moved (op.apply i).set.size k := by
        rw [hkeeps.cursor_eq, hkeeps.size_eq, hk]
      obtain ⟨haddresses, hcursor, hgiven⟩ := ih htail hk'
      rw [hkeeps.addresses_eq] at haddresses hgiven
      rw [hkeeps.size_eq] at hcursor
      rw [hreturned]
      exact ⟨haddresses, hcursor, hgiven⟩

/-- The calls of `next` before the first one that gives none go over the addresses of all
records. -/
theorem QuietRun.walks_over {ops : List Operation} (h : QuietRun ops i)
    (hstart : i.set.cursor = .start) (hsome : ∀ r ∈ returned ops i, r.isSome)
    (hnone : (run ops i).next.1 = none) :
  ∃ given : List Record, returned ops i = given.map some
    ∧ Record.addresses given = Record.addresses i.set.records
  := by
  obtain ⟨haddresses, hcursor, hwalk⟩ := h.walks (k := 0) hstart
  obtain ⟨given, hgiven⟩ := exists_map_some hsome
  rw [← hgiven, List.length_map] at hcursor hwalk
  have hsize : (run ops i).set.size = i.set.size := by
    rw [RecordSet.size, ← Record.length_addresses, haddresses, Record.length_addresses]
    rfl
  rw [← hsize, Nat.zero_add] at hcursor
  rw [next_of_moved hcursor] at hnone
  have hall : i.set.size ≤ given.length := hsize ▸ List.getElem?_eq_none_iff.mp hnone
  refine ⟨given, hgiven.symm, ?_⟩
  apply List.ext_getElem?
  intro n
  by_cases hn : n < given.length
  · have hat := congrArg (fun l => l[n]?) hwalk
    simpa [Record.addresses, hn] using hat
  · have hn' : i.set.records.length ≤ n := hall.trans (Nat.le_of_not_lt hn)
    rw [Record.getElem?_addresses, Record.getElem?_addresses,
      List.getElem?_eq_none (Nat.le_of_not_lt hn), List.getElem?_eq_none hn']

/-- Walking over a set that operations have made, while it is edited. Whatever has been done to it, the
cursor is on a record only if that is the one which `next` gave last, as the set has it now. An
operation that adds, removes or moves records leaves the cursor before the first one. So if between a
rewind and the first call of `next` that gives none all other operations are quiet ones, then the calls
give each of the records once, in their order. From then on `next` gives none, until something resets
the cursor. -/
theorem cursor_sound (h : Reachable i) (before : List Operation) :
  let j := run before i
  i.set.cursor = .start
    ∧ (∀ p, j.set.cursor = .on p →
      p < j.set.size ∧ ∃ x r, (returned before i).getLast? = some (some x)
        ∧ j.get? x.toAddress = some r ∧ r.toAddress = x.toAddress
        ∧ j.set.records[p]? = some r ∧ j.set.current? = some r
        ∧ j.set.currentKey? = some x.key ∧ j.set.currentScore = r.score)
    ∧ j.next.2.set.current? = j.next.1
    ∧ (∀ op : Operation,
      Record.addresses (op.apply j).set.records ≠ Record.addresses j.set.records →
        (op.apply j).set.cursor = .start)
    ∧ (∀ walk, QuietRun walk j.rewind → (∀ r ∈ returned walk j.rewind, r.isSome) →
      (run walk j.rewind).next.1 = none →
        ∃ given : List Record, returned walk j.rewind = given.map some
          ∧ (given.map fun r => r.key) = (j.set.records.map fun r => r.key)
          ∧ Record.addresses given = Record.addresses j.set.records
          ∧ Record.addresses given = Record.addresses (run walk j.rewind).set.records
          ∧ (Record.addresses given).Nodup)
    ∧ (j.next.1 = none → ∀ more,
      (∀ part, part <+: more → (run part j.next.2).set.cursor ≠ .start) →
        ∀ r ∈ returned more j.next.2, r = none)
  := by
  intro j
  have hstart : i.set.cursor = .start := by
    obtain ⟨s, hs, rfl⟩ := exists_reachable h
    exact hs.cursor_eq
  obtain ⟨s, hs, hj⟩ : ∃ s : RecordSet, s.WellFormed ∧ j = ofSet s :=
    exists_wellFormed_run h before
  refine ⟨hstart, ?_, ?_, ?_, ?_, ?_⟩
  · intro p hp
    obtain ⟨x, hlast, hx⟩ := getLast?_returned hstart before hp
    rw [Record.getElem?_addresses] at hx
    obtain ⟨r, hr, hrx⟩ := Option.map_eq_some_iff.mp hx
    have hcurrent : j.set.current? = some r := by
      rw [RecordSet.current?, hp]
      exact hr
    have hget : j.get? x.toAddress = some r := by
      have hmem : r ∈ j.set.records := List.mem_of_getElem? hr
      rw [hj] at hmem
      rw [hj, ← hrx]
      exact get?_toAddress hs hmem
    refine ⟨(List.getElem?_eq_some_iff.mp hr).1, x, r, hlast, hget, hrx, hr, hcurrent, ?_, ?_⟩
    · rw [RecordSet.currentKey?, hcurrent, ← hrx]
      rfl
    · rw [RecordSet.currentScore, hcurrent]
      rfl
  · exact current?_next j
  · intro op hchanged
    obtain rfl | ⟨-, hkeeps | hreset⟩ := op.next_or_keeps_or_start j
    · exact absurd (congrArg Record.addresses (records_next j)) hchanged
    · exact absurd hkeeps.addresses_eq hchanged
    · exact hreset
  · intro walk hquiet hsome hnone
    obtain ⟨given, hgiven, haddresses⟩ := hquiet.walks_over rfl hsome hnone
    obtain ⟨hkept, -⟩ := hquiet.walks (k := 0) rfl
    refine ⟨given, hgiven, ?_, haddresses, haddresses.trans hkept.symm, ?_⟩
    · have hkeys := congrArg (List.map Address.key) haddresses
      rwa [Record.addresses, Record.addresses, List.map_map, List.map_map] at hkeys
    · rw [haddresses]
      change (Record.addresses j.set.records).Nodup
      rw [hj]
      exact hs.holds.distinct
  · intro hnone more hmore
    exact returned_of_done (cursor_next_of_none hnone) more hmore

/-- Two documents, of which the second one is hit once more when the cursor is on it. A third document
resets the cursor, and a walk in which grouping fails and nothing is subtracted goes over both. -/
theorem cursor_sound_documents :
  let i : IndexedSet := ofSet (((RecordSet.empty .documents).add ⟨.number 7, 1, 0⟩ 1).add
    ⟨.number 8, 1, 0⟩ 2)
  let before : List Operation := [.next, .next, .add ⟨.number 8, 5, 0⟩ 3]
  let walk : List Operation := [.next, .group 1, .mapScores fun s => s.plus 1, .next,
    .subtract (ofSet (.empty .documents))]
  let more : List Operation := [.next, .add ⟨.number 7, 2, 0⟩ 1, .next]
  let j := run before i
  Reachable i
    ∧ j.set.currentKey? = some (.number 8) ∧ j.set.currentScore = 5
    ∧ (j.add ⟨.number 9, 1, 0⟩ 1).set.cursor = .start
    ∧ QuietRun walk j.rewind
    ∧ (∃ given : List Record, returned walk j.rewind = given.map some
      ∧ (given.map fun r => r.key) = [.number 7, .number 8])
    ∧ ∀ r ∈ returned more j.next.2, r = none
  := by
  intro i before walk more j
  have hempty : Reachable (RecordSet.empty .documents) :=
    .ofShape (rfl : RecordSet.ofShape .documents = _)
  have hi : Reachable i := reachable_ofSet ((hempty.add _ _).add _ _)
  obtain ⟨-, hon, -, hreset, hwalk, hmore⟩ := cursor_sound hi before
  have hkept : (Operation.subtract (ofSet (.empty .documents))).Quiet
      (run (walk.take 4) j.rewind) := by
    rw [Operation.Quiet]
    decide
  have hquiet : QuietRun walk j.rewind :=
    ⟨trivial, ⟨_, _, rfl⟩, trivial, trivial, hkept, trivial⟩
  obtain ⟨-, x, r, hlast, -, -, hr, -, hkey, hscore⟩ := hon 1 rfl
  have hlast' : (returned before i).getLast? = some (some ⟨⟨.number 8, 0, 0⟩, 2, 1, []⟩) := by
    decide
  have hr' : j.set.records[1]? = some ⟨⟨.number 8, 0, 0⟩, 5, 2, []⟩ := by decide
  obtain rfl := Option.some.inj (Option.some.inj (hlast'.symm.trans hlast))
  obtain rfl := Option.some.inj (hr'.symm.trans hr)
  have hthird : (j.add ⟨.number 9, 1, 0⟩ 1).set.cursor = .start :=
    hreset (.add ⟨.number 9, 1, 0⟩ 1) (by decide)
  obtain ⟨given, hgiven, hkeys, -⟩ := hwalk walk hquiet (by decide) (by decide)
  have hboth : (j.set.records.map fun r => r.key) = [.number 7, .number 8] := by decide
  refine ⟨hi, hkey, hscore, hthird, hquiet, ⟨given, hgiven, hkeys.trans hboth⟩, ?_⟩
  apply hmore (by decide) more
  intro part hpart
  have hparts : ∀ part ∈ more.inits, (run part j.next.2).set.cursor ≠ .start := by decide
  exact hparts part ((List.mem_inits _ _).mpr hpart)

end IndexedSet

end Retrieval
