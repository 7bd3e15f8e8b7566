import Retrieval.Proofs.Session.Assembly
import Retrieval.Proofs.Session.Block

/-!
# Executing fragments

Executing fragments in a session drains as many blocks as statements are completed by them. What
waits already, and the responses of earlier statements, come first. So the fragments get the
responses of their own statements if nothing has waited, and those of earlier statements otherwise.
-/

namespace Retrieval

/-! ### Draining -/

namespace Turn

variable {σ α β : Type} {t : Turn σ α}

theorem andThen_of_ok {a : α} (h : t.answer = .ok a) (f : σ → α → Turn σ β) :
  (t.andThen f).answer = (f t.state a).answer ∧ (t.andThen f).state = (f t.state a).state
  := by
  rw [andThen, h]
  exact ⟨rfl, rfl⟩

theorem andThen_of_error {e : Error} (h : t.answer = .error e) (f : σ → α → Turn σ β) :
  (t.andThen f).answer = .error e ∧ (t.andThen f).state = t.state
  := by
  rw [andThen, h]
  exact ⟨rfl, rfl⟩

end Turn

/-- A response is received, and if more are to follow on it, these are drained. -/
theorem Endpoint.drain_eq {σ : Type} [Endpoint σ] (s : σ) :
  drain s = (recv s).andThen fun s r =>
    if r.flags.has .more then (drain s).map (r :: ·) else .pure s [r]
  := by
  rw [drain, Turn.andThen]
  dsimp only
  split
  · rename_i e h
    rw [h]
  · rename_i r h
    rw [h]
    dsimp only
    split
    · rfl
    · simp [Turn.pure]

/-- After all responses but the last one more are to follow. -/
def Response.Closes : List Response → Prop
  | [] => False
  | [r] => r.flags.has .more = false
  | r :: r' :: rs => r.flags.has .more = true ∧ Closes (r' :: rs)

/-- What is left of the responses to a statement ends with the last one of them. -/
theorem Statement.closes_of_responses {index : Index} {settings : Settings} {S : Statement}
    {before rs : List Response} (h : S.responses index settings = .ok (before ++ rs))
    (hne : rs ≠ []) :
  Response.Closes rs
  := by
  induction rs generalizing before with
  | nil => exact absurd rfl hne
  | cons r rs ih =>
    have hmore := (flags_of_responses h (i := before.length) (r := r) (by simp)).more
    cases rs with
    | nil => simpa [Response.Closes] using hmore
    | cons r' rs =>
      refine ⟨hmore.mpr ?_, @ih (before ++ [r]) ?_ (by simp)⟩
      · simp
      · rw [h, List.append_assoc, List.singleton_append]

namespace Session

variable {index : Index} {settings : Settings} {s : Session}

/-- What there is to receive, block by block: the responses that wait, and what the statements that
wait come to. -/
def blocks (index : Index) (settings : Settings) (s : Session) :
    List (Except Error (List Response)) :=
  (if s.responses = [] then [] else [.ok s.responses])
    ++ s.statements.map (Statement.responses index settings)

/-- The responses that wait end with the last one of a statement. -/
structure Framed (index : Index) (settings : Settings) (s : Session) : Prop
    extends s.Sound index settings where
  closes : s.responses ≠ [] → Response.Closes s.responses

theorem framed_after (hvalid : settings.validate = .ok ()) (calls : List Call) :
  ((start index settings).after calls).Framed index settings
  := by
  have hsound : (start index settings).Sound index settings := .start index settings
  refine ⟨hsound.after hvalid calls, fun hne => ?_⟩
  cases (Delivers.start index settings).after hvalid hsound calls with
  | nothing _ hresponses => exact absurd hresponses hne
  | block _ _ hblock =>
    have hblock := Statement.responses_of_block hblock (List.append_ne_nil_of_right_ne_nil _ hne)
    exact Statement.closes_of_responses hblock hne

/-- What draining an open session gives, and the session after that. -/
inductive Drains (index : Index) (settings : Settings) (s : Session) :
    Except Error (List Response) → Session → Prop where
  /-- Responses wait. -/
  | waiting (hne : s.responses ≠ []) :
      Drains index settings s (.ok s.responses) { s with responses := [] }
  /-- Nothing waits. -/
  | nothing (hresponses : s.responses = []) (hstatements : s.statements = []) :
      Drains index settings s (.error .nothingPending) s
  /-- A statement is run. -/
  | run {S : Statement} {statements : List Statement} {responses : List Response}
      {cache : QueryCache} (hresponses : s.responses = [])
      (hstatements : s.statements = S :: statements)
      (hS : S.responses index settings = .ok responses)
      (hcache : cache.Sound settings.readOptions) :
      Drains index settings s (.ok responses)
        { s with statements, responses := [], cache, closed := S.quits }
  /-- A statement is run and fails. -/
  | fails {S : Statement} {statements : List Statement} {e : Error} {cache : QueryCache}
      (hresponses : s.responses = []) (hstatements : s.statements = S :: statements)
      (hS : S.responses index settings = .error e) (hcache : cache.Sound settings.readOptions) :
      Drains index settings s (.error e) { s with statements, cache }
  /-- A statement is run and ends the session before all of its responses have been received. -/
  | cut {S : Statement} {statements : List Statement} {s' : Session}
      (hresponses : s.responses = []) (hstatements : s.statements = S :: statements)
      (hquits : S.quits = true) :
      Drains index settings s (.error .sessionClosed) s'

theorem drain_eq (s : Session) :
  Endpoint.drain s = s.recv.andThen fun s r =>
    if r.flags.has .more then (Endpoint.drain s).map (r :: ·) else .pure s [r]
  := Endpoint.drain_eq s

/-- Responses that wait in an open session are drained. -/
theorem drain_waiting (hopen : s.closed = false) (h : Response.Closes s.responses) :
  (Endpoint.drain s).answer = .ok s.responses
    ∧ (Endpoint.drain s).state = { s with responses := [] }
  := by
  generalize hrs : s.responses = rs at h
  induction rs generalizing s with
  | nil => cases h
  | cons r rs ih =>
    have hrecv : s.recv = .pure { s with responses := rs } r := by
      rw [recv, if_neg (by simp [hopen]), hrs, if_neg (by simp), take, hrs]
    have hdrain := drain_eq s
    rw [hrecv] at hdrain
    obtain ⟨hanswer, hstate⟩ := Turn.andThen_of_ok (t := .pure { s with responses := rs } r) rfl _
    rw [hdrain, hanswer, hstate]
    cases rs with
    | nil =>
      rw [if_neg (by simpa [Response.Closes] using h)]
      exact ⟨rfl, rfl⟩
    | cons r' rs =>
      obtain ⟨hmore, hcloses⟩ := h
      obtain ⟨hrest, hrest'⟩ := ih (s := { s with responses := r' :: rs }) hopen rfl hcloses
      rw [if_pos hmore]
      dsimp only [Turn.map, Turn.pure]
      rw [hrest, hrest']
      exact ⟨rfl, rfl⟩

theorem drain_closed (h : s.closed = true) :
  (Endpoint.drain s).answer = .error .sessionClosed
  := by
  rw [drain_eq, recv, if_pos h]
  rfl

theorem drains_drain (hvalid : settings.validate = .ok ()) (h : s.Framed index settings)
    (hopen : s.closed = false) :
  Drains index settings s (Endpoint.drain s).answer (Endpoint.drain s).state
  := by
  by_cases hne : s.responses = []
  · have hreceives := receives_recv hvalid h.toSound
    rw [drain_eq]
    generalize s.recv = t at hreceives
    obtain ⟨state, answer, remarks⟩ := t
    dsimp only at hreceives
    cases hreceives with
    | closed hclosed =>
      rw [hopen] at hclosed
      cases hclosed
    | next _ hresponses =>
      rw [hne] at hresponses
      cases hresponses
    | nothing _ _ hstatements => exact .nothing hne hstatements
    | fails _ _ hstatements hS hcache => exact .fails hne hstatements hS hcache
    | @run S statements r responses cache _ _ hstatements hS hcache =>
      have hcloses := @Statement.closes_of_responses _ _ S [] (r :: responses) hS (by simp)
      rw [Turn.andThen]
      dsimp only
      cases responses with
      | nil =>
        rw [if_neg (by simpa [Response.Closes] using hcloses)]
        exact .run hne hstatements hS hcache
      | cons r' responses =>
        obtain ⟨hmore, hcloses⟩ := hcloses
        rw [if_pos hmore]
        dsimp only [Turn.map]
        cases hquits : S.quits with
        | true =>
          -- The session has ended with the first response, and the next one is not received.
          rw [drain_closed rfl]
          exact .cut hne hstatements hquits
        | false =>
          obtain ⟨hrest, hrest'⟩ := drain_waiting
            (s := { s with statements, responses := r' :: responses, cache, closed := false })
            rfl hcloses
          rw [hrest, hrest', ← hquits]
          exact .run hne hstatements hS hcache
  · obtain ⟨hanswer, hstate⟩ := drain_waiting hopen (h.closes hne)
    rw [hanswer, hstate]
    exact .waiting hne

/-- What an open session drains is its first block, and the other blocks are left. -/
theorem Drains.blocks {b : List Response} {s' : Session}
    (hdrains : Drains index settings s (.ok b) s') (h : s.Framed index settings) :
  s.blocks index settings = .ok b :: s'.blocks index settings
    ∧ s'.Framed index settings ∧ s'.draft = s.draft
  := by
  cases hdrains with
  | waiting hne =>
    refine ⟨?_, ⟨⟨h.index_eq, h.settings_eq, h.cache_sound⟩, fun hnil => absurd rfl hnil⟩, rfl⟩
    simp [Session.blocks, hne]
  | run hresponses hstatements hS hcache =>
    refine ⟨?_, ⟨⟨h.index_eq, h.settings_eq, hcache⟩, fun hnil => absurd rfl hnil⟩, rfl⟩
    simp [Session.blocks, hresponses, hstatements, hS]

/-- Where no statement ends the session, draining gives the first block as it is. -/
theorem Drains.head {answer : Except Error (List Response)} {s' : Session}
    (hdrains : Drains index settings s answer s') (hopen : s.closed = false)
    (hstay : ∀ S ∈ s.statements, S.quits = false) :
  answer = (s.blocks index settings).head?.getD (.error .nothingPending)
    ∧ (s'.closed = false) ∧ s'.statements ⊆ s.statements
  := by
  cases hdrains with
  | waiting hne => exact ⟨by simp [Session.blocks, hne], hopen, List.Subset.refl _⟩
  | nothing hresponses hstatements =>
    exact ⟨by simp [Session.blocks, hresponses, hstatements], hopen, List.Subset.refl _⟩
  | run hresponses hstatements hS =>
    rw [hstatements] at hstay ⊢
    refine ⟨?_, hstay _ List.mem_cons_self, List.subset_cons_self _ _⟩
    simp [Session.blocks, hresponses, hstatements, hS]
  | fails hresponses hstatements hS =>
    refine ⟨?_, hopen, ?_⟩
    · simp [Session.blocks, hresponses, hstatements, hS]
    · rw [hstatements]
      exact List.subset_cons_self _ _
  | cut _ hstatements hquits =>
    rw [hstatements] at hstay
    rw [hstay _ List.mem_cons_self] at hquits
    cases hquits

/-! ### Sending without flags -/

/-- A draft, if there is one, with one more fragment. -/
def next (draft : Option Draft) (fragment : String) : Draft :=
  (draft.getD .start).add fragment.toList false

/-- What fragments make of a draft, and the statements that they complete. -/
def assembled (draft : Option Draft) : List String → Option Draft × List Statement
  | [] => (draft, [])
  | fragment :: fragments =>
    let d := next draft fragment
    if d.awaitsValue then assembled (some d) fragments
    else
      let (draft, statements) := assembled none fragments
      (draft, ⟨d.template.start, d.quiet⟩ :: statements)

theorem settle_of_awaits {d : Draft} (h : d.awaitsValue = true) (s : Session) :
  s.settle d = { s with draft := some d }
  := if_pos h

theorem settle_of_not_awaits {d : Draft} (h : ¬(d.awaitsValue = true)) (s : Session) :
  s.settle d
    = { s with draft := none, statements := s.statements ++ [⟨d.template.start, d.quiet⟩] }
  := if_neg h

theorem closed_settle (s : Session) (d : Draft) :
  (s.settle d).closed = s.closed
  := by
  rw [settle]
  split <;> rfl

theorem Framed.settle (h : s.Framed index settings) (d : Draft) :
  (s.settle d).Framed index settings
  := by
  rw [Session.settle]
  split <;> exact ⟨⟨h.index_eq, h.settings_eq, h.cache_sound⟩, h.closes⟩

/-- A statement that is completed waits behind all others. -/
theorem blocks_settle {d : Draft} (h : ¬(d.awaitsValue = true)) (s : Session)
    (done : List Statement) :
  s.blocks index settings
      ++ (⟨d.template.start, d.quiet⟩ :: done).map (Statement.responses index settings)
    = (s.settle d).blocks index settings ++ done.map (Statement.responses index settings)
  := by
  rw [settle_of_not_awaits h, blocks, blocks]
  simp

/-- A fragment without flags completes a statement unless a value is awaited then. -/
theorem send_none (hopen : s.closed = false) (fragment : String) :
  (s.send fragment .none).answer = .ok (!(next s.draft fragment).awaitsValue)
    ∧ (s.send fragment .none).state = s.settle (next s.draft fragment)
  := by
  refine ⟨?_, state_send hopen fragment rfl⟩
  have hquiet : Flags.none.has .quiet = false := rfl
  have hmore : Flags.none.has .more = false := rfl
  rw [send, if_neg (by simp [hopen]), next, hquiet, hmore]
  simp only [Bool.false_eq_true, or_false]
  split
  · rename_i hawaits
    rw [hawaits]
    rfl
  · rename_i hawaits
    rw [eq_false_of_ne_true hawaits]
    rfl

/-- What fragments make of the draft of an open session that they are sent to. -/
theorem assembled_eq (hopen : s.closed = false) (fragments : List String) :
  assembled s.draft fragments
    = ((s.after (fragments.map fun fragment => .send fragment .none)).draft,
      s.completed (fragments.map fun fragment => .send fragment .none))
  := by
  induction fragments generalizing s with
  | nil => rfl
  | cons fragment fragments ih =>
    have hrest := ih (s := s.settle (next s.draft fragment)) (by rwa [closed_settle])
    obtain ⟨hanswer, hstate⟩ := send_none hopen fragment
    rw [assembled, List.map_cons, after, completed, completedBy, call, hanswer, hstate]
    dsimp only
    split
    · rename_i hawaits
      rw [settle_of_awaits hawaits] at hrest ⊢
      rw [hrest, hawaits]
      rfl
    · rename_i hawaits
      rw [settle_of_not_awaits hawaits] at hrest ⊢
      rw [hrest, eq_false_of_ne_true hawaits]
      simp

/-! ### Executing -/

/-- A fragment that completes no statement is sent, and nothing is drained. -/
theorem execFrom_of_awaits (hopen : s.closed = false) {fragment : String}
    (h : (next s.draft fragment).awaitsValue = true) (isOpen : Bool) (fragments : List String) :
  (Endpoint.execFrom isOpen s (fragment :: fragments)).answer
    = (Endpoint.execFrom true (s.settle (next s.draft fragment)) fragments).answer
  := by
  obtain ⟨hanswer, hstate⟩ := send_none hopen fragment
  rw [h] at hanswer
  rw [← hstate]
  exact (Turn.andThen_of_ok hanswer _).1

/-- A fragment that completes a statement is sent, and a block is drained. -/
theorem execFrom_of_not_awaits (hopen : s.closed = false) {fragment : String}
    (h : ¬((next s.draft fragment).awaitsValue = true)) (isOpen : Bool)
    (fragments : List String) :
  let drained := Endpoint.drain (s.settle (next s.draft fragment))
  (Endpoint.execFrom isOpen s (fragment :: fragments)).answer
    = drained.answer.bind fun b =>
      (Endpoint.execFrom false drained.state fragments).answer.map (b ++ ·)
  := by
  intro drained
  obtain ⟨hanswer, hstate⟩ := send_none hopen fragment
  rw [eq_false_of_ne_true h] at hanswer
  have hexec := (Turn.andThen_of_ok hanswer fun s ready =>
    if ready then
      (Endpoint.drain s).andThen fun s responses =>
        (Endpoint.execFrom false s fragments).map (responses ++ ·)
    else Endpoint.execFrom true s fragments).1
  rw [hstate] at hexec
  refine Eq.trans hexec ?_
  change (drained.andThen fun s responses =>
    (Endpoint.execFrom false s fragments).map (responses ++ ·)).answer = _
  cases hdrained : drained.answer with
  | error e => exact (Turn.andThen_of_error hdrained _).1
  | ok b => exact (Turn.andThen_of_ok hdrained _).1

theorem execFrom_of_closed (hclosed : s.closed = true) (isOpen : Bool) (fragment : String)
    (fragments : List String) :
  (Endpoint.execFrom isOpen s (fragment :: fragments)).answer = .error .sessionClosed
  := by
  have hsend : s.send fragment .none = .fail s .sessionClosed := by rw [send, if_pos hclosed]
  have hanswer : (Endpoint.send s fragment .none).answer = .error .sessionClosed :=
    congrArg Turn.answer hsend
  exact (Turn.andThen_of_error hanswer _).1

/-- If executing fragments succeeds, it gives as many blocks as they complete statements. -/
theorem execFrom_of_ok (hvalid : settings.validate = .ok ()) (h : s.Framed index settings)
    {isOpen : Bool} {fragments : List String} {rs : List Response}
    (hrs : (Endpoint.execFrom isOpen s fragments).answer = .ok rs) :
  let done := (assembled s.draft fragments).2
  ∃ bs : List (List Response),
    (s.blocks index settings ++ done.map (Statement.responses index settings)).take done.length
        = bs.map .ok
      ∧ rs = bs.flatten
  := by
  induction fragments generalizing s isOpen rs with
  | nil =>
    refine ⟨[], rfl, ?_⟩
    cases isOpen with
    | true => cases hrs
    | false => exact (Except.ok.inj hrs).symm
  | cons fragment fragments ih =>
    by_cases hclosed : s.closed = true
    · rw [execFrom_of_closed hclosed] at hrs
      cases hrs
    have hopen := eq_false_of_ne_true hclosed
    have hframed := h.settle (next s.draft fragment)
    rw [assembled]
    dsimp only
    split
    · rename_i hawaits
      rw [execFrom_of_awaits hopen hawaits] at hrs
      have hrest := ih hframed hrs
      rwa [settle_of_awaits hawaits] at hrest
    · rename_i hawaits
      have hdrains := drains_drain hvalid hframed (by rwa [closed_settle])
      rw [execFrom_of_not_awaits hopen hawaits] at hrs
      generalize Endpoint.drain (s.settle (next s.draft fragment)) = drained at hdrains hrs
      obtain ⟨state, answer, remarks⟩ := drained
      -- What is drained is the first block of all, and the new statement is the last one.
      cases answer with
      | error e => cases hrs
      | ok b =>
        obtain ⟨hblocks, hframed', hdraft⟩ := hdrains.blocks hframed
        rw [settle_of_not_awaits hawaits] at hdraft
        change ((Endpoint.execFrom false state fragments).answer.map (b ++ ·)) = .ok rs at hrs
        cases hrest : (Endpoint.execFrom false state fragments).answer with
        | error e =>
          rw [hrest] at hrs
          cases hrs
        | ok rest =>
          rw [hrest] at hrs
          obtain ⟨bs, hbs, rfl⟩ := ih hframed' hrest
          refine ⟨b :: bs, ?_, (Except.ok.inj hrs).symm⟩
          rw [hdraft] at hbs
          rw [blocks_settle hawaits, hblocks, List.length_cons, List.cons_append,
            List.take_succ_cons, hbs, List.map_cons]

/-- Where no statement ends the session, executing fragments gives as many blocks as they complete
statements, and fails where one of these fails or the last fragment leaves a statement open. -/
theorem execFrom_eq (hvalid : settings.validate = .ok ()) (h : s.Framed index settings)
    (hopen : s.closed = false) (fragments : List String)
    (hstay : ∀ S ∈ s.statements ++ (assembled s.draft fragments).2, S.quits = false) :
  let (draft, done) := assembled s.draft fragments
  (Endpoint.execFrom s.draft.isSome s fragments).answer
    = (((s.blocks index settings ++ done.map (Statement.responses index settings)).take
        done.length).mapM id).bind fun bs =>
      if draft.isSome then .error .nothingCompleted else .ok bs.flatten
  := by
  induction fragments generalizing s with
  | nil =>
    rw [assembled, Endpoint.execFrom]
    cases s.draft <;> rfl
  | cons fragment fragments ih =>
    have hframed := h.settle (next s.draft fragment)
    rw [assembled] at hstay ⊢
    by_cases hawaits : (next s.draft fragment).awaitsValue = true
    · simp only [if_pos hawaits] at hstay ⊢
      rw [execFrom_of_awaits hopen hawaits]
      have hrest := ih hframed (by rwa [closed_settle])
      rw [settle_of_awaits hawaits] at hrest ⊢
      exact hrest hstay
    · simp only [if_neg hawaits] at hstay ⊢
      have hdrains := drains_drain hvalid hframed (by rwa [closed_settle])
      have hstays : (∀ S ∈ (s.settle (next s.draft fragment)).statements, S.quits = false)
          ∧ ∀ S ∈ (assembled none fragments).2, S.quits = false := by
        rw [settle_of_not_awaits hawaits, ← List.forall_mem_append, List.append_assoc,
          List.singleton_append]
        exact hstay
      obtain ⟨hhead, hopen', hsubset⟩ := hdrains.head (by rwa [closed_settle]) hstays.1
      rw [execFrom_of_not_awaits hopen hawaits, blocks_settle hawaits, List.length_cons]
      generalize Endpoint.drain (s.settle (next s.draft fragment)) = drained at *
      obtain ⟨state, answer, remarks⟩ := drained
      cases answer with
      | error e =>
        have hne : (s.settle (next s.draft fragment)).blocks index settings ≠ [] := by
          rw [settle_of_not_awaits hawaits, blocks]
          simp
        obtain ⟨x, xs, hblocks⟩ := List.exists_cons_of_ne_nil hne
        rw [hblocks] at hhead ⊢
        obtain rfl : Except.error e = x := hhead
        rfl
      | ok b =>
        obtain ⟨hblocks, hframed', hdraft⟩ := hdrains.blocks hframed
        rw [settle_of_not_awaits hawaits] at hdraft
        have hrest := ih hframed' hopen'
        rw [show state.draft = none from hdraft] at hrest
        have hrest := hrest (List.forall_mem_append.mpr
          ⟨fun S hS => hstays.1 S (hsubset hS), hstays.2⟩)
        rw [hblocks, List.cons_append, List.take_succ_cons, List.mapM_cons]
        change (Endpoint.execFrom false state fragments).answer.map (b ++ ·) = _
        rw [show (Endpoint.execFrom false state fragments).answer = _ from hrest]
        cases (((state.blocks index settings ++ (assembled none fragments).2.map
          (Statement.responses index settings)).take (assembled none fragments).2.length).mapM
            id) with
        | error e => rfl
        | ok bs =>
          cases (assembled none fragments).1 <;> rfl

/-- Executing fragments in an open session gives one block for each statement that they complete.
The blocks are the first ones of those that have waited and those of the completed statements. If no
statement ends the session and none of the blocks fails, executing succeeds, unless the last
fragment leaves a statement open. If nothing has waited, the blocks are those of the completed
statements. -/
theorem exec_answer (hvalid : settings.validate = .ok ()) {calls : List Call}
    (hopen : ((start index settings).after calls).closed = false) (fragments : List String) :
  let s := (start index settings).after calls
  let sends := fragments.map fun fragment => Call.send fragment .none
  let own := (s.completed sends).map (Statement.responses index settings)
  let first := (s.blocks index settings ++ own).take own.length
  (∀ rs, (Endpoint.exec s fragments).answer = .ok rs →
      ∃ bs : List (List Response), first = bs.map .ok ∧ rs = bs.flatten)
    ∧ ((∀ S ∈ s.statements ++ s.completed sends, S.quits = false) →
      (Endpoint.exec s fragments).answer = (first.mapM id).bind fun bs =>
        if fragments = [] ∨ (s.after sends).draft.isSome then .error .nothingCompleted
        else .ok bs.flatten)
    ∧ (s.responses = [] → s.statements = [] → first = own)
  := by
  intro s sends own first
  have hframed : s.Framed index settings := framed_after hvalid calls
  have hassembled : assembled s.draft fragments = _ := assembled_eq hopen fragments
  have hlength : own.length = (s.completed sends).length := List.length_map _
  refine ⟨?_, ?_, ?_⟩
  · intro rs hrs
    have hblocks := execFrom_of_ok hvalid hframed hrs
    rw [hassembled] at hblocks
    dsimp only at hblocks
    rwa [← hlength] at hblocks
  · intro hstay
    cases fragments with
    | nil => rfl
    | cons fragment fragments =>
      have hexec := execFrom_eq hvalid hframed hopen (fragment :: fragments)
        (by rwa [hassembled])
      rw [hassembled] at hexec
      dsimp only at hexec
      rw [← hlength] at hexec
      simp only [reduceCtorEq, false_or]
      exact hexec
  · intro hresponses hstatements
    change (s.blocks index settings ++ own).take own.length = own
    rw [blocks, hresponses, hstatements, if_pos rfl, List.map_nil, List.nil_append,
      List.nil_append, List.take_length]

/-- A response waits, and the fragments complete two statements, the first of which has been begun
before. They get this response and the one to the first statement. -/
theorem exec_answer_waiting :
  let index : Index := fun lookup => if lookup.term = "alpha" then [⟨⟨.number 7, 1, 0⟩, 1⟩] else []
  let s := (start index .standard).after [.send "alpha; beta" .none, .recv, .send "alpha ?" .none]
  let sends : List Call := [.send "x" .none, .send "beta" .none]
  Settings.standard.validate = .ok () ∧ s.closed = false
    ∧ (∀ S ∈ s.statements ++ s.completed sends, S.quits = false)
    ∧ s.completed sends = [⟨"alpha \"x\"".toList, false⟩, ⟨"beta".toList, false⟩]
    ∧ (Endpoint.exec s ["x", "beta"]).answer.toOption.map (List.map Response.flags)
      = some [.tail, Flags.tail.union .head]
  := by
  intro index s sends
  have hvalid : Settings.standard.validate = .ok () := rfl
  have hopen : s.closed = false := by decide +kernel
  have hstay : ∀ S ∈ s.statements ++ s.completed sends, S.quits = false := by decide +kernel
  refine ⟨hvalid, hopen, hstay, by decide +kernel, ?_⟩
  have hexec := (exec_answer hvalid hopen ["x", "beta"]).2.1 hstay
  change (Endpoint.exec s ["x", "beta"]).answer = _ at hexec
  rw [hexec]
  decide +kernel

/-- A statement waits, and the fragments complete another one. They get the response to the first
one. -/
theorem exec_gives_waiting :
  let index : Index := fun lookup => if lookup.term = "alpha" then [⟨⟨.number 7, 1, 0⟩, 1⟩] else []
  let s := (start index .standard).after [.send "alpha" .none]
  let alpha := Statement.responses index .standard ⟨"alpha".toList, false⟩
  let beta := Statement.responses index .standard ⟨"beta".toList, false⟩
  s.closed = false ∧ s.draft = none
    ∧ s.completed [.send "beta" .none] = [⟨"beta".toList, false⟩]
    ∧ (Endpoint.exec s ["beta"]).answer = alpha ∧ alpha.toOption.isSome = true ∧ alpha ≠ beta
  := by
  intro index s alpha beta
  have hvalid : Settings.standard.validate = .ok () := rfl
  have hframed : s.Framed index .standard := framed_after hvalid _
  have hne : alpha.toOption ≠ beta.toOption := by decide +kernel
  refine ⟨rfl, rfl, by decide +kernel, ?_, by decide +kernel, ne_of_apply_ne Except.toOption hne⟩
  have hexec := execFrom_eq hvalid hframed rfl ["beta"] (by decide +kernel)
  refine Eq.trans hexec ?_
  change ([alpha].mapM id).bind (fun bs => Except.ok bs.flatten) = alpha
  cases alpha with
  | error e => rfl
  | ok rs => exact congrArg Except.ok (List.append_nil rs)

end Session

end Retrieval
