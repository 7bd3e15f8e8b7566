import Retrieval.Proofs.Session.Body
import Retrieval.Proofs.Session.Outcome

/-!
# Runs of sessions

A run of a session is a list of calls, each of which sends a fragment or asks for a response. What
is received in a run is, in order, what the completed statements come to on their own, as far as it
was asked for: it does not matter which queries the session has kept, which statements have failed,
and what was sent in the meantime.
-/

namespace Retrieval

/-! ### Results in responses -/

/-- A response tells a result, or tells nothing, and its flags tell its place in the block of a
statement. -/
structure Response.Tells (found : Option QueryResult) (quits : Bool) (place count : Nat)
    (r : Response) : Prop where
  value : r.value = .ok found
  flags : r.flags.Tells quits place count

theorem Response.tells_telling {found : Option QueryResult}
    (h : ∀ result ∈ found, result.count < UInt64.size) (quits : Bool) (place count : Nat) :
  (telling found (Flags.placed quits place count)).Tells found quits place count
  := by
  refine ⟨?_, Flags.tells_placed quits place count⟩
  cases found with
  | none => rfl
  | some result => exact value_compact (h result rfl) _

/-- The responses to a statement tell its results, one by one. The number of records of each must
fit a word of 64 bits. -/
theorem Statement.tells_outcomes {index : Index} {settings : Settings} {S : Statement}
    {results : List (Option QueryResult)} (hresults : S.results index settings = .ok results)
    (hcount : ∀ found ∈ results, ∀ result ∈ found, result.count < UInt64.size) :
  ∃ responses : List Response, S.outcomes index settings = responses.map .ok
    ∧ responses.length = results.length
    ∧ ∀ (i : Nat) (found : Option QueryResult) (r : Response),
      results[i]? = some found → responses[i]? = some r → r.Tells found S.quits i results.length
  := by
  refine ⟨Response.ofResults S.quits results, ?_, ?_, ?_⟩
  · rw [outcomes, responses, hresults]
    rfl
  · rw [Response.ofResults, List.length_mapIdx]
  · intro i found r hfound hr
    rw [Response.ofResults, List.getElem?_mapIdx, hfound] at hr
    obtain rfl := Option.some.inj hr
    apply Response.tells_telling (hcount found (List.mem_of_getElem? hfound))

namespace Session

/-! ### Calls -/

/-- A call of a session. -/
inductive Call where
  | send (fragment : String) (flags : Flags)
  | recv
deriving DecidableEq, Repr

/-- The session after a call. -/
def call (s : Session) : Call → Session
  | .send fragment flags => (s.send fragment flags).state
  | .recv => s.recv.state

/-- The statement that a call completes, if any. It waits behind all others then. -/
def completedBy (s : Session) : Call → List Statement
  | .send fragment flags =>
    match (s.send fragment flags).answer with
    | .ok true => (s.send fragment flags).state.statements.getLast?.toList
    | _ => []
  | .recv => []

/-- The answer to a call that asks for a response. -/
def receivedBy (s : Session) : Call → List (Except Error Response)
  | .send .. => []
  | .recv => [s.recv.answer]

/-- The session after a run of calls. -/
def after (s : Session) : List Call → Session
  | [] => s
  | c :: calls => (s.call c).after calls

/-- The statements that a run of calls completes, in order. -/
def completed (s : Session) : List Call → List Statement
  | [] => []
  | c :: calls => s.completedBy c ++ (s.call c).completed calls

/-- What is received in a run of calls, in order. -/
def received (s : Session) : List Call → List (Except Error Response)
  | [] => []
  | c :: calls => s.receivedBy c ++ (s.call c).received calls

theorem received_append (s : Session) (calls more : List Call) :
  s.received (calls ++ more) = s.received calls ++ (s.after calls).received more
  := by
  induction calls generalizing s with
  | nil => rfl
  | cons c calls ih => rw [List.cons_append, received, received, ih, List.append_assoc, after]

/-! ### Steps of a run -/

/-- Sending changes the statement that is being put together, and a statement that it completes
waits behind the others. -/
theorem exists_state_send (s : Session) (fragment : String) (flags : Flags) :
  ∃ draft, (s.send fragment flags).state
    = { s with draft, statements := s.statements ++ s.completedBy (.send fragment flags) }
  := by
  rw [completedBy, send]
  split
  · refine ⟨s.draft, ?_⟩
    simp [Turn.fail]
  · dsimp only
    split
    · refine ⟨some ((s.draft.getD .start).add fragment.toList (flags.has .quiet)), ?_⟩
      simp [Turn.pure]
    · refine ⟨none, ?_⟩
      simp

variable {index : Index} {settings : Settings} {s s' : Session}

/-- The session runs queries against an index as the settings say. What it has kept of them is what
would be read. -/
structure Sound (index : Index) (settings : Settings) (s : Session) : Prop where
  index_eq : s.index = index
  settings_eq : s.settings = settings
  cache_sound : s.cache.Sound settings.readOptions

theorem Sound.start (index : Index) (settings : Settings) :
  (start index settings).Sound index settings
  := ⟨rfl, rfl, by simp [QueryCache.Sound, Session.start]⟩

/-- What can be received, and the session after that. -/
inductive Receives (index : Index) (settings : Settings) (s : Session) :
    Except Error Response → Session → Prop where
  /-- The session has ended. -/
  | closed (hclosed : s.closed = true) : Receives index settings s (.error .sessionClosed) s
  /-- A response waits. -/
  | next {r : Response} {responses : List Response} (hopen : s.closed = false)
      (hresponses : s.responses = r :: responses) :
      Receives index settings s (.ok r) { s with responses }
  /-- Nothing waits. -/
  | nothing (hopen : s.closed = false) (hresponses : s.responses = [])
      (hstatements : s.statements = []) :
      Receives index settings s (.error .nothingPending) s
  /-- A statement is run, and its first response is received. -/
  | run {S : Statement} {statements : List Statement} {r : Response}
      {responses : List Response} {cache : QueryCache} (hopen : s.closed = false)
      (hresponses : s.responses = []) (hstatements : s.statements = S :: statements)
      (hS : S.responses index settings = .ok (r :: responses))
      (hcache : cache.Sound settings.readOptions) :
      Receives index settings s (.ok r) { s with statements, responses, cache, closed := S.quits }
  /-- A statement is run and fails. -/
  | fails {S : Statement} {statements : List Statement} {e : Error} {cache : QueryCache}
      (hopen : s.closed = false) (hresponses : s.responses = [])
      (hstatements : s.statements = S :: statements) (hS : S.responses index settings = .error e)
      (hcache : cache.Sound settings.readOptions) :
      Receives index settings s (.error e) { s with statements, cache }

theorem receives_recv (hvalid : settings.validate = .ok ()) (h : s.Sound index settings) :
  Receives index settings s s.recv.answer s.recv.state
  := by
  rw [recv]
  split
  · apply Receives.closed
    assumption
  rename_i hopen
  rw [Bool.not_eq_true] at hopen
  split
  · rename_i hempty
    have hresponses := List.isEmpty_iff.mp hempty
    cases hstatements : s.statements with
    | nil =>
      dsimp only
      rw [take, hresponses]
      apply Receives.nothing hopen hresponses hstatements
    | cons S statements =>
      obtain ⟨cache, hcache, hrun⟩ := runStatement_eq (s := { s with statements }) hvalid
        h.index_eq h.settings_eq h.cache_sound S
      dsimp only [Turn.andThen]
      cases hS : S.responses index settings with
      | error e =>
        rw [hS] at hrun
        obtain ⟨hanswer, hstate⟩ := hrun
        rw [hanswer, hstate]
        apply Receives.fails hopen hresponses hstatements hS hcache
      | ok responses =>
        rw [hS] at hrun
        obtain ⟨hanswer, hstate⟩ := hrun
        rw [hanswer, hstate]
        cases responses with
        | nil => exact absurd rfl (Statement.responses_ne_nil hvalid hS)
        | cons r responses =>
          have hclosed : (s.closed || S.quits) = S.quits := by rw [hopen, Bool.false_or]
          dsimp only [take, Turn.pure]
          rw [hclosed]
          apply Receives.run hopen hresponses hstatements hS hcache
  · rename_i hne
    cases hresponses : s.responses with
    | nil => exact absurd (List.isEmpty_iff.mpr hresponses) hne
    | cons r responses =>
      rw [take, hresponses]
      apply Receives.next hopen hresponses

theorem Receives.sound {answer : Except Error Response}
    (hreceives : Receives index settings s answer s') (h : s.Sound index settings) :
  s'.Sound index settings
  := by
  cases hreceives with
  | closed => exact h
  | next => exact ⟨h.index_eq, h.settings_eq, h.cache_sound⟩
  | nothing => exact h
  | run _ _ _ _ hcache => exact ⟨h.index_eq, h.settings_eq, hcache⟩
  | fails _ _ _ _ hcache => exact ⟨h.index_eq, h.settings_eq, hcache⟩

theorem Sound.call (hvalid : settings.validate = .ok ()) (h : s.Sound index settings) (c : Call) :
  (s.call c).Sound index settings
  := by
  cases c with
  | send fragment flags =>
    obtain ⟨draft, hstate⟩ := s.exists_state_send fragment flags
    rw [Session.call, hstate]
    exact ⟨h.index_eq, h.settings_eq, h.cache_sound⟩
  | recv => exact (receives_recv hvalid h).sound h

theorem Sound.after (hvalid : settings.validate = .ok ()) (h : s.Sound index settings)
    (calls : List Call) :
  (s.after calls).Sound index settings
  := by
  induction calls generalizing s with
  | nil => exact h
  | cons c calls ih => exact ih (h.call hvalid c)

/-! ### What is still to come -/

/-- Whether an answer tells anything: not if there was nothing to receive. -/
def tells : Except Error Response → Bool
  | .error .nothingPending => false
  | _ => true

/-- Something is told by a response, and by the failure of a text. -/
@[simp]
theorem tells_ok (r : Response) :
  tells (.ok r) = true
  := rfl

theorem tells_error {e : Error} (h : e.category = .invalidArgument) :
  tells (.error e) = true
  := by
  cases e with
  | nothingPending => cases h
  | _ => rfl

/-- What is still to come: the responses that wait, and what the statements that wait come to. -/
def pending (index : Index) (settings : Settings) (s : Session) : List (Except Error Response) :=
  s.responses.map .ok ++ s.statements.flatMap (Statement.outcomes index settings)

/-- An open session in which no statement waits that ends it. -/
structure Lasts (index : Index) (settings : Settings) (s : Session) : Prop
    extends s.Sound index settings where
  isOpen : s.closed = false
  statements_stay : ∀ S ∈ s.statements, S.quits = false

theorem Lasts.start (index : Index) (settings : Settings) :
  (start index settings).Lasts index settings
  := ⟨.start index settings, rfl, by simp [Session.start]⟩

/-- What is received is the first thing that was to come, and the rest is still to come. -/
theorem Receives.pending (hvalid : settings.validate = .ok ()) {answer : Except Error Response}
    (hreceives : Receives index settings s answer s') (h : s.Lasts index settings) :
  s'.Lasts index settings
    ∧ answer = (s.pending index settings).head?.getD (.error .nothingPending)
    ∧ [answer].filter tells ++ s'.pending index settings = s.pending index settings
  := by
  have hsound := hreceives.sound h.toSound
  cases hreceives with
  | closed hclosed =>
    rw [h.isOpen] at hclosed
    cases hclosed
  | next hopen hresponses =>
    refine ⟨⟨hsound, hopen, h.statements_stay⟩, ?_⟩
    simp [Session.pending, hresponses, List.filter_cons]
  | nothing hopen hresponses hstatements =>
    refine ⟨h, ?_⟩
    simp [Session.pending, hresponses, hstatements, tells]
  | run hopen hresponses hstatements hS =>
    obtain ⟨hstay, hstays⟩ := List.forall_mem_cons.mp (hstatements ▸ h.statements_stay)
    refine ⟨⟨hsound, hstay, hstays⟩, ?_⟩
    simp [Session.pending, hresponses, hstatements, Statement.outcomes, hS, List.filter_cons]
  | fails hopen hresponses hstatements hS =>
    obtain ⟨-, hstays⟩ := List.forall_mem_cons.mp (hstatements ▸ h.statements_stay)
    have htells := tells_error (Statement.category_of_responses hvalid hS)
    refine ⟨⟨hsound, hopen, hstays⟩, ?_⟩
    simp [Session.pending, hresponses, hstatements, Statement.outcomes, hS, htells]

/-- A call receives the first thing that was to come, if it is to receive anything, and what comes
of a statement that it completes comes last. -/
theorem Lasts.call (hvalid : settings.validate = .ok ()) (h : s.Lasts index settings) {c : Call}
    (hstay : ∀ S ∈ s.completedBy c, S.quits = false) :
  (s.call c).Lasts index settings
    ∧ (s.receivedBy c).filter tells ++ (s.call c).pending index settings
      = s.pending index settings
        ++ (s.completedBy c).flatMap (Statement.outcomes index settings)
  := by
  cases c with
  | send fragment flags =>
    have hsound := h.toSound.call hvalid (.send fragment flags)
    obtain ⟨draft, hstate⟩ := s.exists_state_send fragment flags
    rw [Session.call, hstate] at hsound ⊢
    refine ⟨⟨hsound, h.isOpen, ?_⟩, ?_⟩
    · intro S hS
      rcases List.mem_append.mp hS with hS | hS
      · exact h.statements_stay S hS
      · exact hstay S hS
    · simp [receivedBy, Session.pending]
  | recv =>
    obtain ⟨hlasts, -, hpending⟩ := (receives_recv hvalid h.toSound).pending hvalid h
    refine ⟨hlasts, ?_⟩
    rw [receivedBy, completedBy, List.flatMap_nil, List.append_nil]
    exact hpending

/-- In a run, what has been received and what is still to come is what was to come and what comes
of the statements that the run completes. -/
theorem Lasts.after (hvalid : settings.validate = .ok ()) (h : s.Lasts index settings)
    {calls : List Call} (hstay : ∀ S ∈ s.completed calls, S.quits = false) :
  (s.after calls).Lasts index settings
    ∧ (s.received calls).filter tells ++ (s.after calls).pending index settings
      = s.pending index settings
        ++ (s.completed calls).flatMap (Statement.outcomes index settings)
  := by
  induction calls generalizing s with
  | nil =>
    refine ⟨h, ?_⟩
    simp [received, Session.after, completed]
  | cons c calls ih =>
    obtain ⟨hfirst, hrest⟩ := List.forall_mem_append.mp hstay
    obtain ⟨hlasts, hcall⟩ := h.call hvalid hfirst
    obtain ⟨hend, hafter⟩ := ih hlasts hrest
    refine ⟨hend, ?_⟩
    rw [received, completed, Session.after, List.filter_append, List.append_assoc, hafter,
      ← List.append_assoc, hcall, List.append_assoc, List.flatMap_append]

/-! ### What is received -/

/-- A session comes to what its statements come to on their own. What is received in a run in which
no statement ends the session is, but for the failures of calls for which nothing waited, the
beginning of what the completed statements come to, in order. The next call for a response gives
what follows in it, or fails if nothing does. Where no query of a statement fails, its responses
tell what each of its queries finds. -/
theorem received_outcomes (hvalid : settings.validate = .ok ()) {calls : List Call}
    (hstay : ∀ S ∈ (start index settings).completed calls, S.quits = false) :
  (∃ rest,
    ((start index settings).received calls).filter tells ++ rest
        = ((start index settings).completed calls).flatMap (Statement.outcomes index settings)
      ∧ ((start index settings).after calls).recv.answer
        = rest.head?.getD (.error .nothingPending))
    ∧ ∀ S ∈ (start index settings).completed calls, ∀ results : List (Option QueryResult),
      S.results index settings = .ok results →
      (∀ found ∈ results, ∀ result ∈ found, result.count < UInt64.size) →
      ∃ responses : List Response, S.outcomes index settings = responses.map .ok
        ∧ responses.length = results.length
        ∧ ∀ (i : Nat) (found : Option QueryResult) (r : Response),
          results[i]? = some found → responses[i]? = some r →
          r.Tells found S.quits i results.length
  := by
  obtain ⟨hlasts, hafter⟩ := (Lasts.start index settings).after hvalid hstay
  obtain ⟨-, hnext, -⟩ := (receives_recv hvalid hlasts.toSound).pending hvalid hlasts
  refine ⟨⟨_, hafter, hnext⟩, ?_⟩
  intro S _ results hresults hcount
  exact Statement.tells_outcomes hresults hcount

/-- Responses are received while the next statement is put together, and a statement that fails is
followed by one that does not. No query is kept. The first response tells the one record that was
found, and the second one that nothing was. -/
theorem received_outcomes_interleaved :
  let settings : Settings := { Settings.standard with budget := 1, cacheSize := 0 }
  let index : Index := fun lookup => if lookup.term = "alpha" then [⟨⟨.number 7, 1, 0⟩, 1⟩] else []
  let s : Session := .start index settings
  let calls : List Call := [.send "alpha; ?" .none, .recv, .send "beta" .none, .recv,
    .send "alpha beta" .more, .recv, .send "; \"x y" .none, .recv, .recv, .send "" .quiet, .recv]
  let told := (s.received calls).filter tells
  let found : QueryResult := ⟨1, [⟨⟨.number 7, 0, 0⟩, 5, 1, []⟩]⟩
  settings.validate = .ok ()
    ∧ (∀ S ∈ s.completed calls, S.quits = false)
    ∧ told.map (fun answer => answer.toOption.map fun r => (r.flags.bits, r.value.toOption))
      = [some (5, some (some found)), some (2, some (some ⟨0, []⟩)), none, some (6, some none)]
    ∧ (∃ rest, told ++ rest = (s.completed calls).flatMap (Statement.outcomes index settings)
      ∧ (s.after calls).recv.answer = rest.head?.getD (.error .nothingPending))
    ∧ ∃ S ∈ s.completed calls, ∃ responses : List Response,
      S.outcomes index settings = responses.map .ok ∧ responses.length = 2
        ∧ ∀ r ∈ responses[0]?, r.Tells (some found) S.quits 0 2
  := by
  intro settings index s calls told found
  have hvalid : settings.validate = .ok () := rfl
  have hstay : ∀ S ∈ s.completed calls, S.quits = false := by decide +kernel
  obtain ⟨houtcomes, htells⟩ := received_outcomes hvalid hstay
  let S : Statement := ⟨"alpha; \"beta\"".toList, false⟩
  have hS : S ∈ s.completed calls := by decide +kernel
  have hresults : S.results index settings = .ok [some found, some ⟨0, []⟩] := by decide +kernel
  have hcount : ∀ result ∈ [some found, some ⟨0, []⟩], ∀ r ∈ result, r.count < UInt64.size := by
    decide
  obtain ⟨responses, hresponses, hlength, htell⟩ := htells S hS _ hresults hcount
  refine ⟨hvalid, hstay, ?_, houtcomes, S, hS, responses, hresponses, hlength, ?_⟩
  · decide +kernel
  · intro r hr
    apply htell 0 _ r rfl hr

end Session

end Retrieval
