import Retrieval.Evaluation
import Retrieval.Session.Cache
import Retrieval.Session.Endpoint
import Retrieval.Session.Statement

/-!
# Sessions

A session puts statements together from fragments and runs them against an index. A complete
statement waits until its first response is asked for; then all its queries are run, and their
results wait as responses. A statement with the query `quit` ends the session.
-/

namespace Retrieval

/-- A statement that is not complete yet. -/
structure Draft where
  template : Template
  /-- Whether the text so far ends between quotes. -/
  inQuotes : Bool
  quiet : Bool
deriving DecidableEq, Repr

namespace Draft

/-- Nothing yet. -/
def start : Draft :=
  ⟨⟨[], []⟩, false, false⟩

/-- Whether a value is needed next. -/
def awaitsValue (d : Draft) : Bool :=
  !d.template.afterPlaces.isEmpty

/-- The draft with more text. -/
def append (fragment : List Char) (d : Draft) : Draft :=
  let (more, quoted) := Template.ofChars d.inQuotes fragment
  { d with template := d.template.append more, inQuotes := quoted }

/-- The draft with one more fragment, which is a value if one is needed. -/
def add (fragment : List Char) (quiet : Bool) (d : Draft) : Draft :=
  let next :=
    if d.awaitsValue then { d with template := d.template.fill fragment }
    else d.append fragment
  { next with quiet := next.quiet || quiet }

end Draft

/-- A session against an index. -/
structure Session where
  index : Index
  settings : Settings
  /-- The statement that is being put together, if any. -/
  draft : Option Draft
  /-- The statements that are complete and have not been run, the first one first. -/
  statements : List Statement
  /-- The responses that have not been received, the first one first. -/
  responses : List Response
  cache : QueryCache
  closed : Bool

namespace Session

/-- A session in which nothing has happened. -/
def start (index : Index) (settings : Settings) : Session :=
  ⟨index, settings, none, [], [], [], false⟩

/-- A session in which nothing has happened, unless the settings let no query be run. -/
def ofSettings (index : Index) (settings : Settings) : Except Error Session := do
  settings.validate
  return start index settings

/-! ### Running statements -/

/-- Runs a query, and then what was left of it when it was read, as long as that is not blank.
Each run gives the body of a response. -/
def runQuery (index : Index) (settings : Settings) (cache : QueryCache) (text : String) :
    Turn QueryCache (List String) :=
  let read := QueryCache.read settings.readOptions settings.cacheSize.toNat text cache
  let cache := read.value.2
  match read.value.1 with
  | .error e => ⟨cache, .error e, read.remarks⟩
  | .ok q =>
    match (Executor.ofSettings index settings).execute q with
    | .error e => ⟨cache, .error e, read.remarks⟩
    | .ok found =>
      let body := (QueryResult.ofRecords found.records).toJson.compact
      let remarks := read.remarks ++ found.remarks
      if (Text.trim q.rest).isEmpty then ⟨cache, .ok [body], remarks⟩
      else if _h : q.rest.utf8ByteSize < text.utf8ByteSize then
        let next := runQuery index settings cache q.rest
        { state := next.state
          answer := next.answer.map (body :: ·)
          remarks := remarks ++ .continuing q.rest :: next.remarks }
      else ⟨cache, .error (.noProgress q.rest), remarks⟩
termination_by text.utf8ByteSize

/-- Runs queries up to the one that ends the session, and says whether there is such a one. -/
def runQueries (index : Index) (settings : Settings) (cache : QueryCache) :
    List String → Turn QueryCache (List String × Bool)
  | [] => .pure cache ([], false)
  | query :: queries =>
    if query = "quit" then .pure cache ([], true)
    else (runQuery index settings cache query).andThen fun cache bodies =>
      (runQueries index settings cache queries).map fun (more, quit) => (bodies ++ more, quit)

/-- The responses to a statement with the given results. There is at least one. -/
def respond (quiet quit : Bool) (bodies : List String) : List Response :=
  Response.block quit (if quiet ∨ bodies.isEmpty then [""] else bodies)

/-- Runs a statement, whose responses then wait to be received. A statement that fails gives
none. -/
def runStatement (s : Session) (statement : Statement) : Turn Session Unit :=
  let run := runQueries s.index s.settings s.cache (Statement.queries statement.text)
  let s := { s with cache := run.state }
  match run.answer with
  | .error e => ⟨s, .error e, run.remarks⟩
  | .ok (bodies, quit) =>
    let responses := respond statement.quiet quit bodies
    ⟨{ s with responses, closed := s.closed || quit }, .ok (), run.remarks⟩

/-! ### Exchanges -/

/-- Sends a fragment. The answer is whether it completes a statement. -/
def send (s : Session) (fragment : String) (flags : Flags) : Turn Session Bool :=
  if s.closed then .fail s .sessionClosed
  else
    let draft := (s.draft.getD .start).add fragment.toList (flags.has .quiet)
    if draft.awaitsValue ∨ flags.has .more then .pure { s with draft := some draft } false
    else
      let text := draft.template.start
      { state :=
          { s with draft := none, statements := s.statements ++ [⟨text, draft.quiet⟩] }
        answer := .ok true
        remarks := [.statementComplete (String.ofList text)] }

/-- Receives the first of the responses that wait. -/
def take (s : Session) : Turn Session Response :=
  match s.responses with
  | [] => .fail s .nothingPending
  | r :: responses => .pure { s with responses } r

/-- Receives a response, and runs the next statement first if no response waits. -/
def recv (s : Session) : Turn Session Response :=
  if s.closed then .fail s .sessionClosed
  else if s.responses.isEmpty then
    match s.statements with
    | [] => s.take
    | statement :: statements =>
      ({ s with statements }.runStatement statement).andThen fun s _ => s.take
  else s.take

/-! ### Sessions as endpoints -/

/-- What there is to receive: statements to run, and then responses. -/
def waiting (s : Session) : Nat × Nat :=
  (s.statements.length, s.responses.length)

theorem waiting_take {s : Session} {r : Response} (h : s.take.answer = .ok r) :
  PairLt s.take.state.waiting s.waiting
  := by
  unfold take at h ⊢
  split at h
  · cases h
  · rename_i responses hs
    have hw : s.waiting = (s.statements.length, responses.length + 1) := by simp [waiting, hs]
    rw [hw]
    apply Prod.Lex.right
    apply Nat.lt_succ_self

theorem statements_take (s : Session) :
  s.take.state.statements = s.statements
  := by
  unfold take
  split <;> rfl

theorem statements_runStatement (s : Session) (statement : Statement) :
  (s.runStatement statement).state.statements = s.statements
  := by
  unfold runStatement
  dsimp only
  split <;> rfl

/-- A response makes what there is to receive less. -/
theorem waiting_recv {s : Session} {r : Response} (h : s.recv.answer = .ok r) :
  PairLt s.recv.state.waiting s.waiting
  := by
  unfold recv at h ⊢
  split at h
  · cases h
  rename_i hclosed
  rw [if_neg hclosed]
  split at h
  · rename_i hempty
    rw [if_pos hempty]
    cases hs : s.statements with
    | nil =>
      rw [hs] at h
      exact waiting_take h
    | cons statement statements =>
      apply Prod.Lex.left
      have hrun := statements_runStatement { s with statements } statement
      simp only [Turn.andThen, hs]
      split
      · rw [statements_take, hrun]
        simp
      · rw [hrun]
        simp
  · rename_i hempty
    rw [if_neg hempty]
    exact waiting_take h

instance : Endpoint Session where
  send := send
  recv := recv
  waiting := waiting
  waiting_recv := waiting_recv

end Session

end Retrieval
