import Retrieval.Cli.Input
import Retrieval.Cli.Terminal
import Retrieval.Evaluation
import Retrieval.RecordSet.Order
import Retrieval.Session.Basic

/-!
# Commands

The program parses a query, runs a query against documents, runs the statements that are typed
in, or serves sessions.
-/

namespace Retrieval.Cli

/-! ### Parsing a query -/

/-- The query as it was read, and what was left of it. -/
def showQuery (q : Query) : List Segment :=
  .plain (q.toJson.pretty ++ "\n")
    :: if q.rest.isEmpty then [] else [.styled ⟨.red, true⟩ "rest:", .plain s!" {q.rest}\n"]

/-- Parses a query and shows it. -/
def parseQuery (source : SettingsSource) (words : List String) : Attempt (List Segment) := do
  let settings ← loadSettings source
  let q ← Attempt.ofNoted (Query.read settings.readOptions (" ".intercalate words))
  return showQuery q

/-! ### Running a query -/

/-- Where in its document a record lies. -/
def showPlace (unit : Granularity) (r : Record) : String :=
  match unit with
  | .perSection => s!":{r.sectionNo.toNat}"
  | .perPosition => s!":{r.sectionNo.toNat}:{r.position.toNat}"
  | _ => ""

/-- The line for a record. -/
def showRecord (unit : Granularity) (r : Record) : List Segment :=
  [.styled ⟨.magenta, true⟩ r.key.display, .plain (showPlace unit r),
    .styled ⟨.green, false⟩ s!"  {r.score.toInt}",
    .plain ((if 1 < r.hits then s!"  ({r.hits.toNat} hits)" else "") ++ "\n")]

/-- The line after the records. -/
def showCount (found shown : Nat) : Segment :=
  .styled ⟨.cyan, false⟩
    (if shown < found then s!"-- {found} hits ({shown} shown)\n" else s!"-- {found} hits\n")

/-- How a query is run and its result shown. -/
structure QueryChoices where
  defaultOperator : Option Operator
  budget : Option UInt32
  direction : Direction
  /-- How many records are shown, or zero for all of them. -/
  limit : Nat
  /-- Whether records are put together by document. -/
  grouped : Bool
deriving DecidableEq, Repr

/-- The settings after the choices for one query. -/
def QueryChoices.apply (choices : QueryChoices) (settings : Settings) : Settings :=
  { settings with
    defaultOperator := choices.defaultOperator.getD settings.defaultOperator
    budget := choices.budget.getD settings.budget }

/-- Runs a query against documents and shows what it finds. -/
def runQuery (source : SettingsSource) (documents : File) (choices : QueryChoices)
    (words : List String) : Attempt (List Segment) := do
  let settings := choices.apply (← loadSettings source)
  Attempt.ofExcept Failure.ofError settings.validate
  let corpus ← loadDocuments documents
  let q ← Attempt.ofNoted (Query.read settings.readOptions (" ".intercalate words))
  if !q.rest.isEmpty then Attempt.remark (.restIgnored q.rest)
  let found ← Attempt.ofExcept Failure.ofError
    ((Executor.ofSettings corpus.lookup settings).execute q)
  found.remarks.forM Attempt.remark
  let records ←
    if choices.grouped then
      Attempt.ofExcept Failure.ofError (found.records.group settings.shape.room.toNat)
    else pure found.records
  let shown := records.sort choices.limit choices.direction
  return shown.records.flatMap (showRecord shown.shape.unit) ++ [showCount records.size shown.size]

/-! ### Running statements -/

/-- The outcome of a line: what is shown, the session after it, and whether the session has
ended. -/
structure ShellTurn (σ : Type) where
  shown : List String
  state : σ
  ended : Bool
  remarks : List Remark

variable {σ : Type} [Endpoint σ]

/-- The line that tells a failure. -/
def errorLine (e : Error) : String :=
  s!"error: {e.message}"

/-- Shows the responses of a statement. -/
def showResponses (s : σ) : ShellTurn σ :=
  let t := Endpoint.recv s
  match _h : t.answer with
  | .error e => ⟨[errorLine e], t.state, false, t.remarks⟩
  | .ok r =>
    let shown := if r.body.isEmpty then [] else [r.body]
    if r.flags.has .quit then ⟨shown, t.state, true, t.remarks⟩
    else if r.flags.has .more then
      let rest := showResponses t.state
      { rest with shown := shown ++ rest.shown, remarks := t.remarks ++ rest.remarks }
    else ⟨shown, t.state, false, t.remarks⟩
termination_by wellFounded_pairLt.wrap (Endpoint.waiting s)
decreasing_by exact Endpoint.waiting_recv _h

/-- The fragment that a line holds. A backslash at its end says that more text follows. -/
def readLine (line : String) : String × Flags :=
  match line.toList.reverse with
  | '\\' :: l => (String.ofList l.reverse, .more)
  | _ => (line, .none)

/-- Sends a line, and shows the responses of the statement if it completes one. -/
def runLine (s : σ) (line : String) : ShellTurn σ :=
  let (fragment, flags) := readLine line
  let t := Endpoint.send s fragment flags
  match t.answer with
  | .ok true =>
    let rest := showResponses t.state
    { rest with remarks := t.remarks ++ rest.remarks }
  | .ok false => ⟨[], t.state, false, t.remarks⟩
  | .error e => ⟨[errorLine e], t.state, false, t.remarks⟩

/-- Runs lines until the session ends. -/
def runLines (s : σ) : List String → ShellTurn σ
  | [] => ⟨[], s, false, []⟩
  | line :: lines =>
    let t := runLine s line
    if t.ended then t
    else
      let rest := runLines t.state lines
      { rest with shown := t.shown ++ rest.shown, remarks := t.remarks ++ rest.remarks }

/-- The line without the carriage return that may stand before its end. -/
def chompLine (l : List Char) : String :=
  match l.reverse with
  | '\r' :: l => String.ofList l.reverse
  | _ => String.ofList l

/-- The lines of a text. What comes after the last end of a line is a line if it is not
empty. -/
def linesFrom (line : List Char) : List Char → List String
  | [] => if line.isEmpty then [] else [String.ofList line.reverse]
  | '\n' :: l => chompLine line.reverse :: linesFrom [] l
  | c :: l => linesFrom (c :: line) l

/-- The session in which typed statements are run. -/
def startShell (source : SettingsSource) (documents : File) : Attempt Session := do
  let settings ← loadSettings source
  let corpus ← loadDocuments documents
  Attempt.ofExcept Failure.ofError (Session.ofSettings corpus.lookup settings)

/-- Runs the statements in a text. -/
def runShell (source : SettingsSource) (documents : File) (input : String) :
    Attempt (List Segment) := do
  let t := runLines (← startShell source documents) (linesFrom [] input.toList)
  t.remarks.forM Attempt.remark
  return t.shown.map fun line => .plain (line ++ "\n")

/-! ### Serving sessions -/

/-- What is at the path where a server is to listen. -/
inductive Socket where
  /-- Nothing, or a file that is replaced. -/
  | free
  | directory
  /-- Nothing, and the directory of the path is missing too. -/
  | unreachable
deriving DecidableEq, Repr

/-- Listens at a path. -/
def listen (path : String) : Socket → Attempt Unit
  | .free => Attempt.remark (.listening path)
  | .directory => Attempt.fail (.system .isDirectory)
  | .unreachable => Attempt.fail ((Failure.system .missingFile).within s!"failed to bind {path}")

/-- Starts a server, which begins the same session with each of its clients. -/
def startServer (source : SettingsSource) (documents : File) (path : String)
    (socket : Socket) : Attempt Session := do
  let settings ← loadSettings source
  let corpus ← loadDocuments documents
  listen path socket
  return Session.start corpus.lookup settings

end Retrieval.Cli
