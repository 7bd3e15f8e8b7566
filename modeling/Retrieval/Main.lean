import Retrieval.Cli.Program
import Retrieval.Wire.Service

/-!
# The program

Reads the files that the arguments name, runs the command and writes its report. Typed
statements are run line by line, and a server serves the client at its standard streams.
-/

namespace Retrieval.Cli

/-- The content of the file at a path, if it can be read. -/
def readContent (path : String) : IO (Option (List UInt8)) := do
  try
    let bytes ← IO.FS.readBinFile path
    return some bytes.data.toList
  catch _ => return none

/-- The path of the usual settings file. -/
def usualPath : IO String := do
  let base ← match ← IO.getEnv "XDG_CONFIG_HOME" with
    | some base => pure base
    | none => do pure ((← IO.getEnv "HOME").getD "" ++ "/.config")
  return base ++ "/qrs/config.json"

/-- Whether the terminal shows colors. -/
def terminalShowsColors : IO Bool := do
  if (← IO.getEnv "NO_COLOR").isSome then return false
  return showsColors (← IO.getEnv "TERM")

/-- The paths of the files that a run reads. -/
def Invocation.paths (i : Invocation) : List String :=
  i.settings.toList ++ match i.command with
    | .parse _ => []
    | .query documents .. | .shell documents | .serve documents _ => [documents]

/-- What a run of the program depends on, with the given files read. -/
def readWorld (paths : List String) : IO World := do
  let contents ← paths.mapM fun path => do return (path, ← readContent path)
  let usual ← usualPath
  return {
    file := fun path => ⟨path, (contents.lookup path).join⟩
    usualSettings := ⟨usual, ← readContent usual⟩
    socket := fun _ => .free
    input := ""
    showsColors := ← terminalShowsColors }

/-- Writes the report on a run. -/
def writeReport (r : Report) : IO UInt32 := do
  IO.eprint r.err
  IO.print r.out
  return r.code

/-- Writes remarks to the log. -/
def writeLog (i : Invocation) (world : World) (remarks : List Remark) : IO Unit :=
  IO.eprint (render (i.colored world) (log i.verbosity remarks))

/-- Runs the statements that are typed in. -/
partial def typeLoop (i : Invocation) (world : World) (input : IO.FS.Stream) (s : Session) :
    IO Unit := do
  let line ← input.getLine
  match linesFrom [] line.toList with
  | [] => return
  | text :: _ =>
    let t := runLine s text
    writeLog i world t.remarks
    t.shown.forM IO.println
    unless t.ended do typeLoop i world input t.state

/-- Reads so many bytes, or fewer at the end of a stream. -/
partial def readBytes (input : IO.FS.Stream) (count : Nat) : IO (List UInt8) := do
  if count = 0 then return []
  let bytes ← input.read (USize.ofNat count)
  if bytes.isEmpty then return []
  return bytes.data.toList ++ (← readBytes input (count - bytes.size))

/-- The number of bytes that follow the length of a frame. -/
def bodyLength : List UInt8 → Nat
  | [a, b, c, d] =>
    let length := Bytes.ofLittleEndian a b c d
    if Frame.maxSize < length then 0 else length
  | _ => 0

/-- Serves a session to the client at the given streams. -/
partial def serveLoop (i : Invocation) (world : World) (input output : IO.FS.Stream)
    (s : Session) : IO Unit := do
  let header ← readBytes input 4
  let body ← readBytes input (bodyLength header)
  let (request, _) := Frame.readMessage Request.ofJson? (header ++ body)
  if Frame.isEnd request then return
  let service := Service.answerRead s request
  writeLog i world service.remarks
  match Frame.ofJson service.reply.toJson with
  | .error _ => return
  | .ok bytes =>
    output.write ⟨bytes.toArray⟩
    output.flush
  if service.isLast then writeLog i world [.sessionQuit]
  else serveLoop i world input output service.state

/-- Goes on with the session that an attempt has started. -/
def continueWith (i : Invocation) (world : World) (a : Attempt Session)
    (go : Session → IO Unit) : IO UInt32 := do
  match a.outcome with
  | .error _ => writeReport (i.report world ⟨a.remarks, a.outcome.map fun _ => []⟩)
  | .ok s =>
    writeLog i world a.remarks
    go s
    return 0

/-- Runs the command that the arguments ask for. -/
def perform (i : Invocation) : IO UInt32 := do
  let world ← readWorld i.paths
  let source := i.source world
  match i.command with
  | .shell documents =>
    continueWith i world (startShell source (world.file documents)) fun s => do
      typeLoop i world (← IO.getStdin) s
  | .serve documents socket =>
    continueWith i world
      (startServer source (world.file documents) socket (world.socket socket)) fun s => do
        serveLoop i world (← IO.getStdin) (← IO.getStdout) s
  | _ => writeReport (i.run world)

end Retrieval.Cli

/-- Runs the program. -/
def main (arguments : List String) : IO UInt32 :=
  match Retrieval.Cli.Invocation.ofArguments? arguments with
  | none => Retrieval.Cli.writeReport .misused
  | some i => Retrieval.Cli.perform i
