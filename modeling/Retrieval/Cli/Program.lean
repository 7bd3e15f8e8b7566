import Retrieval.Cli.Arguments

/-!
# Runs of the program

A run of the program as a function from what it is given to what it writes: a text for each of
the two streams and a code that tells whether it failed.
-/

namespace Retrieval.Cli

/-- What a run of the program writes, and its exit code. -/
structure Report where
  out : String
  err : String
  code : UInt32
deriving DecidableEq, Repr

/-- The report of a run whose arguments make no sense. -/
def Report.misused : Report :=
  ⟨"", usage, 2⟩

/-- What a run of the program depends on besides its arguments. -/
structure World where
  /-- The file at each path. -/
  file : String → File
  /-- The usual settings file of the user. -/
  usualSettings : File
  /-- What is at each path where a server may listen. -/
  socket : String → Socket
  /-- What is typed in. -/
  input : String
  /-- Whether the terminal shows colors. -/
  showsColors : Bool

/-- Where the settings of a run come from. -/
def Invocation.source (i : Invocation) (world : World) : SettingsSource :=
  match i.settings with
  | some path => .named (world.file path)
  | none => .usual world.usualSettings

/-- Whether a run writes colors. -/
def Invocation.colored (i : Invocation) (world : World) : Bool :=
  world.showsColors && !i.plain

/-- The report on an attempt to write segments. -/
def Invocation.report (i : Invocation) (world : World) (a : Attempt (List Segment)) : Report :=
  let told := render (i.colored world) (log i.verbosity a.remarks)
  match a.outcome with
  | .ok segments => ⟨render (i.colored world) segments, told, 0⟩
  | .error failure => ⟨"", told ++ failure.text, 1⟩

/-- Runs a command whose work ends by itself. A server only starts. -/
def Invocation.run (i : Invocation) (world : World) : Report :=
  let source := i.source world
  i.report world (match i.command with
    | .parse words => parseQuery source words
    | .query documents choices words => runQuery source (world.file documents) choices words
    | .shell documents => runShell source (world.file documents) world.input
    | .serve documents socket => do
      let _ ← startServer source (world.file documents) socket (world.socket socket)
      return [])

/-- Runs the program with the given arguments. -/
def run (arguments : List String) (world : World) : Report :=
  match Invocation.ofArguments? arguments with
  | some i => i.run world
  | none => .misused

end Retrieval.Cli
