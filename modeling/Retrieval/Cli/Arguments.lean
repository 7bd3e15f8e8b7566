import Retrieval.Cli.Command
import Retrieval.Text.Decimal

/-!
# Arguments of the program

The arguments name a command and choose how it is run. Options come in any order before the
words of a query, and the first of these words ends the options.
-/

namespace Retrieval.Cli

/-- What the arguments ask for. -/
inductive Command where
  | parse (words : List String)
  | query (documents : String) (choices : QueryChoices) (words : List String)
  | shell (documents : String)
  | serve (documents socket : String)
deriving DecidableEq, Repr

/-- The options that have been read. -/
structure Options where
  settings : Option String
  verbosity : Nat
  plain : Bool
  documents : Option String
  socket : Option String
  choices : QueryChoices
  words : List String
deriving DecidableEq, Repr

/-- The options if none is given. -/
def Options.standard : Options :=
  { settings := none
    verbosity := 0
    plain := false
    documents := none
    socket := none
    choices := ⟨none, none, .descending, 20, false⟩
    words := [] }

/-- A run of the program. -/
structure Invocation where
  command : Command
  /-- The settings file that was asked for. -/
  settings : Option String
  verbosity : Nat
  /-- Whether colors were declined. -/
  plain : Bool
deriving DecidableEq, Repr

/-- The number that an argument writes. -/
def number? (bound : Nat) (s : String) : Option Nat :=
  let digits := s.toList
  if digits.isEmpty ∨ !digits.all Char.isDigit ∨ bound ≤ Text.valueOf digits then none
  else some (Text.valueOf digits)

/-- The direction that an argument names. -/
def direction? (s : String) : Option Direction :=
  if s = "asc" then some .ascending
  else if s = "desc" then some .descending
  else none

/-- The options after one with a value. -/
def Options.assign? (name value : String) (o : Options) : Option Options :=
  match name with
  | "--config" | "-c" => some { o with settings := some value }
  | "--docs" | "-d" => some { o with documents := some value }
  | "--socket" | "-s" => some { o with socket := some value }
  | "--default-op" => do
    let operator ← Enumeration.ofName? value
    return { o with choices := { o.choices with defaultOperator := some operator } }
  | "--max-exprs" => do
    let budget ← number? UInt32.size value
    return { o with choices := { o.choices with budget := some (UInt32.ofNat budget) } }
  | "--sort" => do return { o with choices := { o.choices with direction := ← direction? value } }
  | "--limit" | "-n" => do
    return { o with choices := { o.choices with limit := ← number? UInt64.size value } }
  | _ => none

/-- The options after one without a value. -/
def Options.set? (name : String) (o : Options) : Option Options :=
  match name.toList with
  | ['-', '-', 'v', 'e', 'r', 'b', 'o', 's', 'e'] => some { o with verbosity := o.verbosity + 1 }
  | '-' :: 'v' :: more =>
    if more.all (· == 'v') then some { o with verbosity := o.verbosity + 1 + more.length }
    else none
  | _ =>
    if name = "--no-color" then some { o with plain := true }
    else if name = "--group" then some { o with choices := { o.choices with grouped := true } }
    else none

/-- Reads options up to the first word of a query, if the command takes a query. -/
def Options.read? (takesWords : Bool) (o : Options) : List String → Option Options
  | [] => some o
  | argument :: arguments =>
    if argument = "--" then
      if takesWords ∨ arguments.isEmpty then some { o with words := arguments } else none
    else if !argument.startsWith "-" then
      if takesWords then some { o with words := argument :: arguments } else none
    else match o.set? argument with
      | some o => o.read? takesWords arguments
      | none =>
        match arguments with
        | [] => none
        | value :: arguments => do (← o.assign? argument value).read? takesWords arguments

/-- The options before the name of the command, that name, and what comes after it. -/
def Options.readCommand? (o : Options) : List String → Option (Options × String × List String)
  | [] => none
  | argument :: arguments =>
    if !argument.startsWith "-" then some (o, argument, arguments)
    else match o.set? argument with
      | some o => o.readCommand? arguments
      | none =>
        match arguments with
        | [] => none
        | value :: arguments => do (← o.assign? argument value).readCommand? arguments

/-- The command of a name with the given options. -/
def Command.ofOptions? (name : String) (o : Options) : Option Command :=
  match name with
  | "parse" => if o.words.isEmpty then none else some (.parse o.words)
  | "query" => do
    if o.words.isEmpty then none else return .query (← o.documents) o.choices o.words
  | "shell" => do return .shell (← o.documents)
  | "serve" => do return .serve (← o.documents) (← o.socket)
  | _ => none

/-- The run of the program that arguments ask for. -/
def Invocation.ofArguments? (arguments : List String) : Option Invocation := do
  let (o, name, arguments) ← Options.standard.readCommand? arguments
  let o ← o.read? (name = "parse" ∨ name = "query") arguments
  return ⟨← Command.ofOptions? name o, o.settings, o.verbosity, o.plain⟩

/-- What is told when arguments make no sense. -/
def usage : String :=
  "usage: qrs [-c CONFIG] [-v] [--no-color] COMMAND\n\n"
    ++ "  parse QUERY...\n"
    ++ "  query -d DOCS [--default-op OP] [--max-exprs N] [--sort asc|desc] [-n LIMIT] [--group] "
    ++ "QUERY...\n"
    ++ "  shell -d DOCS\n"
    ++ "  serve -d DOCS -s SOCKET\n"

end Retrieval.Cli
