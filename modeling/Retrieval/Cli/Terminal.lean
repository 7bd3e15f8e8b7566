import Retrieval.Remark

/-!
# Output to a terminal

What the program writes is a sequence of segments, some of which have a style. A terminal that
shows no colors gets the text alone.
-/

namespace Retrieval.Cli

/-- The colors of text. -/
inductive Color where
  | red
  | green
  | yellow
  | magenta
  | cyan
deriving DecidableEq, Repr

/-- The number of a color in escape sequences. -/
def Color.number : Color → Nat
  | red => 1
  | green => 2
  | yellow => 3
  | magenta => 5
  | cyan => 6

/-- How a text looks. -/
structure Style where
  color : Color
  bold : Bool
deriving DecidableEq, Repr

/-- A piece of output. -/
inductive Segment where
  | plain (text : String)
  | styled (style : Style) (text : String)
deriving DecidableEq, Repr

/-- The escape sequence that ends every style. -/
def resetStyle : String := "\x1b[0m"

/-- The escape sequences that begin a style. -/
def Style.start (style : Style) : String :=
  resetStyle ++ (if style.bold then "\x1b[1m" else "") ++ s!"\x1b[3{style.color.number}m"

/-- The characters of a segment. -/
def Segment.render (colored : Bool) : Segment → String
  | plain text => text
  | styled style text => if colored then style.start ++ text ++ resetStyle else text

/-- The characters of several segments. -/
def render (colored : Bool) (segments : List Segment) : String :=
  String.join (segments.map (Segment.render colored))

/-- Whether a terminal shows colors. A terminal without a name and a dumb one show none. -/
def showsColors (name : Option String) : Bool :=
  name.any (· ≠ "dumb")

/-! ### The log -/

/-- The color of a severity in the log. -/
def severityColor : Severity → Color
  | .warning => .yellow
  | .info => .green
  | .debug => .cyan

/-- The name of a severity in the log, five characters wide. -/
def severityText (severity : Severity) : String :=
  "".pushn ' ' (5 - severity.name.length) ++ severity.name

/-- The line of the log for a remark. -/
def logLine (r : Remark) : List Segment :=
  [.styled ⟨severityColor r.severity, true⟩ (severityText r.severity),
    .plain s!" {r.topic}: {r.message}\n"]

/-- The log of the remarks that are shown at a verbosity. -/
def log (verbosity : Nat) (remarks : List Remark) : List Segment :=
  (remarks.filter fun r => r.severity.verbosity ≤ verbosity).flatMap logLine

end Retrieval.Cli
