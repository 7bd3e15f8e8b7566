import Retrieval.Query.Basic
import Retrieval.Text.Quoted

/-!
# Remarks

While it reads and runs queries the library makes remarks, which a reader of the log may want
to see. A remark is data; `Remark.message` is its wording, and `Remark.topic` says which part
of the work it belongs to.
-/

namespace Retrieval

/-- How much a remark matters. -/
inductive Severity where
  | warning
  | info
  | debug
deriving DecidableEq, Repr

namespace Severity

/-- The name of a severity in the log. -/
def name : Severity → String
  | warning => "WARN"
  | info => "INFO"
  | debug => "DEBUG"

/-- How often more output has to be asked for before such remarks are shown. -/
def verbosity : Severity → Nat
  | warning => 0
  | info => 1
  | debug => 2

end Severity

/-- What happened that is worth a remark. Places are in bytes. -/
inductive Remark where
  | unknownOperator (text : String)
  | budgetExhausted (place : Nat)
  | unmatchedClose (place : Nat)
  | modeBeforeGroup
  | emptyPhrase
  | unclosedPhrase
  | leadingExclusion
  | found (mode : MatchMode) (records : Nat)
  | nothingToCombine (operator : Operator)
  | leftEmpty (connective : Connective)
  | escalationSpent (term : String)
  | escalating (term : String) (mode : MatchMode) (weight : Score)
  | statementComplete (statement : String)
  | continuing (rest : String)
  | refusedRequest (detail : String)
  | sessionQuit
  | restIgnored (rest : String)
  | documentsLoaded (documents sections : Nat) (path : String)
  | listening (path : String)
deriving DecidableEq, Repr

namespace Remark

/-- How much a remark matters: what the user loses is a warning, what is achieved is
information, and the rest is for debugging. -/
def severity : Remark → Severity
  | restIgnored _ | refusedRequest _ => .warning
  | found .. | documentsLoaded .. | listening _ => .info
  | _ => .debug

/-- The part of the work that a remark belongs to. -/
def topic : Remark → String
  | unknownOperator _ => "qrs::query::pragma"
  | budgetExhausted _ | unmatchedClose _ | modeBeforeGroup | emptyPhrase | unclosedPhrase
  | leadingExclusion => "qrs::query::parser"
  | found .. | nothingToCombine _ | leftEmpty _ | escalationSpent _ | escalating .. =>
    "qrs::query::executor"
  | statementComplete _ | continuing _ => "qrs::session::context"
  | refusedRequest _ | sessionQuit => "qrs::session::remote"
  | restIgnored _ | documentsLoaded .. | listening _ => "qrs"

/-- The wording of a remark. -/
def message : Remark → String
  | unknownOperator text => s!"ignoring unknown default operator {Text.quoted text}"
  | budgetExhausted place => s!"expression budget exhausted at byte {place}"
  | unmatchedClose place => s!"unmatched ')' ends the query at byte {place}"
  | modeBeforeGroup => "match mode before a group is ignored"
  | emptyPhrase => "skipping empty phrase"
  | unclosedPhrase => "unterminated phrase runs to end of input"
  | leadingExclusion => "dropping leading exclusion"
  | found mode records => s!"hits({Enumeration.name mode})={records}"
  | nothingToCombine operator =>
    s!"skipping query: nothing to {operator.connective.label} against"
  | leftEmpty connective => s!"left operand empty, skipping {connective.label} operand"
  | escalationSpent term => s!"escalation budget spent, {Text.quoted term} stays empty"
  | escalating term mode weight =>
    s!"escalating {Text.quoted term} to {Enumeration.name mode} with weight {weight.toInt}"
  | statementComplete statement => s!"statement complete: {Text.quoted statement}"
  | continuing rest => s!"continuing with remainder {Text.quoted rest}"
  | refusedRequest detail => s!"invalid request: {detail}"
  | sessionQuit => "session quit, closing connection"
  | restIgnored rest => s!"expression budget exhausted, ignoring {Text.quoted rest}"
  | documentsLoaded documents sections path =>
    s!"loaded {documents} documents ({sections} sections) from {path}"
  | listening path => s!"listening on {path}"

end Remark

/-- A value, and the remarks that were made on the way to it. -/
structure Noted (α : Type) where
  remarks : List Remark
  value : α

namespace Noted

/-- A value without remarks. -/
def plain {α : Type} (a : α) : Noted α :=
  ⟨[], a⟩

/-- The value after more remarks. -/
def after {α : Type} (remarks : List Remark) (n : Noted α) : Noted α :=
  { n with remarks := remarks ++ n.remarks }

end Noted

end Retrieval
