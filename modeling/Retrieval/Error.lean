import Retrieval.Granularity
import Retrieval.Text.Quoted

/-!
# Failures

`Error` has a constructor for each cause of failure. Causes fall into categories, each with a
code that peers exchange, and `Error.message` is the wording of a cause after the name of its
category. A query that matches nothing is no failure.
-/

namespace Retrieval

/-- What kind of failure an error is. -/
inductive Category where
  | invalidArgument
  | resourceExhausted
  | protocol
  | notFound
  | stream
  | format
deriving DecidableEq, Repr

namespace Category

/-- The code of a category, as peers exchange it. -/
def code : Category → Int32
  | resourceExhausted => 1
  | format => 2
  | stream => 3
  | invalidArgument => 4
  | protocol | notFound => 5

/-- The category of a code that a peer has sent. A code without a category of its own is taken
for a fault of the protocol. -/
def ofCode (code : Int32) : Category :=
  if code = 4 then invalidArgument
  else if code = 1 then resourceExhausted
  else if code = 3 then stream
  else protocol

/-- The words with which a message of the category begins. -/
def heading : Category → String
  | invalidArgument => "invalid argument: "
  | resourceExhausted => "resource exhausted: "
  | protocol => "protocol error: "
  | notFound => "not found: "
  | stream => "I/O error: "
  | format => "JSON error: "

end Category

/-- The requests of a session. -/
inductive Exchange where
  | send
  | recv
deriving DecidableEq, Repr

/-- The name of a request in messages. -/
def Exchange.name : Exchange → String
  | send => "send"
  | recv => "recv"

/-- Why something failed. -/
inductive Error where
  /-- No value of the named enumeration has the code. -/
  | unknownCode (enumeration : String) (code : Int)
  /-- A record set at granularity `none`. -/
  | unitHoldsNothing
  /-- Parts that are not finer than the records they belong to. -/
  | partsNotFiner (parts records : Granularity)
  /-- Records that have no documents to be grouped by. -/
  | notGroupable (unit : Granularity)
  | groupLimit (limit : Nat)
  /-- A query that may hold no expression at all. -/
  | noBudget
  /-- A phrase without an end, in the last expression that the query may hold. -/
  | phraseBeyondBudget
  /-- A query whose remainder is no shorter than the query. -/
  | noProgress (rest : String)
  | sessionClosed
  | nothingPending
  | nothingCompleted
  /-- A reply, shown as text, that does not answer the request. -/
  | unexpectedReply (request : Exchange) (reply : String)
  /-- A failure known by its category and its wording only. -/
  | told (category : Category) (text : String)
  /-- A text that does not write a value of the wanted type. -/
  | malformed
  /-- A message that does not write a value of the wanted type. -/
  | unreadableMessage
  | oversizedMessage
  /-- A file that is not text. -/
  | unreadableFile
  | missingFile
  /-- A directory where a file is wanted. -/
  | isDirectory
  | endOfStream
deriving DecidableEq, Repr

namespace Error

/-- The category of a failure. -/
def category : Error → Category
  | unknownCode .. | unitHoldsNothing | partsNotFiner .. | notGroupable _ | groupLimit _
  | noBudget | phraseBeyondBudget | noProgress _ => .invalidArgument
  | sessionClosed | nothingPending | nothingCompleted | unexpectedReply .. => .protocol
  | told category _ => category
  | malformed => .format
  | unreadableMessage | oversizedMessage | unreadableFile | missingFile | isDirectory
  | endOfStream => .stream

/-- The code of a failure. -/
def code (e : Error) : Int32 :=
  e.category.code

/-- The cause in words. -/
def detail : Error → String
  | unknownCode enumeration code => s!"unknown {enumeration} {code}"
  | unitHoldsNothing => "record unit NONE cannot hold records"
  | partsNotFiner parts records =>
    s!"subrecord unit {parts.label} is not finer than record unit {records.label}"
  | notGroupable unit => s!"cannot group a {unit.label}-unit record set by document"
  | groupLimit limit => s!"group limit {limit} too large"
  | noBudget => "max_exprs must be positive"
  | phraseBeyondBudget =>
    "unterminated phrase at end of input with no expression budget left"
  | noProgress rest => s!"query makes no progress at {Text.quoted rest}"
  | sessionClosed => "session is closed"
  | nothingPending => "recv with no pending statement"
  | nothingCompleted => "exec ended with no complete statement"
  | unexpectedReply request reply => s!"unexpected reply to {request.name}: {reply}"
  | told _ text => text
  | malformed => "not a value of the expected type"
  | unreadableMessage => "not a message of the expected type"
  | oversizedMessage => "message too large"
  | unreadableFile => "stream did not contain valid UTF-8"
  | missingFile => "No such file or directory (os error 2)"
  | isDirectory => "Is a directory (os error 21)"
  | endOfStream => "failed to fill whole buffer"

/-- The wording of a failure. -/
def message (e : Error) : String :=
  e.category.heading ++ e.detail

/-- The failure that a peer reports by a code and a text. -/
def ofCode (code : Int32) (text : String) : Error :=
  told (Category.ofCode code) text

end Error

/-- The value of an enumeration with a code. -/
def Enumeration.ofCode {α : Type} [Enumeration α] (enumeration : String) (code : Int) :
    Except Error α :=
  match ofCode? code with
  | some a => .ok a
  | none => .error (.unknownCode enumeration code)

end Retrieval
