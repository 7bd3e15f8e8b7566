import Retrieval.Bytes
import Retrieval.Cli.Arguments
import Retrieval.Cli.Attempt
import Retrieval.Cli.Command
import Retrieval.Cli.Input
import Retrieval.Cli.Program
import Retrieval.Cli.Terminal
import Retrieval.Encoding
import Retrieval.Enumeration
import Retrieval.Error
import Retrieval.Evaluation
import Retrieval.Granularity
import Retrieval.Index.Corpus
import Retrieval.Index.Lookup
import Retrieval.Index.Match
import Retrieval.Json.Basic
import Retrieval.Json.Depth
import Retrieval.Json.Fields
import Retrieval.Json.Magnitude
import Retrieval.Json.Printer
import Retrieval.Json.Reader
import Retrieval.Key
import Retrieval.Main
import Retrieval.Proofs.Evaluation.Denotation
import Retrieval.Proofs.Evaluation.Directional
import Retrieval.Proofs.Evaluation.Grouping
import Retrieval.Proofs.Evaluation.Operands
import Retrieval.Proofs.Evaluation.Records
import Retrieval.Proofs.Evaluation.Scoring
import Retrieval.Proofs.Evaluation.Searches
import Retrieval.Proofs.Index.Looseness
import Retrieval.Proofs.Index.Near
import Retrieval.Proofs.Index.Places
import Retrieval.Proofs.Index.Postings
import Retrieval.Proofs.Json.Held
import Retrieval.Proofs.Json.RoundTrip
import Retrieval.Proofs.Query.Budget
import Retrieval.Proofs.Query.Cursor
import Retrieval.Proofs.Query.Cut
import Retrieval.Proofs.Query.Depth
import Retrieval.Proofs.Query.Directives
import Retrieval.Proofs.Query.Dropped
import Retrieval.Proofs.Query.EmptyPhrase
import Retrieval.Proofs.Query.Failure
import Retrieval.Proofs.Query.Lexeme
import Retrieval.Proofs.Query.Quote
import Retrieval.Proofs.Query.Rest
import Retrieval.Proofs.Query.RoundTrip
import Retrieval.Proofs.Query.Rounds
import Retrieval.Proofs.Query.Spelling
import Retrieval.Proofs.Query.Stray
import Retrieval.Proofs.Query.Varies
import Retrieval.Proofs.Query.Written
import Retrieval.Proofs.RecordSet.Groups
import Retrieval.Proofs.RecordSet.GroupsByKey
import Retrieval.Proofs.RecordSet.Hits
import Retrieval.Proofs.RecordSet.History
import Retrieval.Proofs.RecordSet.Indexed
import Retrieval.Proofs.RecordSet.Keys
import Retrieval.Proofs.RecordSet.Merging
import Retrieval.Proofs.RecordSet.Partition
import Retrieval.Proofs.RecordSet.Scores
import Retrieval.Proofs.RecordSet.Sorting
import Retrieval.Proofs.RecordSet.Store
import Retrieval.Proofs.RecordSet.Stored
import Retrieval.Proofs.RecordSet.Totals
import Retrieval.Proofs.RecordSet.Upsert
import Retrieval.Proofs.RecordSet.Walking
import Retrieval.Proofs.RecordSet.WellFormed
import Retrieval.Proofs.Session.Assembly
import Retrieval.Proofs.Session.Block
import Retrieval.Proofs.Session.Body
import Retrieval.Proofs.Session.Composition
import Retrieval.Proofs.Session.Contents
import Retrieval.Proofs.Session.Exec
import Retrieval.Proofs.Session.Open
import Retrieval.Proofs.Session.Outcome
import Retrieval.Proofs.Session.Places
import Retrieval.Proofs.Session.Quoting
import Retrieval.Proofs.Session.Rounds
import Retrieval.Proofs.Session.Run
import Retrieval.Proofs.Session.Template
import Retrieval.Proofs.Session.Values
import Retrieval.Proofs.Text.Place
import Retrieval.Proofs.Text.Runs
import Retrieval.Proofs.Wire.Boundary
import Retrieval.Proofs.Wire.Message
import Retrieval.Proofs.Wire.Remote
import Retrieval.Proofs.Wire.Stream
import Retrieval.Query.Assembly
import Retrieval.Query.Basic
import Retrieval.Query.Directive
import Retrieval.Query.Json
import Retrieval.Query.Lexeme
import Retrieval.Query.Reader
import Retrieval.Record.Basic
import Retrieval.Record.Json
import Retrieval.RecordSet.Basic
import Retrieval.RecordSet.Json
import Retrieval.RecordSet.Order
import Retrieval.RecordSet.Shape
import Retrieval.Remark
import Retrieval.Score
import Retrieval.Scoring
import Retrieval.Session.Basic
import Retrieval.Session.Cache
import Retrieval.Session.Endpoint
import Retrieval.Session.Response
import Retrieval.Session.Statement
import Retrieval.Settings
import Retrieval.Text.Blank
import Retrieval.Text.Decimal
import Retrieval.Text.Lowercase
import Retrieval.Text.Quoted
import Retrieval.Text.Ranges
import Retrieval.Text.Token
import Retrieval.Text.Utf8
import Retrieval.Wire.Frame
import Retrieval.Wire.Message
import Retrieval.Wire.Remote
import Retrieval.Wire.Service
