import Retrieval.Query.Assembly

/-!
# Reading queries

The text of a query is read into directives and an expression. Only so many expressions are
read at once; what follows them is left as the rest of the query.
-/

namespace Retrieval

/-- How queries are read. -/
structure ReadOptions where
  /-- The operator between terms that stand side by side, unless a query sets another one. -/
  defaultOperator : Operator
  /-- How many expressions a query may hold. -/
  budget : UInt32
  encoding : Encoding
  /-- The weight of each term. -/
  termWeight : Score
deriving DecidableEq, Repr

/-- The weight of a term if nothing else is said. -/
def defaultTermWeight : Score := 5

/-- How many expressions a query may hold if nothing else is said. -/
def defaultBudget : UInt32 := 32

/-- The options if nothing else is said. -/
def ReadOptions.standard : ReadOptions :=
  ⟨.or, defaultBudget, .unspecified, defaultTermWeight⟩

namespace Query

/-- Reads characters as a query. -/
def readChars (options : ReadOptions) (l : List Char) : Noted (Except Error Query) :=
  if options.budget = 0 then .plain (.error .noBudget)
  else
    let isSpace := options.encoding.isSpace
    let directives := Directives.read options.defaultOperator (l.dropWhile isSpace)
    let setting : Assembly.Setting :=
      { standard := directives.value.1.defaultOperator.connective
        termWeight := options.termWeight
        size := Text.byteLength l }
    let read := (Assembly.start options.budget.toNat).run setting
      (lexemes isSpace directives.value.2)
    { remarks := directives.remarks ++ read.remarks
      value := read.value.map fun (root, rest) =>
        ⟨root, directives.value.1, String.ofList rest⟩ }

/-- Reads a text as a query. -/
def read (options : ReadOptions) (text : String) : Noted (Except Error Query) :=
  readChars options text.toList

end Query

end Retrieval
