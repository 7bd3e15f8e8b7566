import Retrieval.Query.Lexeme

/-!
# Assembling expressions

Lexemes are put together one after another. An `Assembly` holds the brackets that are open,
with the operands read so far in each of them, and how many more expressions may be read:
every opening bracket and every term counts as one. `Operand.fold` makes one expression of the
operands between two brackets.
-/

namespace Retrieval

/-! ### Operands -/

/-- An expression, and the connective in front of it, if any. -/
structure Operand where
  connective : Option Connective
  expr : Expr
deriving DecidableEq, Repr

namespace Operand

/-- Whether an operand can only be taken away from something. -/
def isExclusion (x : Operand) : Bool :=
  x.connective = some .but

/-- The connective that the first operand passes on to the next one, where that one has none. -/
def passedOn (standard : Connective) : Option Connective → Connective
  | some .below => .below
  | some .above => .above
  | _ => standard

/-- Combines what is there with one more operand. -/
def attach (standard : Connective) (left : Expr) (x : Operand) : Expr :=
  .join (x.connective.getD standard) left x.expr

/-- The expression that operands make from left to right. Exclusions at the start are dropped,
since there is nothing to take them away from. -/
def fold (standard : Connective) (operands : List Operand) : Expr :=
  match operands.dropWhile isExclusion with
  | [] => .empty
  | [x] => x.expr
  | x :: y :: rest =>
    rest.foldl (attach standard) (attach (passedOn standard x.connective) x.expr y)

/-- What is remarked when operands are combined. -/
def remarks (operands : List Operand) : List Remark :=
  (operands.takeWhile isExclusion).map fun _ => .leadingExclusion

end Operand

/-! ### Levels -/

/-- What has been read between two brackets: operands, and the connective and the way of
matching that the next operand is to have. -/
structure Level where
  operands : List Operand
  connective : Option Connective
  mode : Option ModeChoice
deriving DecidableEq, Repr

namespace Level

/-- Nothing yet. -/
def start : Level :=
  ⟨[], none, none⟩

/-- The level with one more operand. -/
def push (e : Expr) (level : Level) : Level :=
  ⟨level.operands ++ [⟨level.connective, e⟩], none, none⟩

/-- The expression of a level. -/
def expr (standard : Connective) (level : Level) : Noted Expr :=
  ⟨Operand.remarks level.operands, Operand.fold standard level.operands⟩

end Level

/-- The levels that are open, and how many more expressions may be read. -/
structure Assembly where
  inner : Level
  /-- The levels around the innermost one, the nearest first. -/
  outer : List Level
  budget : Nat
deriving DecidableEq, Repr

/-- What becomes of an assembly: it goes on, it ends before the given text, or it fails. -/
inductive Progress where
  | goOn (assembly : Assembly)
  | halt (assembly : Assembly) (rest : List Char)
  | fail (e : Error)
deriving DecidableEq, Repr

/-- How terms are read. -/
structure Assembly.Setting where
  /-- The connective between operands that have none. -/
  standard : Connective
  termWeight : Score
  /-- The number of bytes of the whole text. -/
  size : Nat

namespace Assembly

/-- Nothing yet. -/
def start (budget : Nat) : Assembly :=
  ⟨.start, [], budget⟩

/-- The place in bytes at which the given rest of the text starts. -/
def Setting.place (setting : Setting) (rest : List Char) : Nat :=
  setting.size - Text.byteLength rest

/-- The assembly with one more term, which has the way of matching that was asked for. -/
def addTerm (setting : Setting) (text : List Char) (isPrefix isPhrase : Bool) (a : Assembly) :
    Assembly :=
  let term : Term :=
    { text := String.ofList text
      isPrefix, isPhrase
      weight := setting.termWeight
      mode := a.inner.mode }
  { a with inner := a.inner.push (.term term), budget := a.budget - 1 }

/-- Opens a level. A way of matching does not carry over to what is between brackets. -/
def openLevel (a : Assembly) : Noted Assembly :=
  { remarks := if a.inner.mode.isSome then [.modeBeforeGroup] else []
    value := ⟨.start, { a.inner with mode := none } :: a.outer, a.budget - 1⟩ }

/-- Adds a phrase. An empty one leaves no trace but the way of matching, which it uses up. -/
def addPhrase (setting : Setting) (text : List Char) (closed isPrefix : Bool) (a : Assembly) :
    Noted Progress :=
  if text.isEmpty then
    ⟨[.emptyPhrase], .goOn { a with inner := { a.inner with mode := none } }⟩
  else if closed then .plain (.goOn (a.addTerm setting text isPrefix true))
  else if a.budget ≤ 1 then .plain (.fail .phraseBeyondBudget)
  else ⟨[.unclosedPhrase], .goOn (a.addTerm setting text isPrefix true)⟩

/-- Closes the innermost level. A bracket that closes nothing ends the query. -/
def closeLevel (setting : Setting) (rest : List Char) (a : Assembly) : Noted Progress :=
  match a.outer with
  | [] => ⟨[.unmatchedClose (setting.place rest)], .halt a rest⟩
  | level :: outer =>
    let child := a.inner.expr setting.standard
    ⟨child.remarks, .goOn ⟨level.push (.group child.value), outer, a.budget⟩⟩

/-- Adds a lexeme. -/
def step (setting : Setting) (x : PlacedLexeme) (a : Assembly) : Noted Progress :=
  match x.lexeme with
  | .mode choice => .plain (.goOn { a with inner := { a.inner with mode := some choice } })
  | .connective c => .plain (.goOn { a with inner := { a.inner with connective := some c } })
  | .opening => ⟨a.openLevel.remarks, .goOn a.openLevel.value⟩
  | .closing => a.closeLevel setting x.rest
  | .phrase text closed isPrefix => a.addPhrase setting text closed isPrefix
  | .word text isPrefix => .plain (.goOn (a.addTerm setting text isPrefix false))

/-- The expression of levels of which the innermost one is closed, and then those around it. -/
def collapse (standard : Connective) (inner : Level) : List Level → Noted Expr
  | [] => inner.expr standard
  | level :: outer =>
    let child := inner.expr standard
    (collapse standard (level.push (.group child.value)) outer).after child.remarks

/-- The expression of an assembly, all levels of which are closed. -/
def finish (setting : Setting) (a : Assembly) : Noted Expr :=
  collapse setting.standard a.inner a.outer

/-- The end of an assembly before the given text. -/
def stop (setting : Setting) (rest : List Char) (a : Assembly) :
    Noted (Except Error (Expr × List Char)) :=
  let e := a.finish setting
  ⟨e.remarks, .ok (e.value, rest)⟩

/-- Adds lexemes until the assembly ends or no expression may follow. Gives the expression and
the text that was not read. -/
def run (setting : Setting) (a : Assembly) :
    List PlacedLexeme → Noted (Except Error (Expr × List Char))
  | [] => a.stop setting []
  | x :: xs =>
    if a.budget = 0 then
      (a.stop setting x.source).after [.budgetExhausted (setting.place x.source)]
    else
      let next := a.step setting x
      match next.value with
      | .goOn a => (a.run setting xs).after next.remarks
      | .halt a rest => (a.stop setting rest).after next.remarks
      | .fail e => ⟨next.remarks, .error e⟩

end Assembly

end Retrieval
