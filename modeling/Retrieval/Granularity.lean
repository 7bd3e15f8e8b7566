import Retrieval.Enumeration

/-!
# Granularities

Hits are collected at a granularity: by document, by section of a document, by position in a
section, or in groups that a user defines.
-/

namespace Retrieval

/-- How finely hits are told apart. -/
inductive Granularity where
  | perDocument
  | perSection
  | perPosition
  | userDefined
  | nothing
deriving DecidableEq, Repr

namespace Granularity

instance : Enumeration Granularity where
  values := [perDocument, perSection, perPosition, userDefined, nothing]
  name
    | perDocument => "document"
    | perSection => "section"
    | perPosition => "position"
    | userDefined => "userdef"
    | nothing => "none"

/-- The name of a granularity in messages. -/
def label : Granularity → String
  | perDocument => "Document"
  | perSection => "Section"
  | perPosition => "Position"
  | userDefined => "UserDef"
  | nothing => "None"

/-- How deep in the hierarchy of documents a granularity lies. -/
def depth? : Granularity → Option Nat
  | perDocument => some 1
  | perSection => some 2
  | perPosition => some 3
  | userDefined | nothing => none

/-- Whether `a` is finer than `b`. In the hierarchy the deeper one is finer, and each of the
hierarchy is finer than user-defined groups. -/
def isFiner (a b : Granularity) : Bool :=
  match a.depth?, b.depth? with
  | some m, some n => n < m
  | some _, none => b == userDefined
  | none, _ => false

end Granularity

end Retrieval
