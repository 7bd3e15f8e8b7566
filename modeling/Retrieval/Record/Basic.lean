import Retrieval.Granularity
import Retrieval.Key
import Retrieval.Score

/-!
# Records

A record stands for the hits at one address: a document, a section of it or a position in it.
It keeps the sum of their scores, their number, and the best of them as parts.
-/

namespace Retrieval

/-- Where hits lie. -/
structure Address where
  key : Key
  sectionNo : UInt32
  position : UInt32
deriving DecidableEq, Repr, Inhabited

/-- The address of what lies around `a` at a granularity. -/
def Address.project (a : Address) : Granularity → Address
  | .perPosition => a
  | .perSection => { a with position := 0 }
  | .perDocument | .userDefined | .nothing => { a with sectionNo := 0, position := 0 }

/-- The address of a whole document. -/
def Address.ofKey (key : Key) : Address :=
  ⟨key, 0, 0⟩

/-- A hit that a record keeps. -/
structure Part where
  sectionNo : UInt32
  position : UInt32
  score : Score
deriving DecidableEq, Repr

/-- The hits at one address. -/
structure Record extends Address where
  score : Score
  /-- The number of hits. -/
  hits : UInt32
  /-- The hits that are kept. -/
  parts : List Part
deriving DecidableEq, Repr

/-- The order in which sorting puts records: the best first or last. -/
inductive Direction where
  | descending
  | ascending
deriving DecidableEq, Repr

instance : Enumeration Direction where
  values := [.descending, .ascending]
  name
    | .descending => "descending"
    | .ascending => "ascending"

/-- Whether a score comes strictly before another one in a direction. -/
def Direction.before : Direction → Score → Score → Bool
  | .descending, a, b => b < a
  | .ascending, a, b => a < b

/-- The part that a hit of a given score leaves at an address. -/
def Address.part (a : Address) (score : Score) : Part :=
  ⟨a.sectionNo, a.position, score⟩

namespace Record

/-- The record of an address, before any hit. -/
def ofAddress (a : Address) (score : Score) : Record :=
  ⟨a, score, 0, []⟩

/-- The parts with one more, put after those that are no worse, where at most `room` are kept.
A part for which there is no room is dropped. -/
def keep (direction : Direction) (room : Nat) (part : Part) (parts : List Part) : List Part :=
  let i := parts.findIdx fun p => direction.before part.score p.score
  if room ≤ i then parts else (parts.insertIdx i part).take room

/-- The record with one more hit. -/
def addHit (direction : Direction) (room : Nat) (part : Part) (r : Record) : Record :=
  { r with
    score := r.score.plus part.score
    hits := r.hits + 1
    parts := keep direction room part r.parts }

/-- A number of hits, which stops at the end of its range. -/
def addHits (m n : UInt32) : UInt32 :=
  UInt32.ofNat (min (m.toNat + n.toNat) (UInt32.size - 1))

/-- The record with the hits of another one, of whose parts as many are kept as there is room
for. -/
def merge (room : Nat) (other r : Record) : Record :=
  { r with
    score := r.score.plus other.score
    hits := addHits r.hits other.hits
    parts := r.parts ++ other.parts.take (room - r.parts.length) }

end Record

end Retrieval
