import Retrieval.Query.Reader

/-!
# Queries that were read before

A session keeps the queries that it read last, by their texts. When there is no room for one
more, the one that has not been used for the longest time is dropped.
-/

namespace Retrieval

/-- The queries that were read last, the one that was used last first. -/
abbrev QueryCache := List (String × Query)

namespace QueryCache

/-- The cache after a text in it has been used. -/
def touch (text : String) (q : Query) (cache : QueryCache) : QueryCache :=
  (text, q) :: cache.filter fun e => e.1 ≠ text

/-- Reads a query, unless the cache holds it, and keeps it if there is one. A cache has room
for at least one query. -/
def read (options : ReadOptions) (room : Nat) (text : String) (cache : QueryCache) :
    Noted (Except Error Query × QueryCache) :=
  match cache.lookup text with
  | some q => .plain (.ok q, touch text q cache)
  | none =>
    let read := Query.read options text
    { remarks := read.remarks
      value := (read.value, match read.value with
        | .ok q => (touch text q cache).take (max room 1)
        | .error _ => cache) }

end QueryCache

end Retrieval
