import Retrieval.Json.Basic

/-!
# Records and choices in JSON

A record is an object that names its fields, or an array that lists them in order. In an
object a field that is not asked for is passed over, and one that is asked for stands at most
once; an array holds no more values than the record has fields. A choice is a string, or an
object with one field, whose name is the choice and whose value is what comes with it.
-/

namespace Retrieval.Json

/-- The fields of a record, with what stands for each of them. -/
structure Fields (α : Type) where
  /-- Whether the record names its fields. -/
  named : Bool
  found : List (String × α)

namespace Fields

variable {α β : Type}

/-- The asked fields among the fields of an object. -/
def ofNamed? (names : List String) (fields : List (List Char × α)) : Option (Fields α) := do
  let read ← fields.mapM fun (n, a) => do return (String.ofList (← unescape? n), a)
  let found := read.filter fun (n, _) => names.contains n
  if (found.map Prod.fst).Nodup then some ⟨true, found⟩ else none

/-- The asked fields, as an array lists them. -/
def ofListed? (names : List String) (items : List α) : Option (Fields α) :=
  if items.length ≤ names.length then some ⟨false, names.zip items⟩ else none

/-- What stands for a field that must be there. -/
def required (fields : Fields α) (name : String) (read : α → Option β) : Option β := do
  read (← fields.found.lookup name)

/-- What stands for a field, or `default` where the field is absent. -/
def withDefault (fields : Fields α) (name : String) (read : α → Option β) (default : β) :
    Option β :=
  match fields.found.lookup name with
  | some a => read a
  | none => some default

/-- What stands for a field that may be `null`. An object may leave such a field out. -/
def nullable (fields : Fields Json) (name : String) (read : Json → Option β) :
    Option (Option β) :=
  match fields.found.lookup name with
  | some j => j.nullable? read
  | none => if fields.named then some none else none

end Fields

/-- The asked fields of a record. -/
def fields? (names : List String) : Json → Option (Fields Json)
  | .object fields => Fields.ofNamed? names fields
  | .array items => Fields.ofListed? names items
  | _ => none

/-- The record that names the given fields. -/
def record (fields : List (String × Json)) : Json :=
  .object (fields.map fun (n, j) => (name n, j))

/-- The name of a choice, and the value that comes with it, if any. -/
def choice? : Json → Option (String × Option Json)
  | .string l => do return (String.ofList (← unescape? l), none)
  | .object [(n, j)] => do return (String.ofList (← unescape? n), some j)
  | _ => none

/-- Whether a value that comes with a choice says nothing. In a value that was held before it
was read, an empty object says nothing as well. -/
def saysNothing (held : Bool) : Option Json → Bool
  | none => true
  | some .null => true
  | some (.object []) => held
  | _ => false

/-- The name of a choice that nothing comes with. -/
def plainChoice? (held : Bool) (j : Json) : Option String := do
  let (name, payload) ← j.choice?
  if saysNothing held payload then some name else none

/-! ### Tagged records -/

/-- A record that says of which kind it is. -/
structure Tagged (α : Type) where
  tag : α
  /-- The asked fields, apart from the tag. -/
  fields? (names : List String) : Option (Fields α)

namespace Tagged

variable {α : Type}

/-- A record that names its kind in the field `type`. -/
def ofNamed? (fields : List (List Char × α)) : Option (Tagged α) := do
  let marks ← Fields.ofNamed? ["type"] fields
  return ⟨← marks.required "type" some, fun names => Fields.ofNamed? names fields⟩

/-- A record that lists its kind before its fields. -/
def ofListed? : List α → Option (Tagged α)
  | [] => none
  | tag :: items => some ⟨tag, fun names => Fields.ofListed? names items⟩

end Tagged

/-- The tagged record that an object or an array writes. -/
def tagged? : Json → Option (Tagged Json)
  | .object fields => Tagged.ofNamed? fields
  | .array items => Tagged.ofListed? items
  | _ => none

/-- The kind that a tag names, among the given kinds. A tag that was held before it was read
may be the place of a kind. -/
def kind? (kinds : List String) (held : Bool) (tag : Json) : Option String := do
  let name ← match tag.text? with
    | some name => some name
    | none => if held then kinds[← tag.natural? kinds.length]? else none
  if kinds.contains name then some name else none

end Retrieval.Json
