import Retrieval.Cli.Attempt
import Retrieval.Index.Corpus
import Retrieval.Settings

/-!
# Files that the program reads

The program reads its settings and the documents to be searched from files. A file is given by
its path and its content, if there is a file at the path.
-/

namespace Retrieval.Cli

/-- What is at a path: the content of a file, or nothing. -/
structure File where
  path : String
  content : Option (List UInt8)

/-- The text of a file. -/
def File.text (file : File) : Except Error String :=
  match file.content with
  | none => .error .missingFile
  | some bytes =>
    match Text.decode? bytes with
    | some text => .ok text
    | none => .error .unreadableFile

/-- Where settings come from. -/
inductive SettingsSource where
  /-- A file that was asked for. -/
  | named (file : File)
  /-- The usual file of the user, which need not exist. -/
  | usual (file : File)

/-- The settings that the program runs with. -/
def loadSettings : SettingsSource → Attempt Settings
  | .named file =>
    Attempt.ofExcept
      (fun e => (Failure.ofError e).within s!"failed to load config from {file.path}")
      (file.text.bind Settings.ofText)
  | .usual file =>
    if file.content.isNone then pure .standard
    else Attempt.ofExcept Failure.ofError (file.text.bind Settings.ofText)

/-- A document to be searched. -/
structure Document where
  key : Key
  sections : List String
deriving DecidableEq, Repr

/-- The document that a value writes. -/
def Document.ofJson? (j : Json) : Option Document := do
  let fields ← j.fields? ["key", "sections"]
  return {
    key := ← fields.required "key" Key.ofJson?
    sections := ← fields.required "sections" (Json.list? Json.text?) }

/-- The documents that a text lists. -/
def Document.listOfText (text : String) : Except Error (List Document) :=
  match (Json.parse? text.toList).bind (Json.list? Document.ofJson?) with
  | some documents => .ok documents
  | none => .error .malformed

/-- The corpus of the documents in a file. -/
def loadDocuments (file : File) : Attempt Corpus := do
  let text ← Attempt.ofExcept
    (fun e => (Failure.system e).within s!"failed to read documents from {file.path}") file.text
  let documents ← Attempt.ofExcept
    (fun e => (Failure.system e).within s!"failed to parse documents in {file.path}")
    (Document.listOfText text)
  let corpus := documents.foldl (fun corpus d => corpus.addDocument d.key d.sections) Corpus.empty
  Attempt.remark (.documentsLoaded documents.length corpus.size file.path)
  return corpus

end Retrieval.Cli
