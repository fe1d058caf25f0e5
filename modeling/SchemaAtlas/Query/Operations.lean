import SchemaAtlas.Digest
import SchemaAtlas.FileUri.Decode
import SchemaAtlas.Index.Basic
import SchemaAtlas.Project.Source
import SchemaAtlas.Text.Bytes

/-!
# The texts of operations

The index knows operations by the byte ranges they had when their documents were scanned; their
texts are read again when they are asked for.
-/

namespace SchemaAtlas

/-- Why a text cannot be given. -/
inductive QueryError where
  | invalidUri (uri : String)
  | notAFile (uri : String)
  | unreadable (path : FilePath) (reason : String)
  | stale (range : ByteRange) (path : FilePath)
deriving DecidableEq, Repr

/-- How an error is reported. -/
def QueryError.message : QueryError → String
  | .invalidUri uri => "Invalid file URI: " ++ uri
  | .notAFile uri => "Not a file URI: " ++ uri
  | .unreadable path _ => "Failed to read " ++ path.text
  | .stale range path =>
    "Range " ++ toString range.start ++ ".." ++ toString range.stop ++ " is stale for " ++ path.text

/-- What lies behind an error. -/
def QueryError.causes : QueryError → List String
  | .unreadable _ reason => [reason]
  | _ => []

/-- The path and the text of the file with a URI. No file has a path that is not text. -/
def readUri (source : Source) (uri : String) : Except QueryError (FilePath × String) :=
  match FileUri.toPath uri with
  | .error .invalid => .error (.invalidUri uri)
  | .error .notAFile => .error (.notAFile uri)
  | .error (.notText shown) => .error (.unreadable shown (source.absent shown))
  | .ok path =>
    match source.read path with
    | .ok text => .ok (path, text)
    | .error reason => .error (.unreadable path reason)

/-- The text of an operation. -/
def operationText (source : Source) (operation : OperationEntry) : Except QueryError String := do
  let (path, text) ← readUri source operation.uri
  match Text.slice? text.toList operation.range.start operation.range.stop with
  | some slice => .ok (String.ofList slice)
  | none => .error (.stale operation.range path)

namespace Snapshot

/-- The operations and fragments of a name, in the order of their documents. -/
def operationsNamed (s : Snapshot) (name : String) : List OperationEntry :=
  s.operations.values.flatten.filter (·.name == name)

/-- The texts of the persisted documents that still have the content that their ids stand for, by
id. -/
def manifest (source : Source) (s : Snapshot) : Except QueryError (OrderedMap String) :=
  s.persisted.entries.foldlM (fun texts (id, document) => do
    let (_, text) ← readUri source document.uri
    return if Digest.documentId text == id then texts.insert id text else texts) .empty

end Snapshot

end SchemaAtlas
