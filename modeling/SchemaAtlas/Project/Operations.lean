import SchemaAtlas.Document.Reading
import SchemaAtlas.Index.Basic
import SchemaAtlas.Text.Blank

/-!
# The operations of a document
-/

namespace SchemaAtlas

/-- The index entry of an operation or fragment. -/
def Executable.entry (executable : Executable) (uri : String) (persisted : Bool) : OperationEntry :=
  { name := (executable.name.map Name.text).getD anonymousOperation
    kind := executable.kind
    uri
    range := ⟨executable.start, executable.stop⟩
    persisted }

/-- The operations and fragments of a document, in text order. -/
def Document.executables (document : Document) : List Executable :=
  document.definitions.filterMap fun
    | .executable executable => some executable
    | _ => none

/-- The index entries of the operations and fragments of a document. -/
def Document.operationEntries (document : Document) (uri : String) (persisted : Bool) :
    List OperationEntry :=
  document.executables.map (·.entry uri persisted)

/-- The range of a piece of a text without the white space at the end of the piece. -/
def trimmedRange (text : String) (start stop : Nat) : ByteRange :=
  match Text.slice? text.toList start stop with
  | some slice => ⟨start, start + Text.byteLength (Text.trimEnd slice)⟩
  | none => ⟨start, stop⟩

/-- The index entries of the operations and fragments of a document, each of which ends where
`nodeEnd` says: a node may take in white space behind its last token. -/
def Document.collectOperations (document : Document) (text : String) (nodeEnd : Executable → Nat)
    (uri : String) (persisted : Bool) : List OperationEntry :=
  document.executables.map fun executable =>
    { executable.entry uri persisted with
      range := trimmedRange text executable.start (nodeEnd executable) }

end SchemaAtlas
