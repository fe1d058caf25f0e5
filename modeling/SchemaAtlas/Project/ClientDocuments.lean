import SchemaAtlas.Digest
import SchemaAtlas.FileUri.Basic
import SchemaAtlas.Project.Crawl
import SchemaAtlas.Project.Operations

/-!
# Scanning the documents that clients run

The schema files of a project declare documents. A document counts once however often it is
declared, and is persisted if any of its declarations says so. Documents are scanned in the order
of their paths; one that is missing, unreadable or broken adds a diagnostic and nothing else.
-/

namespace SchemaAtlas.ClientDocuments

/-- The path that a declaration names, read from the root of the project. -/
def resolve (root : FilePath) (declaration : Wiring.Declaration) : FilePath :=
  (root.join ⟨declaration.document⟩).normalize

/-- The documents that declarations name, each once and in path order, and whether they are
persisted. -/
def collect (root : FilePath) (declarations : List Wiring.Declaration) : List (FilePath × Bool) :=
  let paths := ((declarations.map (resolve root)).eraseDups).mergeSort FilePath.le
  paths.map fun path => (path, declarations.any fun d => resolve root d == path && d.persist)

/-- What a document that can be read adds. One with syntax errors adds a diagnostic, whose message
tells the place of the first error and not what a parser says of all of them. -/
def recordsOfText (path : FilePath) (persist : Bool) (text : String) : List Record :=
  let document := Document.ofText text
  match document.fault with
  | some offset => [.diagnostic { path, kind := .parse, message := syntaxErrorMessage text offset }]
  | none =>
    let uri := FileUri.ofPath path
    let operations := document.operationEntries uri persist
    (if persist && !operations.isEmpty then
      [Record.persisted { id := Digest.documentId text, uri, operations }]
    else []) ++ [.operations uri operations]

/-- What a document adds. -/
def recordsOf (source : Source) (path : FilePath) (persist : Bool) : List Record :=
  if source.has path then
    match source.read path with
    | .ok text => recordsOfText path persist text
    | .error reason => [.diagnostic { path, kind := .io, message := reason }]
  else [.diagnostic { path, kind := .notFound, message := "document does not exist" }]

/-- What all documents add that a text of schema files declares. -/
def records (source : Source) (root : FilePath) (assembled : String) : List Record :=
  (collect root (Wiring.declarationsOfText assembled)).flatMap fun (path, persist) =>
    recordsOf source path persist

end SchemaAtlas.ClientDocuments
