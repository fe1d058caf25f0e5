import SchemaAtlas.Document.Basic
import SchemaAtlas.FilePath.Basic
import SchemaAtlas.OrderedMap

/-!
# The index of a schema project

A `Snapshot` is the result of one scan: where every name is declared, the fields of every object
type, the graph of types that the fields draw, the operations that clients run, and what went
wrong on the way.
-/

namespace SchemaAtlas

/-- A place in a schema file: zero-based line, and UTF-16 code units from the start of the line. -/
structure Location where
  file : FilePath
  line : Nat
  character : Nat
deriving DecidableEq, Repr

/-- Whether two locations are one place, however their files are spelled. -/
def Location.same (a b : Location) : Bool :=
  a.file.same b.file && a.line == b.line && a.character == b.character

/-- Where a symbol is declared; a field of a root type also names that type. -/
structure SymbolLocation where
  location : Location
  container : Option String
deriving DecidableEq, Repr

/-- An argument with its type as it is written, for example `[ID!]!`. -/
structure TypedArgument where
  name : String
  type : String
deriving DecidableEq, Repr

/-- An argument of a directive; only string literals leave a value. -/
structure DirectiveArgument where
  name : String
  value : Option String
deriving DecidableEq, Repr

/-- A directive where it is applied. -/
structure DirectiveUse where
  name : String
  arguments : List DirectiveArgument
deriving DecidableEq, Repr

/-- A field of a root type. -/
structure RootOperation where
  rootType : String
  /-- The name of the type of the field inside all wrappers. -/
  returnType : String
  isList : Bool
  arguments : List TypedArgument
  location : Location
deriving DecidableEq, Repr

/-- A field of an object type. -/
structure FieldEntry where
  name : String
  /-- The name of the type of the field inside all wrappers. -/
  type : String
  isList : Bool
  arguments : List TypedArgument
  directives : List DirectiveUse
  location : Location
deriving DecidableEq, Repr

/-- An edge of the type graph: the field `field` of `source` yields `target`. -/
structure Relationship where
  source : String
  target : String
  field : String
  isList : Bool
deriving DecidableEq, Repr

/-- A half-open range of byte offsets. -/
structure ByteRange where
  start : Nat
  stop : Nat
deriving DecidableEq, Repr

/-- An operation or fragment of a document that clients run. -/
structure OperationEntry where
  name : String
  kind : OperationKind
  uri : String
  range : ByteRange
  persisted : Bool
deriving DecidableEq, Repr

/-- The name of an operation that is declared without one. -/
def anonymousOperation : String := "<anonymous>"

/-- A document that is known to servers by its id. -/
structure PersistedDocument where
  id : String
  uri : String
  operations : List OperationEntry
deriving DecidableEq, Repr

/-- What can go wrong with a file of a project without ending the scan. -/
inductive DiagnosticKind where
  | notFound
  | parse
  | resolution
  | io
deriving DecidableEq, Repr

/-- How a kind is named to people. -/
def DiagnosticKind.title : DiagnosticKind → String
  | .notFound => "not found"
  | .parse => "parse error"
  | .resolution => "not resolved"
  | .io => "io error"

/-- How a kind is named to programs. -/
def DiagnosticKind.tag : DiagnosticKind → String
  | .notFound => "not_found"
  | .parse => "parse"
  | .resolution => "resolution"
  | .io => "io"

/-- A problem with a file that a scan passed over. -/
structure Diagnostic where
  path : FilePath
  kind : DiagnosticKind
  message : String
deriving DecidableEq, Repr

/-- The result of one scan. -/
structure Snapshot where
  entry : Option FilePath
  /-- Schema files in the order in which they were taken up. -/
  files : List FilePath
  definitions : OrderedMap (List SymbolLocation)
  /-- By root type, and then by field. -/
  rootOperations : OrderedMap (OrderedMap RootOperation)
  /-- By type, in the order of declaration. -/
  fields : OrderedMap (List FieldEntry)
  typeDirectives : OrderedMap (List DirectiveUse)
  relationships : List Relationship
  /-- By URI of the document. -/
  operations : OrderedMap (List OperationEntry)
  /-- By id. -/
  persisted : OrderedMap PersistedDocument
  diagnostics : List Diagnostic
deriving DecidableEq

/-- How much a snapshot holds. -/
structure Stats where
  files : Nat
  symbols : Nat
  types : Nat
  fields : Nat
  relationships : Nat
  operations : Nat
  persisted : Nat
  diagnostics : Nat
deriving DecidableEq, Repr

namespace Snapshot

/-- The snapshot that holds nothing. -/
def empty : Snapshot :=
  { entry := none, files := [], definitions := .empty, rootOperations := .empty, fields := .empty
    typeDirectives := .empty, relationships := [], operations := .empty, persisted := .empty
    diagnostics := [] }

instance : Inhabited Snapshot := ⟨empty⟩

/-- Whether nothing was indexed. -/
def isEmpty (s : Snapshot) : Bool :=
  s.files.isEmpty && s.definitions.size == 0

/-- All places where a symbol is declared, none if it is not. -/
def findDefinition? (s : Snapshot) (name : String) : Option (List SymbolLocation) :=
  s.definitions.get? name

/-- A field of a root type. -/
def rootOperation? (s : Snapshot) (rootType field : String) : Option RootOperation :=
  (s.rootOperations.get? rootType).bind (·.get? field)

/-- The fields of a type. -/
def fieldsOf (s : Snapshot) (type : String) : List FieldEntry :=
  (s.fields.get? type).getD []

/-- Counts what a snapshot holds. -/
def stats (s : Snapshot) : Stats :=
  { files := s.files.length
    symbols := s.definitions.size
    types := s.fields.size
    fields := s.fields.values.flatten.length
    relationships := s.relationships.length
    operations := s.operations.values.flatten.length
    persisted := s.persisted.size
    diagnostics := s.diagnostics.length }

end Snapshot

end SchemaAtlas
