import SchemaAtlas.Index.Basic

/-!
# Building an index

A scan fills a snapshot record by record. Lists keep the order of the records; a map keeps the
last record of a key, save that a symbol keeps the first of several records of one location.
-/

namespace SchemaAtlas

/-- One entry that a scan adds to an index. -/
inductive Record where
  | entry (path : FilePath)
  | file (path : FilePath)
  | definition (name : String) (symbol : SymbolLocation)
  | rootOperation (field : String) (operation : RootOperation)
  | field (type : String) (field : FieldEntry)
  | typeDirectives (type : String) (directives : List DirectiveUse)
  | relationship (relationship : Relationship)
  | operations (uri : String) (operations : List OperationEntry)
  | persisted (document : PersistedDocument)
  | diagnostic (diagnostic : Diagnostic)

namespace Snapshot

/-- Adds a location to those of a symbol, unless it is one of them. -/
def addLocation (known : List SymbolLocation) (symbol : SymbolLocation) : List SymbolLocation :=
  if known.any (·.location.same symbol.location) then known else known ++ [symbol]

/-- A snapshot with one record more. -/
def add (s : Snapshot) : Record → Snapshot
  | .entry path => { s with entry := some path }
  | .file path => { s with files := s.files ++ [path] }
  | .definition name symbol =>
    { s with
      definitions := s.definitions.alter name fun known => addLocation (known.getD []) symbol }
  | .rootOperation field operation =>
    { s with rootOperations :=
        s.rootOperations.alter operation.rootType fun known =>
          (known.getD .empty).insert field operation }
  | .field type field => { s with fields := s.fields.append type [field] }
  | .typeDirectives type directives =>
    if directives.isEmpty then s
    else { s with typeDirectives := s.typeDirectives.append type directives }
  | .relationship relationship => { s with relationships := s.relationships ++ [relationship] }
  | .operations uri operations => { s with operations := s.operations.insert uri operations }
  | .persisted document => { s with persisted := s.persisted.insert document.id document }
  | .diagnostic diagnostic => { s with diagnostics := s.diagnostics ++ [diagnostic] }

/-- A snapshot with more records. -/
def addAll (s : Snapshot) (records : List Record) : Snapshot :=
  records.foldl add s

/-- The snapshot that a list of records builds. -/
def ofRecords (records : List Record) : Snapshot :=
  empty.addAll records

end Snapshot

end SchemaAtlas
