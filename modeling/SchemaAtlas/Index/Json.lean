import SchemaAtlas.Index.Basic
import SchemaAtlas.Json.Basic

/-!
# The index as JSON

Members stand in the order in which the types declare them.
-/

namespace SchemaAtlas

/-- The members of a location. -/
def Location.members (location : Location) : List (String × Json) :=
  [("file_path", .string location.file.text), ("line", .ofNat location.line),
    ("character", .ofNat location.character)]

/-- A location as JSON. -/
def Location.toJson (location : Location) : Json :=
  .object location.members

/-- A symbol location as JSON: a location with one member more. -/
def SymbolLocation.toJson (symbol : SymbolLocation) : Json :=
  .object (symbol.location.members ++ [("container", .ofOption symbol.container)])

/-- An argument as JSON. -/
def TypedArgument.toJson (argument : TypedArgument) : Json :=
  .object [("name", .string argument.name), ("type", .string argument.type)]

/-- A directive argument as JSON. -/
def DirectiveArgument.toJson (argument : DirectiveArgument) : Json :=
  .object [("name", .string argument.name), ("value", .ofOption argument.value)]

/-- A directive as JSON. -/
def DirectiveUse.toJson (directive : DirectiveUse) : Json :=
  .object [("name", .string directive.name), ("args", .array (directive.arguments.map (·.toJson)))]

/-- A root operation as JSON. -/
def RootOperation.toJson (operation : RootOperation) : Json :=
  .object [("root_type", .string operation.rootType), ("return_type", .string operation.returnType),
    ("is_list", .bool operation.isList), ("args", .array (operation.arguments.map (·.toJson))),
    ("location", operation.location.toJson)]

/-- A field as JSON. -/
def FieldEntry.toJson (field : FieldEntry) : Json :=
  .object [("name", .string field.name), ("type", .string field.type),
    ("is_list", .bool field.isList),
    ("args", .array (field.arguments.map (·.toJson))),
    ("directives", .array (field.directives.map (·.toJson))), ("location", field.location.toJson)]

/-- A relationship as JSON. -/
def Relationship.toJson (relationship : Relationship) : Json :=
  .object [("from_type", .string relationship.source), ("to_type", .string relationship.target),
    ("field_name", .string relationship.field), ("is_list", .bool relationship.isList)]

/-- A byte range as JSON. -/
def ByteRange.toJson (range : ByteRange) : Json :=
  .object [("start", .ofNat range.start), ("end", .ofNat range.stop)]

/-- An operation as JSON. -/
def OperationEntry.toJson (operation : OperationEntry) : Json :=
  .object [("name", .string operation.name), ("type", .string operation.kind.keyword),
    ("file_uri", .string operation.uri), ("range", operation.range.toJson),
    ("persisted", .bool operation.persisted)]

/-- A persisted document as JSON. -/
def PersistedDocument.toJson (document : PersistedDocument) : Json :=
  .object [("document_id", .string document.id), ("file_uri", .string document.uri),
    ("operations", .array (document.operations.map (·.toJson)))]

/-- A diagnostic as JSON. -/
def Diagnostic.toJson (diagnostic : Diagnostic) : Json :=
  .object [("path", .string diagnostic.path.text), ("kind", .string diagnostic.kind.tag),
    ("message", .string diagnostic.message)]

/-- Counts as JSON. -/
def Stats.toJson (stats : Stats) : Json :=
  .object [("total_files", .ofNat stats.files), ("total_symbols", .ofNat stats.symbols),
    ("total_types", .ofNat stats.types), ("total_fields", .ofNat stats.fields),
    ("total_relationships", .ofNat stats.relationships),
    ("total_operations", .ofNat stats.operations),
    ("total_persisted", .ofNat stats.persisted), ("total_diagnostics", .ofNat stats.diagnostics)]

/-- A list as JSON. -/
def Json.ofList {α : Type} (item : α → Json) (items : List α) : Json :=
  .array (items.map item)

/-- A map as JSON, in key order. -/
def OrderedMap.toJson {α : Type} (value : α → Json) (m : OrderedMap α) : Json :=
  .object (m.entries.map fun (key, a) => (key, value a))

namespace Snapshot

/-- The root operations as JSON. -/
def rootOperationsJson (s : Snapshot) : Json :=
  s.rootOperations.toJson (·.toJson RootOperation.toJson)

/-- The fields of all types as JSON. -/
def fieldsJson (s : Snapshot) : Json :=
  s.fields.toJson (Json.ofList FieldEntry.toJson)

/-- The directives of all types as JSON. -/
def typeDirectivesJson (s : Snapshot) : Json :=
  s.typeDirectives.toJson (Json.ofList DirectiveUse.toJson)

/-- The type graph as JSON. -/
def relationshipsJson (s : Snapshot) : Json :=
  Json.ofList Relationship.toJson s.relationships

/-- The operations of all documents as JSON. -/
def operationsJson (s : Snapshot) : Json :=
  s.operations.toJson (Json.ofList OperationEntry.toJson)

/-- The persisted documents as JSON. -/
def persistedJson (s : Snapshot) : Json :=
  s.persisted.toJson PersistedDocument.toJson

/-- The diagnostics as JSON. -/
def diagnosticsJson (s : Snapshot) : Json :=
  Json.ofList Diagnostic.toJson s.diagnostics

/-- A snapshot as JSON. -/
def toJson (s : Snapshot) : Json :=
  .object [("entry", .ofOption (s.entry.map FilePath.text)),
    ("files", Json.ofList (fun path => .string path.text) s.files),
    ("definitions", s.definitions.toJson (Json.ofList SymbolLocation.toJson)),
    ("root_operations", s.rootOperationsJson), ("field_index", s.fieldsJson),
    ("type_directives", s.typeDirectivesJson), ("type_relationships", s.relationshipsJson),
    ("operation_map", s.operationsJson), ("persisted_doc_map", s.persistedJson),
    ("diagnostics", s.diagnosticsJson)]

end Snapshot

end SchemaAtlas
