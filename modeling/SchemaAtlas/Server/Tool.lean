import SchemaAtlas.CommandLine.Listing

/-!
# Tools

What a client can have done: a tool is called by its name with named arguments, and answers with a
text.
-/

namespace SchemaAtlas.Server

/-- What can be done. -/
inductive Tool where
  | definition
  | operations
  | persisted
  | typeGraph
  | rescan
  | stats
deriving DecidableEq, Repr

namespace Tool

/-- All tools in the order in which they are listed. -/
def all : List Tool :=
  [definition, operations, persisted, typeGraph, rescan, stats]

/-- The name by which a tool is called. -/
def name : Tool → String
  | definition => "schema_definition"
  | operations => "schema_operations"
  | persisted => "schema_persisted"
  | typeGraph => "schema_type_graph"
  | rescan => "schema_rescan"
  | stats => "schema_stats"

/-- The tool of a name. -/
def ofName? (name : String) : Option Tool :=
  all.find? (·.name == name)

/-- What a tool does. -/
def description : Tool → String
  | definition => "Find where a type or root operation field is declared"
  | operations => "List operations and fragments of the executable documents"
  | persisted => "List persisted documents by content-addressed id"
  | typeGraph => "Type relationships, or fields and edges of one type"
  | rescan => "Rebuild the index from the entry file"
  | stats => "Get index statistics"

/-- The description of an argument: its type, what it means, and further properties. -/
def argument (type description : String) (more : List (String × Json)) : Json :=
  .object ([("type", .string type), ("description", .string description)] ++ more)

/-- The description of all arguments of a tool. -/
def schema (tool : Tool) : Json :=
  let record (properties more : List (String × Json)) : Json :=
    .object ([("type", .string "object"), ("properties", .object properties)] ++ more)
  match tool with
  | definition => record [("name", argument "string" "Exact, case-sensitive symbol name" [])]
      [("required", .array [.string "name"])]
  | operations =>
    record [("name", argument "string" "Only this operation, with its source text" [])] []
  | persisted => record [("manifest", argument "boolean" "Return document id to document text"
      [("default", .bool false)])] []
  | typeGraph => record [
      ("type", argument "string" "Restrict to one type" []),
      ("format", argument "string" "Output format"
        [("enum", .array [.string "json", .string "mermaid"]), ("default", .string "json")])] []
  | rescan | stats => record [] []

/-- A tool in the list of tools. -/
def listing (tool : Tool) : Json :=
  .object [("name", .string tool.name), ("description", .string tool.description),
    ("input_schema", tool.schema)]

end Tool

/-- Why a call fails. -/
inductive CallError where
  | noToolName
  | unknownTool (name : String)
  | noArgument (name : String)
  | unknownFormat (name : String)
  | query (cause : QueryError)
  | scan (cause : ScanError)
deriving DecidableEq, Repr

/-- How an error is reported. -/
def CallError.message : CallError → String
  | .noToolName => "Missing tool name"
  | .unknownTool name => "Unknown tool: " ++ name
  | .noArgument name => "Missing " ++ name
  | .unknownFormat name => "Unknown format: " ++ name
  | .query cause => cause.message
  | .scan cause => cause.message

/-- A text as the answer of a call. -/
def textContent (text : String) : Json :=
  .object [("content", .array [.object [("type", .string "text"), ("text", .string text)]])]

/-- A value as the answer of a call: its indented text with sorted keys. -/
def jsonContent (value : Json) : Json :=
  textContent value.sortKeys.pretty

/-! ## Calls that leave the index as it is -/

/-- Where the symbol that is named is declared. -/
def callDefinition (s : Snapshot) (arguments : Json) : Except CallError Json :=
  match (arguments.member? "name").bind Json.string? with
  | none => .error (.noArgument "name")
  | some name =>
    let found := s.symbol name
    if found.isEmpty then .ok (textContent ("No definition found for '" ++ name ++ "'"))
    else .ok (jsonContent (Json.ofList SymbolMatch.toJson found))

/-- The operations of the name that is given with their texts, where a text that cannot be read is
null; or all operations. -/
def callOperations (s : Snapshot) (source : Source) (arguments : Json) : Json :=
  match (arguments.member? "name").bind Json.string? with
  | some name =>
    let withText (operation : OperationEntry) : Json :=
      let text := (operationText source operation).toOption
      CommandLine.operationWithTextJson operation (.ofOption text)
    jsonContent (Json.ofList withText (s.operationsNamed name))
  | none => jsonContent s.operationsJson

/-- The persisted documents, or the texts of those that are unchanged. -/
def callPersisted (s : Snapshot) (source : Source) (arguments : Json) : Except CallError Json :=
  if ((arguments.member? "manifest").bind Json.bool?).getD false then
    match s.manifest source with
    | .ok texts => .ok (jsonContent (texts.toJson .string))
    | .error cause => .error (.query cause)
  else .ok (jsonContent s.persistedJson)

/-- What is known about one type. -/
def typeJson (s : Snapshot) (type : String) : Json :=
  .object [
    ("type", .string type),
    ("fields", Json.ofList FieldEntry.toJson (s.fieldsOf type)),
    ("directives", match s.typeDirectives.get? type with
      | some directives => Json.ofList DirectiveUse.toJson directives
      | none => .null),
    ("incoming", Json.ofList Relationship.toJson (s.incoming type)),
    ("outgoing", Json.ofList Relationship.toJson (s.outgoing type))]

/-- One type, or the graph of all types in the format that is asked for. -/
def callTypeGraph (s : Snapshot) (arguments : Json) : Except CallError Json :=
  match (arguments.member? "type").bind Json.string? with
  | some type => .ok (jsonContent (typeJson s type))
  | none =>
    match ((arguments.member? "format").bind Json.string?).getD "json" with
    | "mermaid" => .ok (textContent s.flowchart)
    | "json" => .ok (jsonContent s.relationshipsJson)
    | other => .error (.unknownFormat other)

/-- How much is indexed. -/
def callStats (s : Snapshot) : Json :=
  let stats := s.stats
  textContent <| String.intercalate "\n- " [
    "Index Statistics:",
    CommandLine.labelled "Files" stats.files,
    CommandLine.labelled "Symbols" stats.symbols,
    CommandLine.labelled "Types" stats.types,
    CommandLine.labelled "Fields" stats.fields,
    CommandLine.labelled "Relationships" stats.relationships,
    CommandLine.labelled "Operations" stats.operations,
    CommandLine.labelled "Persisted documents" stats.persisted,
    CommandLine.labelled "Diagnostics" stats.diagnostics]

/-- What is said about a scan that succeeded. -/
def rescanSummary (s : Snapshot) : Json :=
  let stats := s.stats
  let first := "Rescanned " ++ toString stats.files ++ " files: " ++
    toString stats.symbols ++ " symbols, " ++ toString stats.operations ++ " operations, " ++
    toString stats.persisted ++ " persisted documents"
  let more := s.diagnostics.map fun diagnostic => "  " ++ diagnostic.line
  textContent (String.intercalate "\n" (first :: more))

end SchemaAtlas.Server
