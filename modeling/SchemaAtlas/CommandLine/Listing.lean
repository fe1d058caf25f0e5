import SchemaAtlas.CommandLine.Outcome
import SchemaAtlas.Index.Json
import SchemaAtlas.Query.Symbols
import SchemaAtlas.Query.TypeGraph

/-!
# What commands print

A snapshot and the results of queries, as lines for people and as indented JSON for programs.
-/

namespace SchemaAtlas

/-- The name of the program. -/
def programName : String := "schemagraph"

/-- The version of the program. -/
def programVersion : String := "0.1.0"

/-- A diagnostic in one line. -/
def Diagnostic.line (diagnostic : Diagnostic) : String :=
  diagnostic.path.text ++ " (" ++ diagnostic.kind.title ++ "): " ++ diagnostic.message

namespace CommandLine

/-- Lines, each with its end. -/
def lines (texts : List String) : String :=
  String.join (texts.map (· ++ "\n"))

/-- A label with a number. -/
def labelled (label : String) (n : Nat) : String :=
  label ++ ": " ++ toString n

/-- A value as indented JSON. -/
def jsonText (value : Json) : String :=
  value.pretty ++ "\n"

/-- Diagnostics as warnings. -/
def warnings (diagnostics : List Diagnostic) : String :=
  lines (diagnostics.map fun diagnostic => "warning: " ++ diagnostic.line)

/-! ## The whole index -/

/-- How long a scan took. -/
structure Elapsed where
  milliseconds : Nat
  text : String
deriving DecidableEq, Repr

/-- A number of hundredths as a decimal with two places. -/
def Elapsed.hundredths (n : Nat) : String :=
  let rest := toString (n % 100)
  toString (n / 100) ++ "." ++ (if rest.length = 1 then "0" ++ rest else rest)

/-- A time span in the greatest unit that it fills, with two places. -/
def Elapsed.ofNanoseconds (n : Nat) : Elapsed :=
  let (size, unit) :=
    if n ≥ 1000000000 then (1000000000, "s")
    else if n ≥ 1000000 then (1000000, "ms")
    else if n ≥ 1000 then (1000, "µs")
    else (1, "ns")
  { milliseconds := n / 1000000, text := hundredths ((n * 100 + size / 2) / size) ++ unit }

/-- The lines that say which project an answer is about. -/
def projectLines (workspace : Workspace) : List String :=
  ["Project: " ++ workspace.config.projectName, "Entry: " ++ workspace.shown workspace.entry]

/-- The result of a scan for people. -/
def scanText (workspace : Workspace) (elapsed : Elapsed) (s : Snapshot) : String :=
  let stats := s.stats
  lines (
    [programName ++ " v" ++ programVersion] ++ projectLines workspace ++
    ["", "Indexed " ++ toString stats.files ++ " schema files in " ++ elapsed.text ++ ":"] ++
    s.files.map (fun file => "  - " ++ workspace.shown file) ++
    ["",
      labelled "Symbols" stats.symbols,
      labelled "Types with fields" stats.types,
      labelled "Relationships" stats.relationships,
      labelled "Operations" stats.operations,
      labelled "Persisted documents" stats.persisted] ++
    if s.diagnostics.isEmpty then [] else [labelled "Diagnostics" s.diagnostics.length])

/-- The result of a scan for programs. -/
def scanJson (workspace : Workspace) (elapsed : Elapsed) (s : Snapshot) : Json :=
  Json.sortKeys <| .object [
    ("entry", .string workspace.entry.text),
    ("files", Json.ofList (fun file => .string file.text) s.files),
    ("stats", s.stats.toJson),
    ("diagnostics", s.diagnosticsJson),
    ("elapsed_ms", .ofNat elapsed.milliseconds)]

/-- How often each text occurs, in the order of the texts. -/
def tally (texts : List String) : OrderedMap Nat :=
  texts.foldl (fun counts text => counts.alter text fun n => n.getD 0 + 1) .empty

/-- Counts below a heading, and nothing where there are none. -/
def countLines (heading : String) (counts : List (String × Nat)) : List String :=
  if counts.isEmpty then []
  else ("  " ++ heading ++ ":") :: counts.map fun (name, n) => "    " ++ labelled name n

/-- The details of the statistics. -/
def detailLines (s : Snapshot) : List String :=
  ["", "📈 Detailed Statistics:"] ++
    countLines "Root operations"
      (s.rootOperations.entries.map fun (root, fields) => (root, fields.size)) ++
    countLines "Operations by kind"
      (tally (s.operations.values.flatten.map (·.kind.keyword))).entries ++
    countLines "Diagnostics by kind" (tally (s.diagnostics.map (·.kind.title))).entries

/-- The statistics for people. -/
def statsText (workspace : Workspace) (verbose : Bool) (s : Snapshot) : String :=
  let stats := s.stats
  lines (
    [programName ++ " Statistics v" ++ programVersion] ++ projectLines workspace ++
    ["", "📊 Index Statistics:",
      labelled "  Total files" stats.files,
      labelled "  Total symbols" stats.symbols,
      labelled "  Types with fields" stats.types,
      labelled "  Total fields" stats.fields,
      labelled "  Total relationships" stats.relationships,
      labelled "  Operations" stats.operations,
      labelled "  Persisted documents" stats.persisted,
      labelled "  Diagnostics" stats.diagnostics] ++
    if verbose then detailLines s else [])

/-! ## Symbols -/

/-- Where a symbol is declared, in one line with counts from one. -/
def symbolLine (workspace : Workspace) (found : SymbolMatch) : String :=
  let qualified := match found.container with
    | some container => container ++ "." ++ found.name
    | none => found.name
  "  " ++ workspace.shown ⟨found.file⟩ ++ ":" ++ toString (found.line + 1) ++ ":" ++
    toString (found.character + 1) ++ " - " ++ qualified

/-- Where symbols are declared. -/
def symbolsText (workspace : Workspace) (name : String) (found : List SymbolMatch) : String :=
  if found.isEmpty then lines ["No definition found for '" ++ name ++ "'"]
  else
    lines (("Found " ++ toString found.length ++ " results:") :: found.map (symbolLine workspace))

/-! ## Operations -/

/-- An operation in a list. -/
def operationLine (operation : OperationEntry) : String :=
  "  " ++ operation.kind.keyword ++ " " ++ operation.name ++
    " (" ++ toString operation.range.start ++ ".." ++ toString operation.range.stop ++ ")" ++
    if operation.persisted then " [persisted]" else ""

/-- All operations below their documents. -/
def operationsText (s : Snapshot) : String :=
  if s.operations.entries.isEmpty then lines ["No executable documents indexed"]
  else lines (s.operations.entries.flatMap fun (uri, operations) =>
    uri :: operations.map operationLine)

/-- An operation with its text. -/
def operationWithText (operation : OperationEntry) (text : String) : String :=
  lines ["# " ++ operation.kind.keyword ++ " " ++ operation.name ++ " (" ++ operation.uri ++ ")",
    text]

/-- An operation with its text, for programs. -/
def operationWithTextJson (operation : OperationEntry) (text : Json) : Json :=
  Json.sortKeys <| .object [("operation", operation.toJson), ("text", text)]

/-- The persisted documents. -/
def persistedText (s : Snapshot) : String :=
  if s.persisted.entries.isEmpty then lines ["No persisted documents"]
  else lines (s.persisted.entries.flatMap fun (id, document) =>
    id :: ("  " ++ document.uri) ::
      document.operations.map fun operation =>
        "  - " ++ operation.kind.keyword ++ " " ++ operation.name)

/-! ## Types -/

/-- A field in the listing of its type. -/
def fieldLine (field : FieldEntry) : String :=
  let arguments := field.arguments.map fun argument => argument.name ++ ": " ++ argument.type
  "  " ++ field.name ++
    (if arguments.isEmpty then "" else "(" ++ String.intercalate ", " arguments ++ ")") ++ ": " ++
    if field.isList then "[" ++ field.type ++ "]" else field.type

/-- A type with its fields. -/
def typeLines (s : Snapshot) (type : String) : List String :=
  let directives := (s.typeDirectives.get? type).getD []
  ("type " ++ type ++ String.join (directives.map fun directive => " @" ++ directive.name)) ::
    (s.fieldsOf type).map fieldLine

/-- The fields of one type, or of all. -/
def fieldsText (s : Snapshot) : Option String → String
  | some type =>
    if (s.fields.get? type).isNone then lines ["No fields indexed for type '" ++ type ++ "'"]
    else lines (typeLines s type)
  | none => lines (s.fields.keys.flatMap (typeLines s))

/-- The fields of one type, or of all, for programs. -/
def fieldsJson (s : Snapshot) : Option String → Json
  | some type => Json.ofList FieldEntry.toJson (s.fieldsOf type)
  | none => s.fieldsJson

/-- The edges at one type, those from it first, or all edges. An edge from the type to itself is
listed once. -/
def edges (s : Snapshot) : Option String → List Relationship
  | some type => s.outgoing type ++ (s.incoming type).filter (·.source != type)
  | none => s.relationships

/-- An edge in one line. -/
def edgeLine (edge : Relationship) : String :=
  "  " ++ edge.source ++ "." ++ edge.field ++ " -> " ++
    if edge.isList then "[" ++ edge.target ++ "]" else edge.target

/-- Edges for people. -/
def edgesText (found : List Relationship) : String :=
  if found.isEmpty then lines ["No relationships found"] else lines (found.map edgeLine)

end CommandLine

end SchemaAtlas
