import SchemaAtlas.CommandLine.Command
import SchemaAtlas.CommandLine.Listing

/-!
# Running commands

A command checks the format that it is asked for, opens the project, scans it, and prints what it
was asked. The first of these that fails ends it.
-/

namespace SchemaAtlas.CommandLine

/-- The forms in which a command can answer. -/
inductive Format where
  | text
  | json
  | mermaid
deriving DecidableEq, Repr

/-- The name of a format. -/
def Format.name : Format → String
  | .text => "text"
  | .json => "json"
  | .mermaid => "mermaid"

/-- The format of a name among those allowed. -/
def Format.choose (allowed : List Format) (name : String) : Except Failure Format :=
  match allowed.find? (·.name == name) with
  | some format => .ok format
  | none => .error { message := "Unknown format: " ++ name ++ " (expected one of " ++
      String.intercalate ", " (allowed.map Format.name) ++ ")" }

/-- The format in which a command is asked to answer. -/
def Command.format : Command → Except Failure Format
  | .scan name | .definition _ _ name | .operations _ name | .persisted _ name | .fields _ name
  | .stats name =>
    Format.choose [.text, .json] name
  | .graph _ name => Format.choose [.text, .json, .mermaid] name
  | .serve _ | .watch => .ok .text

/-- How many symbols a search lists at most. -/
def searchLimit : Nat := 50

/-- The operations of a name with their texts. A text that cannot be read ends the list. -/
def namedOperations (source : Source) (format : Format) : List OperationEntry → Outcome
  | [] => .success ""
  | operation :: rest =>
    match operationText source operation with
    | .error e => .failure "" (.ofQueryError e)
    | .ok text =>
      let shown := match format with
        | .json => jsonText (operationWithTextJson operation (.string text))
        | _ => operationWithText operation text
      let outcome := namedOperations source format rest
      { outcome with output := shown ++ outcome.output }

/-- The texts of persisted documents by their ids. -/
def manifestOutcome (source : Source) (s : Snapshot) : Except Failure Outcome :=
  match s.manifest source with
  | .ok texts => .ok (.success (jsonText (texts.toJson .string)))
  | .error e => .error (.ofQueryError e)

/-- What a command prints about a snapshot. -/
def answer (workspace : Workspace) (source : Source) (elapsed : Elapsed) (verbose : Bool)
    (format : Format) (s : Snapshot) : Command → Except Failure Outcome
  | .scan _ => .ok <| .success <|
    match format with
    | .json => jsonText (scanJson workspace elapsed s)
    | _ => scanText workspace elapsed s
  | .definition name search _ =>
    let found := if search then s.search name searchLimit else s.symbol name
    .ok <| .success <|
      match format with
      | .json => jsonText (Json.ofList SymbolMatch.toJson found)
      | _ => symbolsText workspace name found
  | .operations (some name) _ =>
    let found := s.operationsNamed name
    if found.isEmpty then .ok (.success (lines ["No operation named '" ++ name ++ "'"]))
    else .ok (namedOperations source format found)
  | .operations none _ => .ok <| .success <|
    match format with
    | .json => jsonText s.operationsJson
    | _ => operationsText s
  | .persisted manifest _ =>
    if manifest then manifestOutcome source s
    else .ok <| .success <|
      match format with
      | .json => jsonText s.persistedJson
      | _ => persistedText s
  | .fields type _ => .ok <| .success <|
    match format with
    | .json => jsonText (fieldsJson s type)
    | _ => fieldsText s type
  | .graph type _ => .ok <| .success <|
    match format with
    | .json => jsonText (Json.ofList Relationship.toJson (edges s type))
    | .mermaid => s.flowchart
    | .text => edgesText (edges s type)
  | .stats _ => .ok <| .success <|
    match format with
    | .json => jsonText s.stats.toJson
    | _ => statsText workspace verbose s
  | .watch =>
    let stats := s.stats
    .ok <| .success <| lines [
      "✅ Index ready: " ++ toString stats.files ++ " files, " ++ toString stats.symbols ++
        " symbols, " ++ toString stats.operations ++ " operations",
      "👀 Watching " ++ workspace.directory.text ++ " for changes. Press Ctrl+C to stop."]
  | .serve _ => .ok (.success "")

/-- Whether the diagnostics of a scan stand in the answer itself, so that no warnings are given. -/
def Command.answersDiagnostics (command : Command) (format : Format) : Bool :=
  match command with
  | .scan _ => format = .json
  | _ => false

/-- Opens the project of a command. -/
def Invocation.workspace (invocation : Invocation) (disk : Disk) (working : Disk.Place) :
    Except Failure Workspace :=
  let project := invocation.project
  (Workspace.open disk working project.directory project.entry).mapError .ofOpenError

/-- Runs a command on a disk, from a working directory. A server is opened and left before any
request. -/
def Invocation.run (invocation : Invocation) (disk : Disk) (working : Disk.Place)
    (elapsed : Elapsed) : Outcome :=
  .ofExcept do
    let command := invocation.command
    let format ← command.format
    let workspace ← invocation.workspace disk working
    match command with
    | .serve _ => return .success ""
    | _ =>
      let (result, _) := workspace.rescan workspace.indexer disk
      let s ← result.mapError (.ofScanError workspace.entry)
      let outcome := Outcome.ofExcept
        (answer workspace disk.source elapsed invocation.verbose format s command)
      return if command.answersDiagnostics format then outcome
        else outcome.withWarnings (warnings s.diagnostics)

/-- Runs what a command line asks for. -/
def run (arguments : List String) (disk : Disk) (working : Disk.Place) (elapsed : Elapsed) :
    Outcome :=
  match Request.read arguments with
  | .error e => .misuse e
  | .ok .version => .success (lines [programName ++ " " ++ programVersion])
  | .ok (.run invocation) => invocation.run disk working elapsed

end SchemaAtlas.CommandLine
