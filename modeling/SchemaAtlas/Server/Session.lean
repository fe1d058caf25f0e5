import SchemaAtlas.Server.Message
import SchemaAtlas.Server.Tool

/-!
# Serving a project

A server answers the requests of one client about one project, line by line. Only a call of the
tool that rescans, and a scan that a change of files brings about, replace the published snapshot,
and only if the scan succeeds.
-/

namespace SchemaAtlas

/-- A server with the project that it serves. -/
structure Server where
  workspace : Workspace
  indexer : Indexer

namespace Server

/-- Why a request is not answered with a result. -/
inductive Refusal where
  | invalidParams
  | methodNotFound
  /-- The line holds no message. -/
  | malformed
  | call (cause : CallError)
deriving DecidableEq, Repr

/-- The code of a refusal. -/
def Refusal.code : Refusal → Int
  | .invalidParams => -32602
  | .methodNotFound => -32601
  | .malformed | .call _ => -32603

/-- How a refusal is reported. The text for a line that holds no message is a fixed one: it stands
for what a reader of JSON has to say of the line, which depends on the reader. -/
def Refusal.message : Refusal → String
  | .invalidParams => "Invalid params"
  | .methodNotFound => "Method not found"
  | .malformed => "Internal error: malformed message"
  | .call cause => "Internal error: " ++ cause.message

/-- A reply to a line. -/
structure Reply where
  /-- The id of the request, or null where it is not told. -/
  id : Json
  outcome : Except Refusal Json

/-- A reply as it is sent. -/
def Reply.toJson (reply : Reply) : Json :=
  let outcome := match reply.outcome with
    | .ok result => ("result", result)
    | .error refusal =>
      ("error", .object [("code", .integer refusal.code), ("message", .string refusal.message)])
  Json.sortKeys (.object [("jsonrpc", .string "2.0"), ("id", reply.id), outcome])

/-- A server of a project on a disk, behind the first scan, which may fail. -/
def start (workspace : Workspace) (disk : Disk) : Server :=
  { workspace, indexer := (workspace.rescan workspace.indexer disk).2 }

/-- The published snapshot. -/
def snapshot (server : Server) : Snapshot :=
  server.indexer.snapshot

/-- Scans the project, and publishes the snapshot if the scan succeeds. -/
def rescan (server : Server) (disk : Disk) : Except ScanError Snapshot × Server :=
  let (result, indexer) := server.workspace.rescan server.indexer disk
  (result, { server with indexer })

/-- Calls a tool. -/
def callTool (server : Server) (disk : Disk) (tool : Tool) (arguments : Json) :
    Except CallError Json × Server :=
  let s := server.snapshot
  match tool with
  | .definition => (callDefinition s arguments, server)
  | .operations => (.ok (callOperations s disk.source arguments), server)
  | .persisted => (callPersisted s disk.source arguments, server)
  | .typeGraph => (callTypeGraph s arguments, server)
  | .stats => (.ok (callStats s), server)
  | .rescan =>
    let (result, server) := server.rescan disk
    match result with
    | .ok s => (.ok (rescanSummary s), server)
    | .error cause => (.error (.scan cause), server)

/-- Calls the tool that parameters name. -/
def call (server : Server) (disk : Disk) (params : Json) : Except CallError Json × Server :=
  match (params.member? "name").bind Json.string? with
  | none => (.error .noToolName, server)
  | some name =>
    match Tool.ofName? name with
    | none => (.error (.unknownTool name), server)
    | some tool => server.callTool disk tool ((params.member? "arguments").getD .null)

/-- What a client is told about the server. -/
def initialization : Json :=
  .object [
    ("protocol_version", .string "2024-11-05"),
    ("capabilities", .object [("tools", .object [])]),
    ("server_info", .object [("name", .string programName), ("version", .string programVersion)])]

/-- Answers a request. A call that fails is reported without the id of its request. -/
def respond (server : Server) (disk : Disk) (id : Json) (message : Message) : Reply × Server :=
  match message.method with
  | some "initialize" => (⟨id, .ok initialization⟩, server)
  | some "tools/list" =>
    (⟨id, .ok (.object [("tools", Json.ofList Tool.listing Tool.all)])⟩, server)
  | some "tools/call" =>
    match message.params with
    | none => (⟨id, .error .invalidParams⟩, server)
    | some params =>
      match server.call disk params with
      | (.ok result, server) => (⟨id, .ok result⟩, server)
      | (.error cause, server) => (⟨.null, .error (.call cause)⟩, server)
  | some "shutdown" => (⟨id, .ok .null⟩, server)
  | _ => (⟨id, .error .methodNotFound⟩, server)

/-- Takes a line. Blank lines and messages without an id are not answered. -/
def receive (server : Server) (disk : Disk) (line : String) : Option Reply × Server :=
  if (Text.trim line.toList).isEmpty then (none, server)
  else
    match Message.ofText? line with
    | none => (some ⟨.null, .error .malformed⟩, server)
    | some message =>
      match message.id with
      | none => (none, server)
      | some id =>
        let (reply, server) := server.respond disk id message
        (some reply, server)

/-- Takes lines one after another, each with the files as they are then: the replies in the order
of the lines, and the server behind the last one. The lines are texts. Bytes that are no UTF-8 are
no line: where they come in, the input ends before them. -/
def serve (server : Server) : List (Disk × String) → List Reply × Server
  | [] => ([], server)
  | (disk, line) :: inputs =>
    let (answer, server) := server.receive disk line
    let (replies, server) := serve server inputs
    (answer.toList ++ replies, server)

end Server

end SchemaAtlas
