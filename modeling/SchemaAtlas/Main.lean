import SchemaAtlas.CommandLine.Run
import SchemaAtlas.Watching.Serving

/-!
# The program

Reads the files of a project into memory, runs the command line on them, and prints what it leaves
behind. Files outside the project directory, and those that a search for the entry file passes
over, are read when a scan asks for them.
-/

namespace SchemaAtlas.Program

open CommandLine

/-- The file at a path, if there is one. -/
def fileAt (path : String) : IO (Option Disk) := do
  try
    let content ← IO.FS.readBinFile path
    match String.fromUTF8? content with
    | some text => return some (.file text)
    | none => return some .binary
  catch _ => return none

/-- The file or directory at an entry of a directory, without what is passed over in it. -/
partial def treeAt (config : Config) (entry : IO.FS.DirEntry) : IO (Option (String × Disk)) := do
  if config.isPassedOver entry.fileName then return none
  if ← entry.path.isDir then
    let entries ← (← entry.path.readDir).toList.filterMapM (treeAt config)
    return some (entry.fileName, .directory entries)
  else
    return (← fileAt entry.path.toString).map fun file => (entry.fileName, file)

/-- A disk with the working directory and the project directory of a name. -/
def loadProject (working name : String) : IO Disk := do
  let empty := Disk.insert (.directory []) ⟨working⟩ (.directory [])
  try
    let directory ← IO.FS.realPath name
    let settings := Config.filePath ⟨directory.toString⟩
    let disk := match ← fileAt settings.text with
      | some file => empty.insert settings file
      | none => empty
    if ← directory.isDir then
      let config := Config.ofProject disk ⟨directory.toString⟩
      let entries ← (← directory.readDir).toList.filterMapM (treeAt config)
      let project := ((disk.locate ⟨directory.toString⟩).toOption.bind (·.here.entries?)).getD []
      return disk.insert ⟨directory.toString⟩ (.directory (project ++ entries))
    else
      return (← fileAt directory.toString).elim disk (disk.insert ⟨directory.toString⟩ ·)
  catch _ => return empty

/-- The paths that a scan looks for in vain. -/
def missing (workspace : Workspace) (disk : Disk) : List FilePath :=
  match (workspace.rescan workspace.indexer disk).1 with
  | .ok s => (s.diagnostics.filter (·.kind == .notFound)).map (·.path)
  | .error (.entryNotFound path) => [path]
  | .error _ => []

/-- Reads the files that a scan asks for and that are not in memory. -/
partial def complete (workspace : Workspace) (disk : Disk) : IO Disk := do
  let found ← (missing workspace disk).filterMapM fun path => do
    return (← fileAt path.text).map fun file => (path, file)
  if found.isEmpty then return disk
  complete workspace (found.foldl (fun disk (path, file) => disk.insert path file) disk)

/-- The place of the working directory. -/
def placeOf (disk : Disk) (working : String) : Disk.Place :=
  (disk.locate ⟨working⟩).toOption.getD disk.root

/-- A disk with all that a command asks for. -/
def loadFor (invocation : Invocation) (working : String) : IO Disk := do
  let disk ← loadProject working invocation.project.directory
  match invocation.workspace disk (placeOf disk working) with
  | .ok workspace => complete workspace disk
  | .error _ => return disk

/-- Whether reading a file came out the same twice. -/
def sameReading : Except Disk.Fault String → Except Disk.Fault String → Bool
  | .ok a, .ok b => a == b
  | .error a, .error b => a == b
  | _, _ => false

/-- The changes that lead from one disk to another. -/
def changes (before after : Disk) : List Change :=
  let paths := ((before.source.listing ++ after.source.listing).map Prod.fst).eraseDups
  let changed := paths.filter fun path => !sameReading (before.read path) (after.read path)
  changed.map fun path => ⟨.modified, [path]⟩

/-- Answers the lines of a client, each after the changes that came before it. -/
partial def serve (invocation : Invocation) (working : String) (watching : Bool)
    (server : Server) (disk : Disk) (input output : IO.FS.Stream) : IO Unit := do
  let line ← input.getLine
  if line.isEmpty then return
  let current ← loadFor invocation working
  let noticed := if watching then changes disk current else []
  let server := noticed.foldl (·.afterChange current) server
  let (reply, server) := server.receive current line
  if let some reply := reply then
    output.putStrLn reply.toJson.compact
    output.flush
  serve invocation working watching server current input output

/-- Rescans after changes, for ever. -/
partial def watch (invocation : Invocation) (working : String) (server : Server)
    (phase : Watching.Phase) (disk : Disk) : IO Unit := do
  let config := server.workspace.config
  IO.sleep (UInt32.ofNat config.quietMilliseconds)
  let current ← loadFor invocation working
  let signals := match changes disk current with
    | [] => [Watching.Signal.quiet]
    | found => found.map .change
  let phase := signals.foldl (fun phase signal => (phase.next? config signal).getD phase) phase
  if phase = .rescanning then
    let (result, server) := server.rescan current
    let phase := (phase.next? config (.scanned result.toBool)).getD .waiting
    watch invocation working server phase current
  else watch invocation working server phase current

/-- Prints what a command leaves behind. -/
def finish (outcome : Outcome) : IO UInt32 := do
  IO.print outcome.output
  IO.eprint outcome.messages
  return UInt32.ofNat outcome.status

/-- Runs a command. -/
def execute (invocation : Invocation) : IO UInt32 := do
  let working := (← IO.FS.realPath ".").toString
  let start ← IO.monoNanosNow
  let disk ← loadFor invocation working
  let elapsed := Elapsed.ofNanoseconds ((← IO.monoNanosNow) - start)
  let outcome := invocation.run disk (placeOf disk working) elapsed
  match invocation.workspace disk (placeOf disk working), invocation.command with
  | .ok workspace, .serve watching =>
    serve invocation working watching (.start workspace disk) disk (← IO.getStdin) (← IO.getStdout)
    return 0
  | .ok workspace, .watch =>
    let status ← finish outcome
    (← IO.getStdout).flush
    if status = 0 then watch invocation working (.start workspace disk) .waiting disk
    return status
  | _, _ => finish outcome

end SchemaAtlas.Program

open SchemaAtlas in
/-- The command line. -/
def main (arguments : List String) : IO UInt32 :=
  match CommandLine.Request.read arguments with
  | .ok (.run invocation) => Program.execute invocation
  | _ =>
    let nothing := Disk.directory []
    Program.finish (CommandLine.run arguments nothing nothing.root ⟨0, ""⟩)
