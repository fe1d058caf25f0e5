import SchemaAtlas.Config.EntrySearch
import SchemaAtlas.Project.Scan

/-!
# An opened project

A project is opened by its directory, which may be given in any spelling and is then known by its
path from the root.
-/

namespace SchemaAtlas

/-- A project with its settings and its entry file. -/
structure Workspace where
  directory : FilePath
  config : Config
  entry : FilePath
deriving DecidableEq, Repr

/-- Why a project cannot be opened. -/
inductive OpenError where
  | noDirectory (name : String) (reason : String)
  | noEntry (name : String) (directory : FilePath)
deriving DecidableEq, Repr

/-- How an error is reported. -/
def OpenError.message : OpenError → String
  | .noDirectory name _ => "Project directory " ++ name ++ " not found"
  | .noEntry name directory => "No " ++ name ++ " found under " ++ directory.text

/-- What lies behind an error. -/
def OpenError.causes : OpenError → List String
  | .noDirectory _ reason => [reason]
  | .noEntry .. => []

namespace Workspace

/-- Opens the project in a directory. A given entry file, read from that directory, takes the
place of the one that is searched for. -/
def «open» (disk : Disk) (working : Disk.Place) (name : String) (entry : Option String) :
    Except OpenError Workspace :=
  match disk.locateFrom working ⟨name⟩ with
  | .error fault => .error (.noDirectory name fault.message)
  | .ok place =>
    let directory := place.path
    let config := Config.ofProject disk directory
    match entry with
    | some entry => .ok ⟨directory, config, directory.join ⟨entry⟩⟩
    | none =>
      match config.entryFile disk directory with
      | some entry => .ok ⟨directory, config, entry⟩
      | none => .error (.noEntry config.entry directory)

/-- A scanner of the project that has published nothing. -/
def indexer (workspace : Workspace) : Indexer :=
  .new workspace.config.scanOptions

/-- Scans the project as it is on a disk, and publishes the snapshot if the scan succeeds. -/
def rescan (workspace : Workspace) (indexer : Indexer) (disk : Disk) :
    Except ScanError Snapshot × Indexer :=
  let (scan, indexer) := indexer.scan disk.source workspace.entry none
  (scan.result, indexer)

/-- How a path is shown: as it reads from the directory of the project if it lies in it. -/
def shown (workspace : Workspace) (p : FilePath) : String :=
  (p.relativeTo workspace.directory).text

end Workspace

end SchemaAtlas
