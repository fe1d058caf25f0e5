import SchemaAtlas.Disk.Basic
import SchemaAtlas.Json.Basic
import SchemaAtlas.Project.Crawl
import SchemaAtlas.Toml.Reading

/-!
# Settings of a project

A project directory may hold a file of settings. Settings that it leaves out have their usual
values; one that is of the wrong sort or not allowed makes the whole file count for nothing.
-/

namespace SchemaAtlas

/-- The settings of a project. -/
structure Config where
  projectName : String := "unnamed-project"
  /-- The entry file, read from the project directory. -/
  entry : String := "index.graphql"
  /-- The number of schema files after which a crawl stops, zero for no limit. -/
  maxFiles : Nat := 0
  followExecutables : Bool := true
  /-- How many levels below the project directory an entry file is searched. -/
  entrySearchDepth : Nat := 3
  /-- The extensions of the files whose changes matter. -/
  watchedExtensions : List String := ["graphql", "gql"]
  /-- The patterns of paths that do not matter. -/
  excluded : List String := ["node_modules/", ".git/", "target/"]
  /-- How many milliseconds without a change pass before a rescan. -/
  quietMilliseconds : Nat := 250
  logLevel : String := "warn"
  logFormat : String := "compact"
  transport : String := "stdio"
deriving DecidableEq, Repr

namespace Config

/-- The name of the file of settings. -/
def fileName : String := ".schemagraph.toml"

/-- Why settings are not allowed. -/
inductive Objection where
  | emptyName
  | emptyEntry
  | noExtensions
  | noQuietTime
  | logLevel (level : String)
  | logFormat (format : String)
  | transport (name : String)
deriving DecidableEq, Repr

/-- How an objection is reported. -/
def Objection.message : Objection → String
  | .emptyName => "Project name cannot be empty"
  | .emptyEntry => "Entry file cannot be empty"
  | .noExtensions => "At least one watched extension is required"
  | .noQuietTime => "Debounce must be greater than 0"
  | .logLevel level => "Invalid log level: " ++ level
  | .logFormat format => "Invalid log format: " ++ format
  | .transport name => "Invalid MCP transport: " ++ name

/-- Why settings cannot be loaded. -/
inductive Fault where
  | unreadable (path : FilePath) (reason : String)
  /-- The file is no TOML, or a setting is of the wrong sort. -/
  | malformed
  | refused (objection : Objection)
deriving DecidableEq, Repr

/-- How a fault is reported. -/
def Fault.message : Fault → String
  | .unreadable path reason => "Failed to read " ++ path.text ++ ": " ++ reason
  | .malformed => "Invalid configuration: malformed TOML"
  | .refused objection => "Invalid configuration: " ++ objection.message

/-- What is wrong with settings, if anything: the first objection in the order of the settings. -/
def objection? (config : Config) : Option Objection :=
  if config.projectName = "" then some .emptyName
  else if config.entry = "" then some .emptyEntry
  else if config.watchedExtensions = [] then some .noExtensions
  else if config.quietMilliseconds = 0 then some .noQuietTime
  else if config.logLevel ∉ ["error", "warn", "info", "debug", "trace"] then
    some (.logLevel config.logLevel)
  else if config.logFormat ∉ ["compact", "pretty", "json"] then
    some (.logFormat config.logFormat)
  else if config.transport ≠ "stdio" then some (.transport config.transport)
  else none

/-! ## From TOML -/

/-- A text. -/
def text? : Toml → Option String
  | .string text => some text
  | _ => none

/-- A number that is not negative. -/
def number? : Toml → Option Nat
  | .integer n => if n < 0 then none else some n.toNat
  | _ => none

/-- A flag. -/
def flag? : Toml → Option Bool
  | .boolean flag => some flag
  | _ => none

/-- A list of texts. -/
def texts? : Toml → Option (List String)
  | .array items => items.mapM text?
  | _ => none

/-- A group of settings: a table, or an array that gives the settings in their order. -/
inductive Group where
  | byName (entries : List (String × Toml))
  | byPlace (items : List Toml)

/-- The group that a value is. A date or a time is a group that gives no setting. -/
def Group.of? : Toml → Option Group
  | .table entries => some (.byName entries)
  | .dateTime => some (.byName [])
  | .array items => some (.byPlace items)
  | _ => none

/-- The value of the setting that has a name and a place in a group. -/
def Group.value? (group : Group) (name : String) (place : Nat) : Option Toml :=
  match group with
  | byName entries => (entries.find? (·.1 == name)).map Prod.snd
  | byPlace items => items[place]?

/-- The setting that has a name and a place in a group, or its usual value where it is left out. -/
def Group.setting {α : Type} (group : Group) (name : String) (place : Nat)
    (read : Toml → Option α) (usual : α) : Option α :=
  match group.value? name place with
  | some value => read value
  | none => some usual

/-- The settings in a document. -/
def ofToml? (document : Toml) : Option Config := do
  let root ← Group.of? document
  let group (name : String) (place : Nat) : Option Group :=
    root.setting name place Group.of? (.byName [])
  let project ← group "project" 0
  let scan ← group "scan" 1
  let watch ← group "watch" 2
  let logging ← group "logging" 3
  let mcp ← group "mcp" 4
  let usual : Config := {}
  return {
    projectName := ← project.setting "name" 0 text? usual.projectName
    entry := ← project.setting "entry" 1 text? usual.entry
    maxFiles := ← scan.setting "max_files" 0 number? usual.maxFiles
    followExecutables := ← scan.setting "follow_executables" 1 flag? usual.followExecutables
    entrySearchDepth := ← scan.setting "entry_search_depth" 2 number? usual.entrySearchDepth
    watchedExtensions := ← watch.setting "extensions" 0 texts? usual.watchedExtensions
    excluded := ← watch.setting "exclude" 1 texts? usual.excluded
    quietMilliseconds := ← watch.setting "debounce_ms" 2 number? usual.quietMilliseconds
    logLevel := ← logging.setting "level" 0 text? usual.logLevel
    logFormat := ← logging.setting "format" 1 text? usual.logFormat
    transport := ← mcp.setting "transport" 0 text? usual.transport }

/-- The settings in a text. -/
def ofText (text : String) : Except Fault Config :=
  match (Toml.read? text).bind ofToml? with
  | none => .error .malformed
  | some config =>
    match config.objection? with
    | some objection => .error (.refused objection)
    | none => .ok config

/-! ## From disk -/

/-- The settings in a file. -/
def load (disk : Disk) (path : FilePath) : Except Fault Config :=
  match disk.read path with
  | .ok text => ofText text
  | .error fault => .error (.unreadable path fault.message)

/-- The path of the file of settings of a project. -/
def filePath (directory : FilePath) : FilePath :=
  directory.join ⟨fileName⟩

/-- The settings of a project: the usual ones if its file cannot be loaded. -/
def ofProject (disk : Disk) (directory : FilePath) : Config :=
  match load disk (filePath directory) with
  | .ok config => config
  | .error _ => {}

/-- How far a scan goes. -/
def scanOptions (config : Config) : ScanOptions :=
  { maxFiles := if config.maxFiles > 0 then some config.maxFiles else none
    followExecutables := config.followExecutables }

/-- The settings as JSON. -/
def toJson (config : Config) : Json :=
  let texts (items : List String) : Json := .array (items.map .string)
  .object [
    ("project", .object [("name", .string config.projectName), ("entry", .string config.entry)]),
    ("scan", .object [("max_files", .ofNat config.maxFiles),
      ("follow_executables", .bool config.followExecutables),
      ("entry_search_depth", .ofNat config.entrySearchDepth)]),
    ("watch", .object [("extensions", texts config.watchedExtensions),
      ("exclude", texts config.excluded),
      ("debounce_ms", .ofNat config.quietMilliseconds)]),
    ("logging", .object [("level", .string config.logLevel), ("format", .string config.logFormat)]),
    ("mcp", .object [("transport", .string config.transport)])]

end Config

end SchemaAtlas
