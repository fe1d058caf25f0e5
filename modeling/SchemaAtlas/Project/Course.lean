import SchemaAtlas.Project.Scan

/-!
# A scan, look by look

The files of a project may change while a scan is under way. A `Course` is such a scan between two
looks at the files: with a look it learns whether one file exists, or what one file reads. Files
that stay as they are lead it to what `Scan.run` finds in them.
-/

namespace SchemaAtlas

/-- What a scan has found, taken up and written down so far. -/
structure Findings where
  /-- Files found and not yet taken up, the one found last first. -/
  stack : List FilePath
  /-- Files taken up, in this order. -/
  visited : List FilePath
  /-- What the files added. -/
  records : List Record
  /-- The files without syntax errors, each followed by a line feed. -/
  assembled : String

namespace Findings

/-- What is found of an entry that exists. -/
def start (entry : FilePath) : Findings :=
  { stack := [entry], visited := [], records := [.entry entry], assembled := "" }

/-- Adds a diagnostic. -/
def report (f : Findings) (path : FilePath) (kind : DiagnosticKind) (message : String) :
    Findings :=
  { f with records := f.records ++ [.diagnostic { path, kind, message }] }

/-- Adds a file that was read. -/
def addFile (f : Findings) (path : FilePath) (text : String) : Findings :=
  let added := contribution path text
  { f with
    records := f.records ++ .file path :: added.records
    assembled := if added.sound then f.assembled ++ text ++ "\n" else f.assembled }

/-- Adds the target of an include that was not taken up before, or says that it does not exist. -/
def addTarget (f : Findings) (file target : FilePath) (found : Bool) : Findings :=
  if found then { f with stack := target :: f.stack }
  else f.report target .notFound ("included from " ++ file.text ++ " but does not exist")

end Findings

/-- A scan that is under way, by what it does next. -/
inductive Course where
  /-- It looks whether its entry exists. -/
  | entering (entry : FilePath)
  /-- It takes up the next file. -/
  | crawling (entry : FilePath) (f : Findings)
  /-- It follows the includes that are left of a file. -/
  | following (entry : FilePath) (f : Findings) (file : FilePath) (includes : List String)
  /-- It looks whether the next document exists. -/
  | gathering (records : List Record) (documents : List (FilePath × Bool))
  /-- It reads a document, and others are left. -/
  | opening (records : List Record) (path : FilePath) (persist : Bool)
      (documents : List (FilePath × Bool))
  | ended (result : Except ScanError Snapshot)

namespace Course

/-- A scan that has crawled the schema files: the documents that clients run are left. -/
def crawled (options : ScanOptions) (entry : FilePath) (f : Findings) : Course :=
  .gathering f.records
    (if options.followExecutables then
      ClientDocuments.collect entry.directory (Wiring.declarationsOfText f.assembled)
    else [])

/-- What a scan does next. Where it looks at a file, the answer says where it is then. -/
inductive Next where
  /-- It goes on without a look at a file. -/
  | goes (course : Course)
  /-- It looks whether a file exists. -/
  | looksFor (path : FilePath) (answer : Bool → Course)
  /-- It reads a file. -/
  | reads (path : FilePath) (answer : Except String String → Course)

namespace Next

/-- The file that is looked at. -/
@[simp] def path? : Next → Option FilePath
  | goes _ => none
  | looksFor path _ => some path
  | reads path _ => some path

/-- Where a scan is with what the files answer. -/
@[simp] def answeredBy (source : Source) : Next → Course
  | goes course => course
  | looksFor path answer => answer (source.has path)
  | reads path answer => answer (source.read path)

end Next

/-- Where a scan is that has taken up a file and read it. -/
def takeUp (entry : FilePath) (f : Findings) (path : FilePath) :
    Except String String → Course
  | .ok text => .following entry (f.addFile path text) path (contribution path text).includes
  | .error reason =>
    if path = entry then .ended (.error (.unreadable path reason))
    else .crawling entry (f.report path .io reason)

/-- What a scan does next, by where it is. -/
def next (options : ScanOptions) : Course → Next
  | .entering entry =>
    let path := entry.normalize
    .looksFor path fun found =>
      if found then .crawling path (.start path) else .ended (.error (.entryNotFound path))
  | .crawling entry f =>
    match f.stack with
    | [] => .goes (crawled options entry f)
    | path :: rest =>
      let popped := { f with stack := rest }
      if path ∈ f.visited then .goes (.crawling entry popped)
      else if options.maxFiles.any (· ≤ f.visited.length) then
        .goes (crawled options entry
          (popped.report path .resolution (Crawl.limitMessage options.maxFiles)))
      else .reads path (takeUp entry { popped with visited := f.visited ++ [path] } path)
  | .following entry f _ [] => .goes (.crawling entry f)
  | .following entry f file (included :: includes) =>
    let target := resolveInclude file included
    if target ∈ f.visited then .goes (.following entry f file includes)
    else .looksFor target fun found =>
      .following entry (f.addTarget file target found) file includes
  | .gathering records [] => .goes (.ended (.ok (Snapshot.ofRecords records)))
  | .gathering records ((path, persist) :: documents) =>
    .looksFor path fun found =>
      if found then .opening records path persist documents
      else
        .gathering
          (records ++
            [.diagnostic { path, kind := .notFound, message := "document does not exist" }])
          documents
  | .opening records path persist documents =>
    .reads path fun
      | .ok text =>
        .gathering (records ++ ClientDocuments.recordsOfText path persist text) documents
      | .error reason =>
        .gathering (records ++ [.diagnostic { path, kind := .io, message := reason }]) documents
  | .ended result => .goes (.ended result)

/-- One look at the files as they are, or none where none is needed. -/
def look (options : ScanOptions) (source : Source) (c : Course) : Course :=
  (c.next options).answeredBy source

/-- The path that a scan asks the files for with its next look, as it is spelled. -/
def asked? (options : ScanOptions) (c : Course) : Option FilePath :=
  (c.next options).path?

end Course

end SchemaAtlas
