import SchemaAtlas.Project.Projection
import SchemaAtlas.Project.Source
import SchemaAtlas.Wiring
import SchemaAtlas.Wiring.Recovery

/-!
# Crawling a project

A crawl starts from the entry file and follows includes. It keeps a stack of files that were found
and not yet taken up; the file found last is taken up first, and none is taken up twice. Every
step takes one file off the stack, so a crawl ends: a step either takes up a file for the first
time, of which there are finitely many, or shortens the stack.

* `Crawl.step_decreases`   the measure behind this argument
-/

namespace SchemaAtlas

/-- Why a scan fails. -/
inductive ScanError where
  | entryNotFound (path : FilePath)
  | unreadable (path : FilePath) (reason : String)
  | cancelled
deriving DecidableEq, Repr

/-- How a failure is reported. -/
def ScanError.message : ScanError → String
  | .entryNotFound path => "Entry file not found: " ++ path.text
  | .unreadable path reason => "Failed to read " ++ path.text ++ ": " ++ reason
  | .cancelled => "Scan cancelled"

/-- How far a scan goes. -/
structure ScanOptions where
  /-- The number of files after which a crawl stops. -/
  maxFiles : Option Nat
  /-- Whether the documents that clients run are scanned. -/
  followExecutables : Bool
deriving DecidableEq, Repr

/-- No limit, and all documents. -/
def ScanOptions.default : ScanOptions :=
  { maxFiles := none, followExecutables := true }

/-- One report of progress: what is done now, and how many percent of the work are added. -/
structure Tick where
  message : String
  increment : Float

/-- What a schema file adds to a scan. -/
structure Contribution where
  records : List Record
  /-- The includes of the file as they are written. -/
  includes : List String
  /-- Whether the file has no syntax errors. -/
  sound : Bool

/-- What is reported of a text whose first syntax error stands at a byte offset. It says where this
error is, and no more: what a parser has to say of each error, joined by `; `, is left out. -/
def syntaxErrorMessage (text : String) (offset : Nat) : String :=
  "syntax error at " ++ (Text.positionAt text offset).display

/-- What a schema file adds. A file with syntax errors adds one diagnostic, however many errors it
has, whose message tells the place of the first (`syntaxErrorMessage`); its includes are recovered
from the text. -/
def contribution (path : FilePath) (text : String) : Contribution :=
  let file := Projection.SchemaFile.read path text
  match file.document.fault with
  | some offset =>
    { records := [.diagnostic { path, kind := .parse, message := syntaxErrorMessage text offset }]
      includes := Wiring.recoveredIncludes text
      sound := false }
  | none =>
    { records := Projection.records file
      includes := Wiring.includes file.document
      sound := true }

/-- The path that an include of a file stands for. -/
def resolveInclude (file : FilePath) (included : String) : FilePath :=
  (file.directory.join ⟨included⟩).normalize

/-- A file that was found: its normal path, which exists. -/
abbrev Target (source : Source) :=
  { p : FilePath // p.IsNormal ∧ source.has p = true }

/-- A crawl under way. -/
structure Crawl (source : Source) where
  /-- Files found and not yet taken up, the one found last first. -/
  stack : List (Target source)
  /-- Files taken up, in this order. -/
  visited : List FilePath
  /-- What the files added. -/
  records : List Record
  /-- The files without syntax errors, each followed by a line feed. -/
  assembled : String
  ticks : List Tick
  /-- The percents that were reported. -/
  reported : Float

namespace Crawl

variable {source : Source}

/-- A crawl that has found its entry. -/
def start (entry : Target source) : Crawl source :=
  { stack := [entry], visited := [], records := [.entry entry], assembled := "", ticks := []
    reported := 0 }

/-- Adds a diagnostic. -/
def report (c : Crawl source) (path : FilePath) (kind : DiagnosticKind) (message : String) :
    Crawl source :=
  { c with records := c.records ++ [.diagnostic { path, kind, message }] }

/-- Marks a file as taken up. The number of files is not known beforehand, so each is reported as
half of what is left of ninety percent. -/
def mark (c : Crawl source) (path : FilePath) : Crawl source :=
  let increment := (90 - c.reported) / 2
  { c with
    visited := c.visited ++ [path]
    ticks := c.ticks ++ [⟨"Indexing " ++ path.text, increment⟩]
    reported := c.reported + increment }

/-- Follows an include of a file: a file that was not taken up yet goes on the stack if it
exists. -/
def follow (file : FilePath) (c : Crawl source) (included : String) : Crawl source :=
  let target := resolveInclude file included
  if target ∈ c.visited then c
  else if h : source.has target = true then
    { c with stack := ⟨target, FilePath.isNormal_normalize _, h⟩ :: c.stack }
  else c.report target .notFound ("included from " ++ file.text ++ " but does not exist")

/-- Adds a file that was read, and follows its includes. -/
def addFile (c : Crawl source) (path : FilePath) (text : String) : Crawl source :=
  let added := contribution path text
  added.includes.foldl (follow path)
    { c with
      records := c.records ++ .file path :: added.records
      assembled := if added.sound then c.assembled ++ text ++ "\n" else c.assembled }

/-- What a step leads to: on, or to the end, where a failure says why if the crawl failed. -/
inductive Step (source : Source) where
  | going (c : Crawl source)
  | ended (c : Crawl source) (failure : Option ScanError)

/-- Takes up a file. -/
def takeUp (entry : FilePath) (c : Crawl source) (path : FilePath) : Step source :=
  let c := c.mark path
  match source.read path with
  | .ok text => .going (c.addFile path text)
  | .error reason =>
    if path = entry then .ended c (some (.unreadable path reason))
    else .going (c.report path .io reason)

/-- Whether a crawl may take up no more files. -/
def atLimit (c : Crawl source) (maxFiles : Option Nat) : Bool :=
  maxFiles.any (· ≤ c.visited.length)

/-- How the file behind the limit is reported. -/
def limitMessage (maxFiles : Option Nat) : String :=
  "file limit of " ++ toString (maxFiles.getD 0) ++ " reached, include not crawled"

/-- One step: takes a file off the stack. `cancelAfter` is the number of reports after which the
crawl is called off. -/
def step (entry : FilePath) (maxFiles cancelAfter : Option Nat) (c : Crawl source) : Step source :=
  match c.stack with
  | [] => .ended c none
  | path :: rest =>
    let popped := { c with stack := rest }
    if cancelAfter.any (· ≤ c.ticks.length) then .ended c (some .cancelled)
    else if path.1 ∈ c.visited then .going popped
    else if c.atLimit maxFiles then
      .ended (popped.report path .resolution (limitMessage maxFiles)) none
    else popped.takeUp entry path

/-- How many files of the source were not taken up. -/
def unvisited (source : Source) (visited : List FilePath) : Nat :=
  (source.listing.filter fun entry => entry.1 ∉ visited).length

theorem unvisited_append_lt {visited : List FilePath} (target : Target source)
    (h : target.1 ∉ visited) :
    unvisited source (visited ++ [target.1]) < unvisited source visited := by
  obtain ⟨entry, hmem, heq⟩ := Source.mem_listing_of_has target.2.2
  have hnormal : entry.1 = target.1 := heq.trans target.2.1
  have hsub : (source.listing.filter fun e => e.1 ∉ visited ++ [target.1]) =
      (source.listing.filter fun e => e.1 ∉ visited).filter fun e => e.1 ≠ target.1 := by
    rw [List.filter_filter]
    congr 1
    funext e
    by_cases h1 : e.1 ∈ visited <;> by_cases h2 : e.1 = target.1 <;> simp [h1, h2]
  rw [unvisited, unvisited, hsub]
  have hin : entry ∈ source.listing.filter fun e => e.1 ∉ visited := by
    simp [hmem, hnormal, h]
  exact List.length_filter_lt_length_iff_exists.2 ⟨entry, hin, by simp [hnormal]⟩

@[simp] theorem visited_follow (file : FilePath) (c : Crawl source) (included : String) :
    (follow file c included).visited = c.visited := by
  simp only [follow]
  split
  · rfl
  · split <;> rfl

theorem visited_foldl_follow (file : FilePath) (includes : List String) (c : Crawl source) :
    (includes.foldl (follow file) c).visited = c.visited := by
  induction includes generalizing c with
  | nil => rfl
  | cons i includes ih => rw [List.foldl_cons, ih, visited_follow]

@[simp] theorem visited_addFile (c : Crawl source) (path : FilePath) (text : String) :
    (c.addFile path text).visited = c.visited := by
  rw [addFile, visited_foldl_follow]

/-- Taking up a file marks it, however reading it turns out. -/
theorem visited_takeUp {entry path : FilePath} {c c' : Crawl source}
    (h : c.takeUp entry path = .going c') : c'.visited = c.visited ++ [path] := by
  simp only [takeUp] at h
  split at h
  · obtain rfl := Step.going.inj h
    simp [mark]
  · split at h
    · simp at h
    · obtain rfl := Step.going.inj h
      rfl

/-- A step takes up a file of the source for the first time, or shortens the stack. -/
theorem step_decreases {entry : FilePath} {maxFiles cancelAfter : Option Nat} {c c' : Crawl source}
    (h : c.step entry maxFiles cancelAfter = .going c') :
    Prod.Lex (· < ·) (· < ·) (unvisited source c'.visited, c'.stack.length)
      (unvisited source c.visited, c.stack.length) := by
  simp only [step] at h
  split at h
  · simp at h
  · next path rest hstack =>
    split at h
    · simp at h
    · split at h
      · obtain rfl := Step.going.inj h
        exact .right _ (by simp [hstack])
      · next hnew =>
        split at h
        · simp at h
        · rw [visited_takeUp h]
          exact .left _ _ (unvisited_append_lt path hnew)

/-- Goes on until the crawl ends. -/
def run (entry : FilePath) (maxFiles cancelAfter : Option Nat) (c : Crawl source) :
    Crawl source × Option ScanError :=
  match _ : c.step entry maxFiles cancelAfter with
  | .ended c failure => (c, failure)
  | .going c => run entry maxFiles cancelAfter c
termination_by (unvisited source c.visited, c.stack.length)
decreasing_by exact step_decreases (by assumption)

end Crawl

end SchemaAtlas
