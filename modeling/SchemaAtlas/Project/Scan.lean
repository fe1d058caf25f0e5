import SchemaAtlas.Index.Store
import SchemaAtlas.Project.ClientDocuments

/-!
# Scanning a project

A scan crawls the schema files, scans the documents that clients run, and builds a snapshot of all
that they add. An `Indexer` publishes the snapshot of a scan that succeeds, and keeps the
published one if a scan fails.
-/

namespace SchemaAtlas

/-- The course of a scan: what it reported, and how it ended. -/
structure Scan where
  ticks : List Tick
  result : Except ScanError Snapshot

namespace Scan

/-- The records of the documents that clients run, if they are to be followed. -/
def documentRecords (source : Source) (options : ScanOptions) (entry : FilePath)
    (assembled : String) : List Record :=
  if options.followExecutables then ClientDocuments.records source entry.directory assembled else []

/-- Scans the project of an entry file. `cancelAfter` is the number of reports after which the
scan is called off. -/
def run (source : Source) (options : ScanOptions) (entry : FilePath) (cancelAfter : Option Nat) :
    Scan :=
  let path := entry.normalize
  if h : source.has path = true then
    let start := Crawl.start ⟨path, FilePath.isNormal_normalize entry, h⟩
    let (c, failure) := start.run path options.maxFiles cancelAfter
    match failure with
    | some failure => { ticks := c.ticks, result := .error failure }
    | none =>
      let records := c.records ++ documentRecords source options path c.assembled
      { ticks := c.ticks ++ [⟨"Index ready", 100 - c.reported⟩]
        result := .ok (Snapshot.ofRecords records) }
  else { ticks := [], result := .error (.entryNotFound path) }

end Scan

/-- A scanner with the store that it publishes to. -/
structure Indexer where
  options : ScanOptions
  store : Store

namespace Indexer

/-- An indexer that has published nothing. -/
def new (options : ScanOptions) : Indexer :=
  { options, store := .empty }

/-- The published snapshot. -/
def snapshot (indexer : Indexer) : Snapshot :=
  indexer.store.current

/-- Scans a project, and publishes the snapshot if the scan succeeds. -/
def scan (indexer : Indexer) (source : Source) (entry : FilePath) (cancelAfter : Option Nat) :
    Scan × Indexer :=
  let scan := Scan.run source indexer.options entry cancelAfter
  match scan.result with
  | .ok snapshot => (scan, { indexer with store := (indexer.store.publish snapshot).2 })
  | .error _ => (scan, indexer)

end Indexer

end SchemaAtlas
