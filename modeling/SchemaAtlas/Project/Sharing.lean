import SchemaAtlas.Project.Course

/-!
# One indexer, many scans

Whoever holds an indexer may start a scan, also while other scans are under way. Nothing makes one
scan wait for another: they look at the files in turns, files change in between, and each publishes
its snapshot when it is through.
-/

namespace SchemaAtlas

/-- An indexer that is handed the result of a scan: it publishes the snapshot of one that
succeeded. -/
def Indexer.deliver (indexer : Indexer) (result : Except ScanError Snapshot) : Indexer :=
  match result with
  | .ok snapshot => { indexer with store := (indexer.store.publish snapshot).2 }
  | .error _ => indexer

namespace Sharing

/-- How far a scan has come. -/
inductive Stage where
  | underWay (course : Course)
  /-- Its result was handed over. -/
  | done (result : Except ScanError Snapshot)

/-- What a scan has handed over. -/
@[simp] def Stage.result? : Stage → Option (Except ScanError Snapshot)
  | underWay _ => none
  | done result => some result

/-- A scan that was started. -/
structure Job where
  entry : FilePath
  stage : Stage

/-- Something that happened. Scans are numbered from zero as they start. -/
inductive Moment where
  | edited
  | started (job : Nat)
  | published (job : Nat)
  | failed (job : Nat)
deriving DecidableEq, Repr

end Sharing

/-- An indexer with the scans that share it, the files as they are, and all that has happened so
far. -/
structure Sharing where
  source : Source
  indexer : Indexer
  /-- The scans in the order in which they started. -/
  jobs : List Sharing.Job
  history : List Sharing.Moment

namespace Sharing

/-- What can happen next. -/
inductive Move where
  /-- The files become others. -/
  | edit (source : Source)
  | start (entry : FilePath)
  /-- A scan looks at the files. -/
  | look (job : Nat)
  /-- A scan that is through hands over its result. -/
  | finish (job : Nat)

/-- An indexer that no scan uses yet. -/
def new (source : Source) (indexer : Indexer) : Sharing :=
  { source, indexer, jobs := [], history := [] }

/-- What the scan with a number has handed over. -/
def result? (s : Sharing) (i : Nat) : Option (Except ScanError Snapshot) :=
  s.jobs[i]?.bind fun job => job.stage.result?

/-- What the end of a scan is. -/
def outcome (job : Nat) : Except ScanError Snapshot → Moment
  | .ok _ => .published job
  | .error _ => .failed job

/-- What comes of a move, if it can be made. -/
def next? (s : Sharing) : Move → Option Sharing
  | .edit source => some { s with source, history := s.history ++ [.edited] }
  | .start entry =>
    some
      { s with
        jobs := s.jobs ++ [⟨entry, .underWay (.entering entry)⟩]
        history := s.history ++ [.started s.jobs.length] }
  | .look i =>
    match s.jobs[i]? with
    | some ⟨entry, .underWay course⟩ =>
      some
        { s with
          jobs := s.jobs.set i ⟨entry, .underWay (course.look s.indexer.options s.source)⟩ }
    | _ => none
  | .finish i =>
    match s.jobs[i]? with
    | some ⟨entry, .underWay (.ended result)⟩ =>
      some
        { s with
          indexer := s.indexer.deliver result
          jobs := s.jobs.set i ⟨entry, .done result⟩
          history := s.history ++ [outcome i result] }
    | _ => none

/-- What comes of moves one after another, if they can be made. -/
def run (s : Sharing) : List Move → Option Sharing
  | [] => some s
  | move :: moves => (s.next? move).bind fun s => run s moves

end Sharing

end SchemaAtlas
