import SchemaAtlas.Watching.Change

/-!
# Waiting for changes

A watcher takes changes one by one. A relevant one makes it wait until no change has come for a
while, and then rescan.
-/

namespace SchemaAtlas.Watching

/-- What a watcher is about. -/
inductive Phase where
  /-- It waits for a relevant change. -/
  | waiting
  /-- A relevant change has come, and more may follow. -/
  | draining
  | rescanning
  | ended
deriving DecidableEq, Repr

/-- What a watcher can meet with. -/
inductive Signal where
  | change (change : Change)
  /-- No change has come for the quiet time. -/
  | quiet
  /-- No change will come any more. -/
  | closed
  | scanned (succeeded : Bool)
deriving DecidableEq, Repr

/-- The phase that follows a signal, where the signal can come in the phase. -/
def Phase.next? (config : Config) : Phase → Signal → Option Phase
  | waiting, .change change => some (if config.isRelevant change then draining else waiting)
  | waiting, .closed => some ended
  | draining, .change _ => some draining
  | draining, .quiet => some rescanning
  | draining, .closed => some rescanning
  | rescanning, .scanned _ => some waiting
  | _, _ => none

end SchemaAtlas.Watching
