import SchemaAtlas.Watching.Phase

/-!
# A watcher and its queue

Changes reach a watcher through a queue: they wait there in the order in which they came, and who
sends one waits while the queue is full. They come whatever the watcher is about, also while it
rescans. The end of the queue is noticed only when no change is left in it.
-/

namespace SchemaAtlas.Watching

/-- How many changes the queue holds. -/
def queueRoom : Nat := 100

/-- Something that happened while a watcher was at work. Rescans are numbered from zero. -/
inductive Moment where
  | arrived (change : Change)
  | took (change : Change)
  | started (rescan : Nat)
  | finished (rescan : Nat) (succeeded : Bool)
deriving DecidableEq, Repr

/-- A watcher with its queue, and all that has happened so far. -/
structure Watch where
  phase : Phase
  queue : List Change
  /-- Whether changes can still be sent. -/
  isOpen : Bool
  /-- How many rescans have finished. -/
  rescans : Nat
  history : List Moment
deriving DecidableEq, Repr

/-- What can happen next. -/
inductive Event where
  /-- A change is sent. -/
  | arrive (change : Change)
  /-- Nothing will be sent any more. -/
  | close
  /-- The watcher takes the first change off the queue. -/
  | take
  /-- No change has been taken for the quiet time. -/
  | quiet
  /-- The watcher notices that nothing will come any more. -/
  | notice
  /-- The rescan comes to its end. -/
  | finish (succeeded : Bool)
deriving DecidableEq, Repr

namespace Watch

/-- A watcher that waits for its first change. -/
def start : Watch :=
  { phase := .waiting, queue := [], isOpen := true, rescans := 0, history := [] }

/-- A watcher in its next phase; a rescan starts where this is the phase of rescanning. -/
def enter (w : Watch) (phase : Phase) : Watch :=
  { w with
    phase
    history := w.history ++ if phase = .rescanning then [.started w.rescans] else [] }

/-- A watcher after an event, if the event can happen. -/
def next? (config : Config) (w : Watch) : Event → Option Watch
  | .arrive change =>
    if w.isOpen = true ∧ w.queue.length < queueRoom then
      some { w with queue := w.queue ++ [change], history := w.history ++ [.arrived change] }
    else none
  | .close => some { w with isOpen := false }
  | .take =>
    match w.queue with
    | [] => none
    | change :: rest =>
      (w.phase.next? config (.change change)).map fun phase =>
        { w with phase, queue := rest, history := w.history ++ [.took change] }
  | .quiet => (w.phase.next? config .quiet).map w.enter
  | .notice =>
    if w.queue = [] ∧ w.isOpen = false then (w.phase.next? config .closed).map w.enter else none
  | .finish succeeded =>
    (w.phase.next? config (.scanned succeeded)).map fun phase =>
      { w with
        phase
        rescans := w.rescans + 1
        history := w.history ++ [.finished w.rescans succeeded] }

/-- A watcher after events one after another, if they can happen. -/
def run (config : Config) (w : Watch) : List Event → Option Watch
  | [] => some w
  | event :: events => (w.next? config event).bind fun w => run config w events

end Watch

end SchemaAtlas.Watching
