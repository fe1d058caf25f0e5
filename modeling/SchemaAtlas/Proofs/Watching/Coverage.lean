import SchemaAtlas.Proofs.Lists
import SchemaAtlas.Watching.Queue

/-!
# A watcher loses no change

While a watcher drains its queue it takes changes without looking at them, and while it rescans more
of them arrive. Even so a rescan starts only behind all that was taken before, and nothing is taken
until it has finished. So whenever the watcher waits for a change, or has ended, a finished rescan
started behind every relevant change that was taken, in whatever order things happened and whether
or not the rescans succeeded.

* `Watch.Goes`, `Watch.goes_of_next?`   the eight things that can happen to a watcher
* `Watch.Accounted`                     the invariant
* `Watch.losesNothing_of_run`           what holds behind any events
-/

namespace SchemaAtlas.Watching

/-! ## What has happened -/

namespace Moment

/-- The change that arrived. -/
@[simp] def arrived? : Moment → Option Change
  | .arrived change => some change
  | _ => none

/-- The change that was taken. -/
@[simp] def taken? : Moment → Option Change
  | .took change => some change
  | _ => none

/-- The rescan that started. -/
@[simp] def started? : Moment → Option Nat
  | .started rescan => some rescan
  | _ => none

/-- The rescan that finished. -/
@[simp] def finished? : Moment → Option Nat
  | .finished rescan _ => some rescan
  | _ => none

end Moment

/-- The changes that arrived, in order. -/
def arrivals (history : List Moment) : List Change := history.filterMap Moment.arrived?

/-- The changes that were taken, in order. -/
def takings (history : List Moment) : List Change := history.filterMap Moment.taken?

/-- The rescans that started, in order. -/
def starts (history : List Moment) : List Nat := history.filterMap Moment.started?

/-- The rescans that finished, in order. -/
def finishes (history : List Moment) : List Nat := history.filterMap Moment.finished?

section

variable (history : List Moment) (moment : Moment)

/-- A moment adds the change that arrived in it to those that arrived before. -/
@[simp] theorem arrivals_concat :
    arrivals (history ++ [moment]) = arrivals history ++ moment.arrived?.toList := by
  cases moment <;> simp [arrivals, List.filterMap_cons]

/-- A moment adds the change that was taken in it to those that were taken before. -/
@[simp] theorem takings_concat :
    takings (history ++ [moment]) = takings history ++ moment.taken?.toList := by
  cases moment <;> simp [takings, List.filterMap_cons]

/-- A moment adds the rescan that started in it to those that started before. -/
@[simp] theorem starts_concat :
    starts (history ++ [moment]) = starts history ++ moment.started?.toList := by
  cases moment <;> simp [starts, List.filterMap_cons]

/-- A moment adds the rescan that finished in it to those that finished before. -/
@[simp] theorem finishes_concat :
    finishes (history ++ [moment]) = finishes history ++ moment.finished?.toList := by
  cases moment <;> simp [finishes, List.filterMap_cons]

end

/-- Whether every relevant change that was taken was taken before some rescan started that has
finished. -/
def Covered (config : Config) (history : List Moment) : Prop :=
  ∀ (i : Nat) (change : Change), history[i]? = some (.took change) →
    config.isRelevant change = true →
      ∃ j k rescan succeeded, i < j ∧ j < k ∧ history[j]? = some (.started rescan) ∧
        history[k]? = some (.finished rescan succeeded)

/-- What is covered stays so, whatever happens then but that a relevant change is taken. -/
theorem Covered.concat {config : Config} {history : List Moment} (h : Covered config history)
    (moment : Moment) (hmoment : ∀ change ∈ moment.taken?, config.isRelevant change = false) :
    Covered config (history ++ [moment]) := by
  intro i change hi hrelevant
  -- a change of before keeps its rescan, and the last one is not relevant
  rcases List.getElem?_concat_eq_some_iff.1 hi with hi | ⟨-, rfl⟩
  · obtain ⟨j, k, rescan, succeeded, hij, hjk, hstarted, hfinished⟩ := h i change hi hrelevant
    exact ⟨j, k, rescan, succeeded, hij, hjk, List.getElem?_concat_of_some _ hstarted,
      List.getElem?_concat_of_some _ hfinished⟩
  · rw [hmoment change rfl] at hrelevant
    cases hrelevant

/-! ## What can happen next -/

namespace Phase

variable {config : Config} {phase next : Phase}

/-- A change is looked at only by a watcher that waits, and one that drains takes it in any case. -/
theorem next?_change_eq_some_iff {change : Change} :
    phase.next? config (.change change) = some next ↔
      phase = .waiting ∧ config.isRelevant change = false ∧ next = .waiting ∨
      phase = .waiting ∧ config.isRelevant change = true ∧ next = .draining ∨
      phase = .draining ∧ next = .draining := by
  rw [eq_comm]
  cases phase with
  | waiting => cases h : config.isRelevant change <;> simp [next?, h]
  | draining => simp [next?]
  | rescanning => simp [next?]
  | ended => simp [next?]

/-- Quiet counts only for a watcher that drains. -/
theorem next?_quiet_eq_some_iff :
    phase.next? config .quiet = some next ↔ phase = .draining ∧ next = .rescanning := by
  cases phase <;> simp [next?, eq_comm]

/-- The end of all changes stops a watcher that waits, and one that drains rescans first. -/
theorem next?_closed_eq_some_iff :
    phase.next? config .closed = some next ↔
      phase = .waiting ∧ next = .ended ∨ phase = .draining ∧ next = .rescanning := by
  cases phase <;> simp [next?, eq_comm]

/-- A rescan brings the watcher back to waiting, whether it succeeded or not. -/
theorem next?_scanned_eq_some_iff {succeeded : Bool} :
    phase.next? config (.scanned succeeded) = some next ↔
      phase = .rescanning ∧ next = .waiting := by
  cases phase <;> simp [next?, eq_comm]

end Phase

namespace Watch

variable {config : Config} {w w' : Watch}

/-- What an event makes of a watcher. -/
inductive Goes (config : Config) (w : Watch) : Watch → Prop
  | arrive (change : Change) (hopen : w.isOpen = true) :
      Goes config w
        { w with queue := w.queue ++ [change], history := w.history ++ [.arrived change] }
  | close : Goes config w { w with isOpen := false }
  | ignore {change : Change} {rest : List Change} (hphase : w.phase = .waiting)
      (hqueue : w.queue = change :: rest) (hirrelevant : config.isRelevant change = false) :
      Goes config w
        { w with phase := .waiting, queue := rest, history := w.history ++ [.took change] }
  | heed {change : Change} {rest : List Change} (hphase : w.phase = .waiting)
      (hqueue : w.queue = change :: rest) (hrelevant : config.isRelevant change = true) :
      Goes config w
        { w with phase := .draining, queue := rest, history := w.history ++ [.took change] }
  | drain {change : Change} {rest : List Change} (hphase : w.phase = .draining)
      (hqueue : w.queue = change :: rest) :
      Goes config w
        { w with phase := .draining, queue := rest, history := w.history ++ [.took change] }
  | rescan (hphase : w.phase = .draining) :
      Goes config w
        { w with phase := .rescanning, history := w.history ++ [.started w.rescans] }
  | finish (succeeded : Bool) (hphase : w.phase = .rescanning) :
      Goes config w
        { w with
          phase := .waiting
          rescans := w.rescans + 1
          history := w.history ++ [.finished w.rescans succeeded] }
  | stop (hphase : w.phase = .waiting) (hqueue : w.queue = []) (hclosed : w.isOpen = false) :
      Goes config w { w with phase := .ended }

/-- An event that can happen does one of these things. -/
theorem goes_of_next? {event : Event} (h : w.next? config event = some w') : Goes config w w' := by
  cases event with
  | arrive change =>
    obtain ⟨⟨hopen, -⟩, rfl⟩ := by simpa [next?] using h
    exact .arrive change hopen
  | close =>
    obtain rfl := Option.some.inj h
    exact .close
  | take =>
    simp only [next?] at h
    split at h
    · cases h
    · next change rest hqueue =>
      obtain ⟨phase, hnext, rfl⟩ := Option.map_eq_some_iff.1 h
      -- what taking a change does depends on the phase, and on the change if the watcher waits
      rcases Phase.next?_change_eq_some_iff.1 hnext with
        ⟨hphase, hirrelevant, rfl⟩ | ⟨hphase, hrelevant, rfl⟩ | ⟨hphase, rfl⟩
      · exact .ignore hphase hqueue hirrelevant
      · exact .heed hphase hqueue hrelevant
      · exact .drain hphase hqueue
  | quiet =>
    obtain ⟨phase, hnext, rfl⟩ := Option.map_eq_some_iff.1 h
    obtain ⟨hphase, rfl⟩ := Phase.next?_quiet_eq_some_iff.1 hnext
    exact .rescan hphase
  | notice =>
    simp only [next?] at h
    split at h
    · next hdone =>
      obtain ⟨phase, hnext, rfl⟩ := Option.map_eq_some_iff.1 h
      -- the queue is empty and closed here
      rcases Phase.next?_closed_eq_some_iff.1 hnext with ⟨hphase, rfl⟩ | ⟨hphase, rfl⟩
      · have hstop : w.enter .ended = { w with phase := .ended } := by simp [enter]
        rw [hstop]
        exact .stop hphase hdone.1 hdone.2
      · exact .rescan hphase
    · cases h
  | finish succeeded =>
    obtain ⟨phase, hnext, rfl⟩ := Option.map_eq_some_iff.1 h
    obtain ⟨hphase, rfl⟩ := Phase.next?_scanned_eq_some_iff.1 hnext
    exact .finish succeeded hphase

/-! ## What stays true -/

/-- How many rescans have started. -/
def begun (w : Watch) : Nat :=
  if w.phase = .rescanning then w.rescans + 1 else w.rescans

/-- How many rescans have been called for. -/
def called (w : Watch) : Nat :=
  if w.phase = .draining ∨ w.phase = .rescanning then w.rescans + 1 else w.rescans

/-- One more rescan has started than have finished, at most. -/
theorem begun_bounds (w : Watch) : w.rescans ≤ w.begun ∧ w.begun ≤ w.rescans + 1 := by
  unfold begun
  split <;> omega

/-- No rescan starts that was not called for. -/
theorem begun_le_called (w : Watch) : w.begun ≤ w.called := by
  unfold begun called
  grind

/-- The history of a watcher accounts for its phase, its queue and its count of rescans. -/
structure Accounted (config : Config) (w : Watch) : Prop where
  arrived : arrivals w.history = takings w.history ++ w.queue
  started : starts w.history = List.range w.begun
  finished : finishes w.history = List.range w.rescans
  called : w.called ≤ (takings w.history).countP config.isRelevant
  covered : w.phase = .waiting ∨ w.phase = .ended → Covered config w.history
  /-- Nothing is taken while a rescan runs. -/
  ahead : w.phase = .rescanning → ∃ j, w.history[j]? = some (.started w.rescans) ∧
    ∀ (i : Nat) (change : Change), w.history[i]? = some (.took change) → i < j
  drained : w.phase = .ended → w.queue = [] ∧ w.isOpen = false

/-- A watcher that starts accounts for its history, since nothing has happened. -/
theorem accounted_start (config : Config) : Accounted config start where
  arrived := rfl
  started := rfl
  finished := rfl
  called := Nat.le_refl 0
  covered _ i change hi := by cases hi
  ahead h := by cases h
  drained h := by cases h

/-- A change was taken as the last thing that happened, or before it. -/
theorem took_concat {history : List Moment} {moment : Moment} {i : Nat} {change : Change}
    (hmoment : moment.taken? = none) (h : (history ++ [moment])[i]? = some (.took change)) :
    history[i]? = some (.took change) := by
  rcases List.getElem?_concat_eq_some_iff.1 h with h | ⟨-, rfl⟩
  · exact h
  · cases hmoment

/-- Whatever happens, the history goes on accounting for the watcher. -/
theorem Accounted.goes (h : Accounted config w) (hgoes : Goes config w w') :
    Accounted config w' := by
  have harrived := h.arrived
  have hstarted := h.started
  have hfinished := h.finished
  have hcalled := h.called
  -- one case for each thing that can happen, which says what becomes of every account
  cases hgoes with
  | arrive change hopen =>
    refine
      { arrived := by simp [harrived]
        started := by simpa [begun] using hstarted
        finished := by simpa using hfinished
        called := by simpa [Watch.called] using hcalled
        covered := fun hphase => (h.covered hphase).concat _ (by simp)
        ahead := fun hphase => ?_
        drained := fun hphase => ?_ }
    -- the rescan that runs started where it did, and no arrival is a change that is taken
    · obtain ⟨j, hj, hbefore⟩ := h.ahead hphase
      exact ⟨j, List.getElem?_concat_of_some _ hj,
        fun i change hi => hbefore i change (took_concat rfl hi)⟩
    -- nothing arrives at a watcher that has ended
    · rw [(h.drained hphase).2] at hopen
      cases hopen
  | close =>
    exact { h with drained := fun hphase => ⟨(h.drained hphase).1, rfl⟩ }
  | ignore hphase hqueue hirrelevant =>
    rw [hqueue] at harrived
    exact
      { arrived := by simp [harrived]
        started := by simpa [begun, hphase] using hstarted
        finished := by simpa using hfinished
        called := by simpa [Watch.called, hphase, hirrelevant] using hcalled
        covered := fun _ => (h.covered (.inl hphase)).concat _
          (by simpa using hirrelevant)
        ahead := fun h => by cases h
        drained := fun h => by cases h }
  | heed hphase hqueue hrelevant =>
    rw [hqueue] at harrived
    exact
      { arrived := by simp [harrived]
        started := by simpa [begun, hphase] using hstarted
        finished := by simpa using hfinished
        called := by simpa [Watch.called, hphase, hrelevant] using hcalled
        covered := fun h => by simp at h
        ahead := fun h => by cases h
        drained := fun h => by cases h }
  | drain hphase hqueue =>
    rw [hqueue] at harrived
    refine
      { arrived := by simp [harrived]
        started := by simpa [begun, hphase] using hstarted
        finished := by simpa using hfinished
        called := ?_
        covered := fun h => by simp at h
        ahead := fun h => by cases h
        drained := fun h => by cases h }
    -- the rescan was called for by the change with which the draining began
    have hcalled : w.rescans + 1 ≤ (takings w.history).countP config.isRelevant := by
      simpa [Watch.called, hphase] using hcalled
    simpa [Watch.called] using Nat.le_add_right_of_le hcalled
  | rescan hphase =>
    refine
      { arrived := by simpa using harrived
        started := ?_
        finished := by simpa using hfinished
        called := by simpa [Watch.called, hphase] using hcalled
        covered := fun h => by simp at h
        ahead := fun _ => ⟨w.history.length, by simp, fun i change hi => ?_⟩
        drained := fun h => by cases h }
    · have hbegun : w.begun = w.rescans := by simp [begun, hphase]
      rw [hbegun] at hstarted
      simp [begun, hstarted, List.range_succ]
    · -- all that was taken stands before the start that is written down now
      exact (List.getElem?_eq_some_iff.1 (took_concat rfl hi)).1
  | finish succeeded hphase =>
    obtain ⟨j, hj, hbefore⟩ := h.ahead hphase
    refine
      { arrived := by simpa using harrived
        started := by simpa [begun, hphase] using hstarted
        finished := by simp [hfinished, List.range_succ]
        called := by simpa [Watch.called, hphase] using hcalled
        covered := fun _ i change hi _ => ?_
        ahead := fun h => by cases h
        drained := fun h => by cases h }
    -- the rescan that finishes now started behind all that was taken
    have hi := took_concat rfl hi
    exact ⟨j, w.history.length, w.rescans, succeeded, hbefore i change hi,
      (List.getElem?_eq_some_iff.1 hj).1, List.getElem?_concat_of_some _ hj, by simp⟩
  | stop hphase hqueue hclosed =>
    exact
      { arrived := harrived
        started := by simpa [begun, hphase] using hstarted
        finished := hfinished
        called := by simpa [Watch.called, hphase] using hcalled
        covered := fun _ => h.covered (.inl hphase)
        ahead := fun h => by cases h
        drained := fun _ => ⟨hqueue, hclosed⟩ }

/-- The history accounts for the watcher behind any events that can happen. -/
theorem Accounted.run {events : List Event} (h : Accounted config w)
    (hrun : w.run config events = some w') : Accounted config w' := by
  -- event by event
  induction events generalizing w with
  | nil =>
    obtain rfl := Option.some.inj hrun
    exact h
  | cons event events ih =>
    obtain ⟨next, hnext, hrun⟩ := Option.bind_eq_some_iff.1 hrun
    exact ih (h.goes (goes_of_next? hnext)) hrun

/-! ## No change is lost -/

/-- What a watcher has done about the changes that arrived. -/
structure LosesNothing (config : Config) (w : Watch) : Prop where
  /-- Changes are taken in the order in which they arrived, and the others are in the queue. -/
  inOrder : arrivals w.history = takings w.history ++ w.queue
  /-- Each rescan starts once and finishes at most once, and one at a time. -/
  numbered : ∃ n, w.rescans ≤ n ∧ n ≤ w.rescans + 1 ∧
    finishes w.history = List.range w.rescans ∧ starts w.history = List.range n
  covered : w.phase = .waiting ∨ w.phase = .ended → Covered config w.history
  few : (starts w.history).length ≤ (takings w.history).countP config.isRelevant
  idle : (∀ change ∈ arrivals w.history, config.isRelevant change = false) →
    starts w.history = []
  drained : w.phase = .ended → w.queue = []

/-- There are no more rescans than relevant changes that were taken. -/
theorem Accounted.few (h : Accounted config w) :
    (starts w.history).length ≤ (takings w.history).countP config.isRelevant := by
  rw [h.started, List.length_range]
  exact Nat.le_trans w.begun_le_called h.called

/-- Without a relevant change no rescan starts. -/
theorem Accounted.idle (h : Accounted config w)
    (hirrelevant : ∀ change ∈ arrivals w.history, config.isRelevant change = false) :
    starts w.history = [] := by
  have hnone : (takings w.history).countP config.isRelevant = 0 := by
    refine List.countP_eq_zero.2 fun change hchange => ?_
    rw [hirrelevant change (h.arrived ▸ List.mem_append_left _ hchange)]
    simp
  have hfew := h.few
  rw [hnone] at hfew
  exact List.length_eq_zero_iff.1 (Nat.le_zero.1 hfew)

/-- Whatever happens to a watcher, and in whatever order, it loses no change. -/
theorem losesNothing_of_run (config : Config) (events : List Event) (w : Watch)
    (h : start.run config events = some w) : LosesNothing config w := by
  have haccounted := (accounted_start config).run h
  exact
    { inOrder := haccounted.arrived
      numbered :=
        ⟨w.begun, w.begun_bounds.1, w.begun_bounds.2, haccounted.finished, haccounted.started⟩
      covered := haccounted.covered
      few := haccounted.few
      idle := haccounted.idle
      drained := fun hended => (haccounted.drained hended).1 }

/-- A watcher that takes a change while it drains its queue, and gets another while it rescans. -/
def busy : List Event :=
  [.arrive ⟨.modified, [⟨"/w/a.graphql"⟩]⟩, .take, .arrive ⟨.created, [⟨"/w/b.graphql"⟩]⟩, .take,
    .quiet, .arrive ⟨.accessed, [⟨"/w/a.graphql"⟩]⟩, .finish false]

/-- Changes that arrive while others are read are taken or still queued. -/
theorem losesNothing_of_run_busy :
    ∃ w, start.run {} busy = some w ∧ LosesNothing {} w ∧ w.phase = .waiting ∧
      takings w.history =
        [⟨.modified, [⟨"/w/a.graphql"⟩]⟩, ⟨.created, [⟨"/w/b.graphql"⟩]⟩] ∧
      starts w.history = [0] ∧ w.queue = [⟨.accessed, [⟨"/w/a.graphql"⟩]⟩] := by
  have hrun : (start.run {} busy).map
      (fun w => (w.phase, takings w.history, starts w.history, w.queue)) =
        some (.waiting, [⟨.modified, [⟨"/w/a.graphql"⟩]⟩, ⟨.created, [⟨"/w/b.graphql"⟩]⟩], [0],
          [⟨.accessed, [⟨"/w/a.graphql"⟩]⟩]) := by
    decide +kernel
  obtain ⟨w, hw, heq⟩ := Option.map_eq_some_iff.1 hrun
  simp only [Prod.mk.injEq] at heq
  exact ⟨w, hw, losesNothing_of_run _ _ _ hw, heq⟩

end Watch

end SchemaAtlas.Watching
