import Mathlib.Data.List.Nodup
import SchemaAtlas.Project.Sharing
import SchemaAtlas.Proofs.Lists
import SchemaAtlas.Proofs.Scan.Looks

/-!
# Scans that share an indexer

The snapshot that was published last is the one that readers see, whichever scan it is of. Nothing
keeps a scan from being overtaken: while it is under way, another one may start, look at files that
have changed since and publish, and then lose its place to the older one (`Sharing.overtaking`).
This is the only way in which a snapshot gives way to one of an older scan. A scan behind whose
start nothing changes publishes what a scan on its own finds.

* `Sharing.Goes`, `Sharing.goes_of_next?`   the five things that can happen
* `Sharing.Accounted`                       the invariant
* `Sharing.lastToPublish_of_run`            what holds behind any moves
* `Sharing.exists_run_alone`                a scan that nothing comes between
-/

namespace SchemaAtlas

open scoped List

/-- Scanning is finding a result and handing it over. -/
theorem Indexer.deliver_run (indexer : Indexer) (source : Source) (entry : FilePath)
    (cancelAfter : Option Nat) :
    indexer.deliver (Scan.run source indexer.options entry cancelAfter).result =
      (indexer.scan source entry cancelAfter).2 := by
  cases hresult : (Scan.run source indexer.options entry cancelAfter).result with
  | ok snapshot => simp [deliver, scan, hresult]
  | error failure => simp [deliver, scan, hresult]

namespace Sharing

/-! ## What has happened -/

/-- The scan that published. -/
@[simp] def Moment.published? : Moment → Option Nat
  | .published job => some job
  | _ => none

/-- The scans that published, in order. -/
def publications (history : List Moment) : List Nat := history.filterMap Moment.published?

/-- A moment adds the scan that published in it to those that published before. -/
@[simp] theorem publications_concat (history : List Moment) (moment : Moment) :
    publications (history ++ [moment]) = publications history ++ moment.published?.toList := by
  cases moment <;> simp [publications, List.filterMap_cons]

/-- How far a scan has come: to its end, where its result was handed over. -/
def Stage.course : Stage → Course
  | .underWay course => course
  | .done result => .ended result

variable {first : Indexer} {s s' : Sharing}

/-! ## What can happen next -/

/-- What a move makes of scans that share an indexer. -/
inductive Goes (s : Sharing) : Sharing → Prop
  | edit (source : Source) : Goes s { s with source, history := s.history ++ [.edited] }
  | start (entry : FilePath) :
      Goes s
        { s with
          jobs := s.jobs ++ [⟨entry, .underWay (.entering entry)⟩]
          history := s.history ++ [.started s.jobs.length] }
  | look {i : Nat} {entry : FilePath} {course : Course}
      (hjob : s.jobs[i]? = some ⟨entry, .underWay course⟩) :
      Goes s
        { s with
          jobs := s.jobs.set i ⟨entry, .underWay (course.look s.indexer.options s.source)⟩ }
  | publish {i : Nat} {entry : FilePath} {snapshot : Snapshot}
      (hjob : s.jobs[i]? = some ⟨entry, .underWay (.ended (.ok snapshot))⟩) :
      Goes s
        { s with
          indexer := { s.indexer with store := ⟨snapshot⟩ }
          jobs := s.jobs.set i ⟨entry, .done (.ok snapshot)⟩
          history := s.history ++ [.published i] }
  | fail {i : Nat} {entry : FilePath} {failure : ScanError}
      (hjob : s.jobs[i]? = some ⟨entry, .underWay (.ended (.error failure))⟩) :
      Goes s
        { s with
          jobs := s.jobs.set i ⟨entry, .done (.error failure)⟩
          history := s.history ++ [.failed i] }

/-- A move that can be made does one of these things. -/
theorem goes_of_next? {move : Move} (h : s.next? move = some s') : Goes s s' := by
  cases move with
  | edit source =>
    obtain rfl := Option.some.inj h
    exact .edit source
  | start entry =>
    obtain rfl := Option.some.inj h
    exact .start entry
  | look i =>
    simp only [next?] at h
    split at h
    · next entry course hjob =>
      obtain rfl := Option.some.inj h
      exact .look hjob
    · cases h
  | finish i =>
    simp only [next?] at h
    split at h
    · next entry result hjob =>
      obtain rfl := Option.some.inj h
      -- a scan that has failed publishes nothing
      cases result with
      | ok snapshot => exact .publish hjob
      | error failure => exact .fail hjob
    · cases h

/-! ## What stays true -/

/-- The history of scans that share an indexer accounts for what they published since the first of
them started. -/
structure Tallied (first : Indexer) (s : Sharing) : Prop where
  published : ∀ i, i ∈ publications s.history ↔ ∃ snapshot, s.result? i = some (.ok snapshot)
  once : (publications s.history).Nodup
  behind : ∀ i j, i < j → j ∈ publications s.history →
    [.started i, .started j, .published j] <+ s.history
  overtaken : ∀ i j, i < j → [j, i] <+ publications s.history →
    [.started i, .started j, .published j, .published i] <+ s.history
  current : ∀ i, (publications s.history).getLast? = some i →
    s.result? i = some (.ok s.indexer.snapshot)
  unpublished : publications s.history = [] → s.indexer.snapshot = first.snapshot
  options : s.indexer.options = first.options

/-- It also accounts for their order and for what they have seen. -/
structure Accounted (first : Indexer) (s : Sharing) : Prop extends Tallied first s where
  started : ∀ i < s.jobs.length, .started i ∈ s.history
  inTurn : ∀ i j, i < j → j < s.jobs.length → [.started i, .started j] <+ s.history
  /-- A scan behind whose start no file has changed is where it gets with the files as they are. -/
  undisturbed : ∀ i job, s.jobs[i]? = some job → ¬ [.started i, .edited] <+ s.history →
    Course.Leads s.indexer.options s.source (.entering job.entry) job.stage.course

/-- While no scan has started there is nothing to account for. -/
theorem accounted_new (source : Source) (indexer : Indexer) :
    Accounted indexer (new source indexer) where
  published i := by simp [new, publications, result?]
  once := .nil
  behind i j _ hj := by cases hj
  overtaken i j _ h := by cases h
  current i h := by cases h
  unpublished _ := rfl
  options := rfl
  started i hi := absurd hi (Nat.not_lt_zero i)
  inTurn i j _ hj := absurd hj (Nat.not_lt_zero j)
  undisturbed i job h := by cases h

/-- What does not publish leaves what was published. -/
theorem Tallied.keep (h : Tallied first s) (hhistory : s.history <+ s'.history)
    (hpublications : publications s'.history = publications s.history)
    (hresults : ∀ k snapshot,
      s'.result? k = some (.ok snapshot) ↔ s.result? k = some (.ok snapshot))
    (hindexer : s'.indexer = s.indexer) : Tallied first s' where
  published i := by
    rw [hpublications, h.published]
    simp only [hresults]
  once := hpublications ▸ h.once
  behind i j hij hj := (h.behind i j hij (hpublications ▸ hj)).trans hhistory
  overtaken i j hij hji := (h.overtaken i j hij (hpublications ▸ hji)).trans hhistory
  current i hi := by
    rw [hresults, hindexer]
    exact h.current i (hpublications ▸ hi)
  unpublished hnil := hindexer ▸ h.unpublished (hpublications ▸ hnil)
  options := hindexer ▸ h.options

section

variable {i k : Nat} {entry : FilePath} {course : Course} {stage : Stage} {snapshot : Snapshot}

/-- A scan that has only started hands over nothing. -/
theorem result?_start (hjobs : s'.jobs = s.jobs ++ [⟨entry, .underWay course⟩]) :
    s'.result? k = some (.ok snapshot) ↔ s.result? k = some (.ok snapshot) := by
  unfold result?
  rw [hjobs, Option.bind_eq_some_iff, Option.bind_eq_some_iff]
  constructor
  · rintro ⟨job, hk, hresult⟩
    rcases List.getElem?_concat_eq_some_iff.1 hk with hk | ⟨-, rfl⟩
    · exact ⟨job, hk, hresult⟩
    · cases hresult
  · rintro ⟨job, hk, hresult⟩
    exact ⟨job, List.getElem?_concat_of_some _ hk, hresult⟩

/-- What a scan under way becomes is all that is handed over. -/
theorem result?_set (hjob : s.jobs[i]? = some ⟨entry, .underWay course⟩)
    (hjobs : s'.jobs = s.jobs.set i ⟨entry, stage⟩) :
    s'.result? k = some (.ok snapshot) ↔
      k = i ∧ stage.result? = some (.ok snapshot) ∨ s.result? k = some (.ok snapshot) := by
  unfold result?
  rw [hjobs]
  by_cases hk : k = i
  · subst hk
    simp [List.getElem?_set_self (List.getElem?_eq_some_iff.1 hjob).1, hjob]
  · simp [List.getElem?_set_ne (Ne.symm hk), hk]

/-- A scan behind whose start no file has changed goes on so with what it sees. -/
theorem Accounted.undisturbed_set (h : Accounted first s)
    (hjob : s.jobs[i]? = some ⟨entry, .underWay course⟩)
    (hstage : Course.Leads s.indexer.options s.source course stage.course) {history : List Moment}
    (hhistory : s.history <+ history) (k : Nat) (job : Job)
    (hk : (s.jobs.set i ⟨entry, stage⟩)[k]? = some job)
    (hundisturbed : ¬ [.started k, .edited] <+ history) :
    Course.Leads s.indexer.options s.source (.entering job.entry) job.stage.course := by
  have hundisturbed : ¬ [.started k, .edited] <+ s.history :=
    fun hedited => hundisturbed (hedited.trans hhistory)
  -- the scan that goes on, or one of the others
  by_cases hki : k = i
  · subst hki
    rw [List.getElem?_set_self (List.getElem?_eq_some_iff.1 hjob).1] at hk
    obtain rfl := Option.some.inj hk
    exact (h.undisturbed k _ hjob hundisturbed).trans hstage
  · rw [List.getElem?_set_ne (Ne.symm hki)] at hk
    exact h.undisturbed k job hk hundisturbed

/-- What starts no scan either leaves the order of the scans. -/
theorem Accounted.keep (h : Accounted first s) (htallied : Tallied first s')
    (hhistory : s.history <+ s'.history) (hjobs : s'.jobs.length = s.jobs.length)
    (hundisturbed : ∀ k job, s'.jobs[k]? = some job → ¬ [.started k, .edited] <+ s'.history →
      Course.Leads s'.indexer.options s'.source (.entering job.entry) job.stage.course) :
    Accounted first s' where
  toTallied := htallied
  started i hi := hhistory.subset (h.started i (hjobs ▸ hi))
  inTurn i j hij hj := (h.inTurn i j hij (hjobs ▸ hj)).trans hhistory
  undisturbed := hundisturbed

end

/-- A scan that publishes does so for the first time, and last of all. -/
theorem Accounted.tallied_publish (h : Accounted first s) {i : Nat} {entry : FilePath}
    {snapshot : Snapshot}
    (hjob : s.jobs[i]? = some ⟨entry, .underWay (.ended (.ok snapshot))⟩)
    (hindexer : s'.indexer = { s.indexer with store := ⟨snapshot⟩ })
    (hjobs : s'.jobs = s.jobs.set i ⟨entry, .done (.ok snapshot)⟩)
    (hhistory : s'.history = s.history ++ [.published i]) : Tallied first s' := by
  have hkept : s.history <+ s'.history := hhistory ▸ List.sublist_append_left _ _
  have hpublications : publications s'.history = publications s.history ++ [i] := by
    rw [hhistory, publications_concat]
    rfl
  have hlt : i < s.jobs.length := (List.getElem?_eq_some_iff.1 hjob).1
  -- a scan that is under way has not published yet
  have hnew : i ∉ publications s.history := fun hi => by
    obtain ⟨_, hdone⟩ := (h.published i).1 hi
    simp [result?, hjob] at hdone
  refine
    { published := fun k => ?_
      once := ?_
      behind := fun k j hkj hj => ?_
      overtaken := fun k j hkj hjk => ?_
      current := fun k hk => ?_
      unpublished := fun hnil => ?_
      options := by rw [hindexer, h.options] }
  · rw [hpublications, List.mem_append, h.published, List.mem_singleton]
    constructor
    · rintro (⟨other, hk⟩ | rfl)
      · exact ⟨other, (result?_set hjob hjobs).2 (.inr hk)⟩
      · exact ⟨snapshot, (result?_set hjob hjobs).2 (.inl ⟨rfl, rfl⟩)⟩
    · rintro ⟨other, hk⟩
      rcases (result?_set hjob hjobs).1 hk with ⟨rfl, -⟩ | hk
      · exact .inr rfl
      · exact .inl ⟨other, hk⟩
  · rw [hpublications, ← List.concat_eq_append]
    exact List.Nodup.concat hnew h.once
  · rw [hpublications] at hj
    rcases List.mem_append.1 hj with hj | hj
    · exact (h.behind k j hkj hj).trans hkept
    · -- the older scan started before this one, which publishes now
      obtain rfl := List.mem_singleton.1 hj
      rw [hhistory]
      exact (h.inTurn k j hkj hlt).append (.refl [Moment.published j])
  · rw [hpublications] at hjk
    rcases List.pair_sublist_concat hjk with hjk | ⟨hj, rfl⟩
    · exact (h.overtaken k j hkj hjk).trans hkept
    · -- the younger scan has published before this one, which is overtaken
      rw [hhistory]
      exact (h.behind k j hkj hj).append (.refl [Moment.published k])
  · rw [hpublications, List.getLast?_concat] at hk
    -- readers see what was published last
    obtain rfl := Option.some.inj hk
    exact (result?_set hjob hjobs).2 (.inl ⟨rfl, by rw [hindexer]; rfl⟩)
  · rw [hpublications] at hnil
    simp at hnil

/-- Whatever happens, the history goes on accounting for the scans. -/
theorem Accounted.goes (h : Accounted first s) (hgoes : Goes s s') : Accounted first s' := by
  -- one case for each thing that can happen; only a publication changes what readers see
  cases hgoes with
  | edit source =>
    have hkept := List.sublist_append_left s.history [.edited]
    refine h.keep (h.toTallied.keep hkept (by simp) (fun _ _ => Iff.rfl) rfl)
      hkept rfl fun k job hk hundisturbed => ?_
    -- every scan that was started was started before
    have hstarted : [.started k] <+ s.history :=
      List.singleton_sublist.2 (h.started k (List.getElem?_eq_some_iff.1 hk).1)
    have hedited : [.started k, .edited] <+ s.history ++ [.edited] := hstarted.append (.refl _)
    exact absurd hedited hundisturbed
  | start entry =>
    have hkept := List.sublist_append_left s.history [.started s.jobs.length]
    refine
      { toTallied := h.toTallied.keep hkept (by simp) (fun _ _ => result?_start rfl) rfl
        started := fun i hi => ?_
        inTurn := fun i j hij hj => ?_
        undisturbed := fun i job hi hundisturbed => ?_ }
    · have hi : i < s.jobs.length + 1 := by simpa using hi
      rcases Nat.lt_succ_iff_lt_or_eq.1 hi with hi | rfl
      · exact hkept.subset (h.started i hi)
      · simp
    · have hj : j < s.jobs.length + 1 := by simpa using hj
      rcases Nat.lt_succ_iff_lt_or_eq.1 hj with hj | rfl
      · exact (h.inTurn i j hij hj).trans hkept
      · exact (List.singleton_sublist.2 (h.started i hij)).append (.refl _)
    · rcases List.getElem?_concat_eq_some_iff.1 hi with hi | ⟨-, rfl⟩
      · exact h.undisturbed i job hi fun hedited => hundisturbed (hedited.trans hkept)
      · exact .refl _
  | look hjob =>
    exact h.keep
      (h.toTallied.keep (.refl _) rfl
        (fun k snapshot => (result?_set hjob rfl).trans (by simp)) rfl)
      (.refl _) (by simp) (h.undisturbed_set hjob (.look _) (.refl _))
  | @fail i entry failure hjob =>
    have hkept := List.sublist_append_left s.history [.failed i]
    exact h.keep
      (h.toTallied.keep hkept (by simp)
        (fun k snapshot => (result?_set hjob rfl).trans (by simp)) rfl)
      hkept (by simp) (h.undisturbed_set hjob (.refl _) hkept)
  | @publish i entry snapshot hjob =>
    have hkept := List.sublist_append_left s.history [.published i]
    exact h.keep (h.tallied_publish hjob rfl rfl rfl) hkept (by simp)
      (h.undisturbed_set hjob (.refl _) hkept)

/-- The history accounts for the scans behind any moves that can be made. -/
theorem Accounted.run {moves : List Move} (h : Accounted first s) (hrun : s.run moves = some s') :
    Accounted first s' := by
  -- move by move
  induction moves generalizing s with
  | nil =>
    obtain rfl := Option.some.inj hrun
    exact h
  | cons move moves ih =>
    obtain ⟨next, hnext, hrun⟩ := Option.bind_eq_some_iff.1 hrun
    exact ih (h.goes (goes_of_next? hnext)) hrun

/-! ## Which snapshot is published -/

/-- What holds of scans that share an indexer since the first of them started. -/
structure LastToPublish (first : Indexer) (s : Sharing) : Prop where
  /-- The scans that succeed publish, and no others do. -/
  published : ∀ i, i ∈ publications s.history ↔ ∃ snapshot, s.result? i = some (.ok snapshot)
  /-- No scan publishes twice. -/
  once : (publications s.history).Nodup
  /-- Readers see the snapshot of the scan that published last. -/
  current : ∀ i, (publications s.history).getLast? = some i →
    s.result? i = some (.ok s.indexer.snapshot)
  /-- While no scan has published, readers see what they saw at first. -/
  unpublished : publications s.history = [] → s.indexer.snapshot = first.snapshot
  /-- A scan publishes behind one that started later only if that one started and published while
  it was under way. -/
  overtaken : ∀ i j, i < j → [j, i] <+ publications s.history →
    [.started i, .started j, .published j, .published i] <+ s.history
  /-- Readers see the snapshot of the successful scan that started last, unless it has overtaken
  the scan that published last. -/
  latest : ∀ i snapshot, s.result? i = some (.ok snapshot) →
    (∀ j other, s.result? j = some (.ok other) → j ≤ i) →
      s.indexer.snapshot = snapshot ∨
      ∃ k < i, (publications s.history).getLast? = some k ∧
        [.started k, .started i, .published i, .published k] <+ s.history
  /-- A scan behind whose start no file has changed has found what a scan on its own finds. -/
  undisturbed : ∀ i job result, s.jobs[i]? = some job → s.result? i = some result →
    ¬ [.started i, .edited] <+ s.history →
      result = (Scan.run s.source first.options job.entry none).result

/-- The scan that started last is published last, unless an older one was still to publish. -/
theorem Tallied.latest (h : Tallied first s) {i : Nat} {snapshot : Snapshot}
    (hi : s.result? i = some (.ok snapshot))
    (hlast : ∀ j other, s.result? j = some (.ok other) → j ≤ i) :
    s.indexer.snapshot = snapshot ∨
    ∃ k < i, (publications s.history).getLast? = some k ∧
      [.started k, .started i, .published i, .published k] <+ s.history := by
  have hmem : i ∈ publications s.history := (h.published i).2 ⟨snapshot, hi⟩
  -- the scan that published last, which may be this one
  obtain ⟨before, k, hconcat⟩ : ∃ before k, publications s.history = before ++ [k] := by
    have hne : publications s.history ≠ [] := List.ne_nil_of_mem hmem
    exact ⟨_, _, (List.dropLast_concat_getLast hne).symm⟩
  have hk : (publications s.history).getLast? = some k := by rw [hconcat, List.getLast?_concat]
  have hcurrent := h.current k hk
  rcases Nat.lt_or_eq_of_le (hlast k _ hcurrent) with hlt | rfl
  · -- an older scan published last, and so behind this one
    rw [hconcat] at hmem
    have hbefore : i ∈ before := by
      rcases List.mem_append.1 hmem with hbefore | heq
      · exact hbefore
      · exact absurd (List.mem_singleton.1 heq) (Nat.ne_of_gt hlt)
    have hpair : [i, k] <+ publications s.history := by
      rw [hconcat]
      exact (List.singleton_sublist.2 hbefore).append (.refl [k])
    exact .inr ⟨k, hlt, hk, h.overtaken k i hlt hpair⟩
  · rw [hi] at hcurrent
    exact .inl (Except.ok.inj (Option.some.inj hcurrent)).symm

/-- A scan that no change came behind has found what a scan on its own finds. -/
theorem Accounted.result_eq (h : Accounted first s) {i : Nat} {job : Job}
    {result : Except ScanError Snapshot} (hjob : s.jobs[i]? = some job)
    (hresult : s.result? i = some result) (hundisturbed : ¬ [.started i, .edited] <+ s.history) :
    result = (Scan.run s.source first.options job.entry none).result := by
  have hleads := h.undisturbed i job hjob hundisturbed
  obtain ⟨entry, stage⟩ := job
  cases stage with
  | underWay course => simp [result?, hjob] at hresult
  | done other =>
    obtain rfl : other = result := by simpa [result?, hjob] using hresult
    rw [← h.options]
    exact Course.result_of_leads hleads (Course.leads_scan _ _ _)

/-- However scans that share an indexer and changes of the files alternate, the scan that publishes
last is the one whose snapshot readers see. -/
theorem lastToPublish_of_run (source : Source) (indexer : Indexer) (moves : List Move)
    (s : Sharing) (h : (new source indexer).run moves = some s) : LastToPublish indexer s := by
  have haccounted := (accounted_new source indexer).run h
  exact
    { published := haccounted.published
      once := haccounted.once
      current := haccounted.current
      unpublished := haccounted.unpublished
      overtaken := haccounted.overtaken
      latest := fun _ _ => haccounted.latest
      undisturbed := fun _ _ _ => haccounted.result_eq }

/-! ## A scan that nothing comes between -/

/-- Moves in two parts are made part by part. -/
theorem run_append (s : Sharing) (moves more : List Move) :
    s.run (moves ++ more) = (s.run moves).bind fun s => s.run more := by
  induction moves generalizing s with
  | nil => rfl
  | cons move moves ih =>
    cases hnext : s.next? move with
    | none => simp [run, hnext]
    | some next => simp [run, hnext, ih]

/-- The start of a scan. -/
theorem exists_start (s : Sharing) (entry : FilePath) :
    ∃ s', s.run [.start entry] = some s' ∧ s'.source = s.source ∧ s'.indexer = s.indexer ∧
      s'.jobs[s.jobs.length]? = some ⟨entry, .underWay (.entering entry)⟩ :=
  ⟨_, rfl, rfl, rfl, List.getElem?_concat_length⟩

/-- Looks of one scan. -/
theorem exists_looks {i : Nat} {entry : FilePath} {course : Course} (n : Nat)
    (hjob : s.jobs[i]? = some ⟨entry, .underWay course⟩) :
    ∃ s', s.run (List.replicate n (.look i)) = some s' ∧ s'.source = s.source ∧
      s'.indexer = s.indexer ∧ s'.jobs[i]? =
        some ⟨entry, .underWay ((Course.look s.indexer.options s.source)^[n] course)⟩ := by
  -- look by look, each of which leaves the files and the indexer as they are
  induction n generalizing s course with
  | zero => exact ⟨s, rfl, rfl, rfl, hjob⟩
  | succ n ih =>
    obtain ⟨next, hnext, hsource, hindexer, hnextJob⟩ : ∃ next, s.next? (.look i) = some next ∧
        next.source = s.source ∧ next.indexer = s.indexer ∧ next.jobs[i]? =
          some ⟨entry, .underWay (course.look s.indexer.options s.source)⟩ := by
      have hlt : i < s.jobs.length := (List.getElem?_eq_some_iff.1 hjob).1
      simp only [next?, hjob]
      exact ⟨_, rfl, rfl, rfl, List.getElem?_set_self hlt⟩
    obtain ⟨s', hs', hsource', hindexer', hjob'⟩ := ih hnextJob
    refine ⟨s', ?_, hsource'.trans hsource, hindexer'.trans hindexer, ?_⟩
    · rw [List.replicate_succ, run, hnext, Option.bind_some, hs']
    · rw [hjob', hindexer, hsource, Function.iterate_succ_apply]

/-- The end of a scan. -/
theorem exists_finish {i : Nat} {entry : FilePath} {result : Except ScanError Snapshot}
    (hjob : s.jobs[i]? = some ⟨entry, .underWay (.ended result)⟩) :
    ∃ s', s.run [.finish i] = some s' ∧ s'.source = s.source ∧
      s'.indexer = s.indexer.deliver result := by
  simp only [run, next?, hjob, Option.bind_some]
  exact ⟨_, rfl, rfl, rfl⟩

/-- A scan that nothing comes between does to the indexer what `Indexer.scan` does. -/
theorem exists_run_alone (s : Sharing) (entry : FilePath) :
    ∃ n s', s.run ([.start entry] ++ (List.replicate n (.look s.jobs.length) ++
        [.finish s.jobs.length])) = some s' ∧
      s'.source = s.source ∧ s'.indexer = (s.indexer.scan s.source entry none).2 := by
  obtain ⟨started, hstarted, hsource, hindexer, hjob⟩ := exists_start s entry
  obtain ⟨n, hn⟩ := Course.leads_scan started.indexer.options started.source entry
  obtain ⟨looked, hlooked, hsource', hindexer', hjob'⟩ := exists_looks n hjob
  rw [hn] at hjob'
  obtain ⟨s', hs', hsource'', hindexer''⟩ := exists_finish hjob'
  refine ⟨n, s', ?_, by rw [hsource'', hsource', hsource], ?_⟩
  · rw [run_append, hstarted, Option.bind_some, run_append, hlooked, Option.bind_some, hs']
  · rw [hindexer'', hindexer', Indexer.deliver_run, hindexer, hsource]

/-! ## A scan that is overtaken -/

/-- A project of one file. -/
def single (text : String) : Source :=
  { listing := [(⟨"/p/index.graphql"⟩, .ok text)], absent := MemoryFiles.notLoaded }

/-- Two scans of a file that changes once the first one has read it. The second one has published
when the first one does. -/
def overtaking : List Move :=
  [.start ⟨"/p/index.graphql"⟩, .look 0, .look 0, .edit (single "type B")] ++
    .start ⟨"/p/index.graphql"⟩ :: List.replicate 5 (.look 1) ++ .finish 1 ::
      List.replicate 3 (.look 0) ++ [.finish 0]

/-- The snapshot of the project while its file declares one type. -/
def declaring (name : String) : Snapshot :=
  .ofRecords
    [.entry ⟨"/p/index.graphql"⟩, .file ⟨"/p/index.graphql"⟩,
      .definition name ⟨⟨⟨"/p/index.graphql"⟩, 0, 5⟩, none⟩]

/-- The scan that started first publishes last, and what readers see is older than the file. -/
theorem run_overtaking :
    ∃ s, (new (single "type A") (.new .default)).run overtaking = some s ∧
      s.history = [.started 0, .edited, .started 1, .published 1, .published 0] ∧
      s.jobs.map (fun job => job.stage.result?) =
        [some (.ok (declaring "A")), some (.ok (declaring "B"))] ∧
      s.indexer.snapshot = declaring "A" := by
  have hrun : ((new (single "type A") (.new .default)).run overtaking).map
      (fun s => (s.history, s.jobs.map (fun job => job.stage.result?), s.indexer.snapshot)) =
        some ([.started 0, .edited, .started 1, .published 1, .published 0],
          [some (.ok (declaring "A")), some (.ok (declaring "B"))], declaring "A") := by
    decide +kernel
  obtain ⟨s, hs, heq⟩ := Option.map_eq_some_iff.1 hrun
  simp only [Prod.mk.injEq] at heq
  exact ⟨s, hs, heq⟩

/-- Where both scans have ended, readers see the snapshot of the one that started first. -/
theorem stale_overtaking :
    ∃ s, (new (single "type A") (.new .default)).run overtaking = some s ∧
      publications s.history = [1, 0] ∧
      s.jobs.map (fun job => job.stage.result?) =
        [some (.ok (declaring "A")), some (.ok (declaring "B"))] ∧
      s.indexer.snapshot = declaring "A" ∧ declaring "A" ≠ declaring "B" := by
  obtain ⟨s, hs, hhistory, hresults, hsnapshot⟩ := run_overtaking
  exact ⟨s, hs, by rw [hhistory]; rfl, hresults, hsnapshot, by decide +kernel⟩

/-- When the younger of two scans publishes first, the older one is the last to publish. -/
theorem lastToPublish_of_run_overtaking :
    ∃ s, (new (single "type A") (.new .default)).run overtaking = some s ∧
      LastToPublish (.new .default) s ∧
      [.started 0, .started 1, .published 1, .published 0] <+ s.history := by
  obtain ⟨s, hs, hhistory, -, -⟩ := run_overtaking
  have hlast := lastToPublish_of_run _ _ _ _ hs
  refine ⟨s, hs, hlast, hlast.overtaken 0 1 Nat.zero_lt_one ?_⟩
  rw [hhistory]
  exact .refl _

end Sharing

end SchemaAtlas
