import SchemaAtlas.Project.Scan

/-!
# How a crawl moves

Once and for all what one step of a crawl can do, and what a whole crawl keeps when its steps
keep it. What is said of one crawl rests on this file and takes `step` apart no more.

* `foldl_follow`              following the includes of a file, in closed form
* `goes_of_step`              the three ways in which a crawl goes on
* `ends_of_step`              the four ways in which a crawl ends
* `run_induction`             what every step keeps holds where a crawl ends
* `holds_of_run`              what the end keeps as well holds behind it
* `growsTo_run`               a crawl takes back nothing
* `finished_of_run`           a crawl without a limit ends with nothing left to take up
* `exists_run_of_within`      a crawl of given files, computed
* `Scan.exists_crawl_of_ok`   a scan that succeeds is a crawl and the documents of its clients
* `Scan.exists_ok_of_within`  a scan of given files, computed
-/

namespace SchemaAtlas.Crawl

variable {source : Source} {entry : FilePath} {maxFiles cancelAfter : Option Nat}

/-! ## Following includes -/

/-- A path in its normal form can be a target if it exists. -/
theorem isTarget_normalize {p : FilePath} (h : source.has p.normalize = true) :
    p.normalize.IsNormal ∧ source.has p.normalize = true :=
  ⟨FilePath.isNormal_normalize p, h⟩

/-- The path of an include is normal, so it can be a target if it exists. -/
theorem isTarget_resolveInclude {file : FilePath} {included : String}
    (h : source.has (resolveInclude file included) = true) :
    (resolveInclude file included).IsNormal ∧ source.has (resolveInclude file included) = true :=
  isTarget_normalize h

/-- What an include puts on the stack: the path that it stands for, if that path exists and was
not taken up. -/
def target? (source : Source) (visited : List FilePath) (file : FilePath) (included : String) :
    Option (Target source) :=
  if resolveInclude file included ∈ visited then none
  else if h : source.has (resolveInclude file included) = true then
    some ⟨resolveInclude file included, isTarget_resolveInclude h⟩
  else none

/-- What an include reports: the path that it stands for, if that path does not exist. -/
def missing (source : Source) (visited : List FilePath) (file : FilePath) (included : String) :
    List Record :=
  if resolveInclude file included ∈ visited ∨ source.has (resolveInclude file included) = true then
    []
  else
    [.diagnostic
      { path := resolveInclude file included
        kind := .notFound
        message := "included from " ++ file.text ++ " but does not exist" }]

/-- A target of an include is its path, if it exists and was not taken up. -/
theorem target?_eq_some_iff {visited : List FilePath} {file : FilePath} {included : String}
    {target : Target source} :
    target? source visited file included = some target ↔
      target.1 = resolveInclude file included ∧ target.1 ∉ visited := by
  unfold target?
  -- taken up before, or there, or missing
  split
  · next hmem =>
    constructor
    · intro h
      cases h
    · rintro ⟨heq, hnew⟩
      exact absurd (heq ▸ hmem) hnew
  · next hnew =>
    split
    · constructor
      · intro h
        obtain rfl := Option.some.inj h
        exact ⟨rfl, hnew⟩
      · rintro ⟨heq, -⟩
        exact congrArg some (Subtype.ext heq.symm)
    · next hhas =>
      constructor
      · intro h
        cases h
      · rintro ⟨heq, -⟩
        exact absurd (heq ▸ target.2.2) hhas

/-- Following one include puts its target on the stack or reports it as missing. -/
theorem follow_eq (file : FilePath) (c : Crawl source) (included : String) :
    follow file c included =
      { c with
        stack := (target? source c.visited file included).toList ++ c.stack
        records := c.records ++ missing source c.visited file included } := by
  simp only [follow, target?, missing]
  by_cases hmem : resolveInclude file included ∈ c.visited
  · simp [hmem]
  · by_cases hhas : source.has (resolveInclude file included) = true
    · simp [hmem, hhas]
    · simp [hmem, hhas, report]

/-- Following the includes of a file puts the targets on the stack, the last one on top, and
reports what is missing in the order of the includes. -/
theorem foldl_follow (file : FilePath) (includes : List String) (c : Crawl source) :
    includes.foldl (follow file) c =
      { c with
        stack := (includes.filterMap (target? source c.visited file)).reverse ++ c.stack
        records := c.records ++ includes.flatMap (missing source c.visited file) } := by
  induction includes generalizing c with
  | nil => simp
  | cons included includes ih =>
    rw [List.foldl_cons, ih, follow_eq]
    cases h : target? source c.visited file included with
    | none => simp [h]
    | some target => simp [h]

/-- Adding a file changes the stack, the records and the assembled text, and nothing else. -/
theorem addFile_eq (c : Crawl source) (path : FilePath) (text : String) :
    c.addFile path text =
      { c with
        stack := ((contribution path text).includes.filterMap
          (target? source c.visited path)).reverse ++ c.stack
        records := c.records ++ (.file path :: (contribution path text).records ++
          (contribution path text).includes.flatMap (missing source c.visited path))
        assembled :=
          if (contribution path text).sound then c.assembled ++ text ++ "\n"
          else c.assembled } := by
  simp [addFile, foldl_follow]

/-! ## One step -/

/-- How a crawl goes on: the path on top of the stack was taken up before, or it is taken up and
read, or it is taken up and cannot be read. -/
inductive Goes (entry : FilePath) (maxFiles : Option Nat) (c : Crawl source) : Crawl source → Prop
  | again {path : Target source} {rest : List (Target source)} (hstack : c.stack = path :: rest)
      (hold : path.1 ∈ c.visited) : Goes entry maxFiles c { c with stack := rest }
  | read {path : Target source} {rest : List (Target source)} {text : String}
      (hstack : c.stack = path :: rest) (hnew : path.1 ∉ c.visited)
      (hlimit : c.atLimit maxFiles = false) (hread : source.read path = .ok text) :
      Goes entry maxFiles c
        ((({ c with stack := rest } : Crawl source).mark path).addFile path text)
  | unreadable {path : Target source} {rest : List (Target source)} {reason : String}
      (hstack : c.stack = path :: rest) (hnew : path.1 ∉ c.visited)
      (hlimit : c.atLimit maxFiles = false) (hread : source.read path = .error reason)
      (hne : path.1 ≠ entry) :
      Goes entry maxFiles c
        ((({ c with stack := rest } : Crawl source).mark path).report path .io reason)

/-- How a crawl ends: nothing is left on the stack, or it is called off, or the limit is reached,
or its entry cannot be read. -/
inductive Ends (entry : FilePath) (maxFiles cancelAfter : Option Nat) (c : Crawl source) :
    Crawl source → Option ScanError → Prop
  | finished (hstack : c.stack = []) : Ends entry maxFiles cancelAfter c c none
  | cancelled (hstack : c.stack ≠ []) (hcancel : cancelAfter.any (· ≤ c.ticks.length) = true) :
      Ends entry maxFiles cancelAfter c c (some .cancelled)
  | limited {path : Target source} {rest : List (Target source)} (hstack : c.stack = path :: rest)
      (hnew : path.1 ∉ c.visited) (hlimit : c.atLimit maxFiles = true) :
      Ends entry maxFiles cancelAfter c
        (({ c with stack := rest } : Crawl source).report path .resolution (limitMessage maxFiles))
        none
  | unreadable {path : Target source} {rest : List (Target source)} {reason : String}
      (hstack : c.stack = path :: rest) (hnew : path.1 ∉ c.visited)
      (hread : source.read path = .error reason) (heq : path.1 = entry) :
      Ends entry maxFiles cancelAfter c (({ c with stack := rest } : Crawl source).mark path)
        (some (.unreadable path reason))

/-- A crawl that is not called off steps as one that is never called off. -/
theorem step_eq_of_not_cancelled {c : Crawl source}
    (h : cancelAfter.any (· ≤ c.ticks.length) = false) :
    c.step entry maxFiles cancelAfter = c.step entry maxFiles none := by
  cases hstack : c.stack with
  | nil => simp [step, hstack]
  | cons path rest => simp [step, hstack, h]

/-- A step from which the crawl goes on was not called off, and is one of the three. -/
theorem goes_of_step {c c' : Crawl source} (h : c.step entry maxFiles cancelAfter = .going c') :
    cancelAfter.any (· ≤ c.ticks.length) = false ∧ Goes entry maxFiles c c' := by
  simp only [step] at h
  -- the cases of a step in their order; those that end it are no cases here
  split at h
  · cases h
  · next path rest hstack =>
    split at h
    · cases h
    · next hcancel =>
      refine ⟨by simpa using hcancel, ?_⟩
      split at h
      · next hold =>
        obtain rfl := Step.going.inj h
        exact .again hstack hold
      · next hnew =>
        split at h
        · cases h
        · next hlimit =>
          have hlimit : c.atLimit maxFiles = false := by simpa using hlimit
          simp only [takeUp] at h
          split at h
          · next text hread =>
            obtain rfl := Step.going.inj h
            exact .read hstack hnew hlimit hread
          · next reason hread =>
            split at h
            · cases h
            · next hne =>
              obtain rfl := Step.going.inj h
              exact .unreadable hstack hnew hlimit hread hne

/-- A step that ends the crawl does so in one of the four ways. -/
theorem ends_of_step {c c' : Crawl source} {failure : Option ScanError}
    (h : c.step entry maxFiles cancelAfter = .ended c' failure) :
    Ends entry maxFiles cancelAfter c c' failure := by
  simp only [step] at h
  -- the cases of a step in their order; those that go on are no cases here
  split at h
  · next hstack =>
    obtain ⟨rfl, rfl⟩ := Step.ended.inj h
    exact .finished hstack
  · next path rest hstack =>
    split at h
    · next hcancel =>
      obtain ⟨rfl, rfl⟩ := Step.ended.inj h
      exact .cancelled (by simp [hstack]) hcancel
    · split at h
      · cases h
      · next hnew =>
        split at h
        · next hlimit =>
          obtain ⟨rfl, rfl⟩ := Step.ended.inj h
          exact .limited hstack hnew hlimit
        · simp only [takeUp] at h
          split at h
          · cases h
          · next reason hread =>
            split at h
            · next heq =>
              obtain ⟨rfl, rfl⟩ := Step.ended.inj h
              exact .unreadable hstack hnew hread heq
            · cases h

/-- What a crawl has taken up, written down and reported in one state is the beginning of what it
has in another. -/
structure GrowsTo (c c' : Crawl source) : Prop where
  visited : c.visited <+: c'.visited
  records : c.records <+: c'.records
  ticks : c.ticks <+: c'.ticks

/-- A state is the beginning of itself. -/
theorem GrowsTo.refl (c : Crawl source) : c.GrowsTo c :=
  ⟨List.prefix_rfl, List.prefix_rfl, List.prefix_rfl⟩

/-- The beginning of a beginning is one, too. -/
theorem GrowsTo.trans {c c' c'' : Crawl source} (h : c.GrowsTo c') (h' : c'.GrowsTo c'') :
    c.GrowsTo c'' :=
  ⟨h.visited.trans h'.visited, h.records.trans h'.records, h.ticks.trans h'.ticks⟩

/-- No step takes anything back. -/
theorem Goes.growsTo {c c' : Crawl source} (h : Goes entry maxFiles c c') : c.GrowsTo c' := by
  cases h with
  | again => exact ⟨List.prefix_rfl, List.prefix_rfl, List.prefix_rfl⟩
  | read =>
    rw [addFile_eq]
    exact ⟨List.prefix_append _ _, List.prefix_append _ _, List.prefix_append _ _⟩
  | unreadable => exact ⟨List.prefix_append _ _, List.prefix_append _ _, List.prefix_append _ _⟩

/-- The end of a crawl takes nothing back either. -/
theorem Ends.growsTo {c c' : Crawl source} {failure : Option ScanError}
    (h : Ends entry maxFiles cancelAfter c c' failure) : c.GrowsTo c' := by
  cases h with
  | finished => exact .refl c
  | cancelled => exact .refl c
  | limited => exact ⟨List.prefix_rfl, List.prefix_append _ _, List.prefix_rfl⟩
  | unreadable => exact ⟨List.prefix_append _ _, List.prefix_rfl, List.prefix_append _ _⟩

/-! ## A whole crawl -/

/-- A crawl whose step ends it has run. -/
theorem run_of_ended {c c' : Crawl source} {failure : Option ScanError}
    (h : c.step entry maxFiles cancelAfter = .ended c' failure) :
    c.run entry maxFiles cancelAfter = (c', failure) := by
  rw [run]
  split
  · next heq =>
    obtain ⟨rfl, rfl⟩ := Step.ended.inj (h.symm.trans heq)
    rfl
  · next heq => cases h.symm.trans heq

/-- A crawl whose step goes on runs on from there. -/
theorem run_of_going {c c' : Crawl source} (h : c.step entry maxFiles cancelAfter = .going c') :
    c.run entry maxFiles cancelAfter = c'.run entry maxFiles cancelAfter := by
  rw [run]
  split
  · next heq => cases h.symm.trans heq
  · next heq =>
    obtain rfl := Step.going.inj (h.symm.trans heq)
    rfl

/-- What holds of a crawl and is kept by every step holds of the last state, from which the crawl
ends. -/
theorem run_induction {P : Crawl source → Prop} (c : Crawl source) (hstart : P c)
    (hgoes : ∀ c c', P c → Goes entry maxFiles c c' → P c') :
    ∃ last, P last ∧ Ends entry maxFiles cancelAfter last
      (c.run entry maxFiles cancelAfter).1 (c.run entry maxFiles cancelAfter).2 := by
  -- the last state is the one whose step ends the crawl
  induction c using run.induct entry maxFiles cancelAfter with
  | case1 c c' failure hstep =>
    rw [run_of_ended hstep]
    exact ⟨c, hstart, ends_of_step hstep⟩
  | case2 c c' hstep ih =>
    rw [run_of_going hstep]
    exact ih (hgoes c c' hstart (goes_of_step hstep).2)

/-- What holds of a crawl and is kept by every step and by the end holds at its end. -/
theorem holds_of_run {P : Crawl source → Prop} {c last : Crawl source}
    {failure : Option ScanError} (hstart : P c)
    (hgoes : ∀ c c', P c → Goes entry maxFiles c c' → P c')
    (hends : ∀ c c' failure, P c → Ends entry maxFiles cancelAfter c c' failure → P c')
    (hrun : c.run entry maxFiles cancelAfter = (last, failure)) : P last := by
  have hlast : ∃ before, P before ∧ Ends entry maxFiles cancelAfter before
      (c.run entry maxFiles cancelAfter).1 (c.run entry maxFiles cancelAfter).2 :=
    run_induction c hstart hgoes
  rw [hrun] at hlast
  obtain ⟨before, hbefore, hend⟩ := hlast
  exact hends before last failure hbefore hend

/-- A crawl takes nothing back that it has taken up, written down or reported. -/
theorem growsTo_run (c : Crawl source) : c.GrowsTo (c.run entry maxFiles cancelAfter).1 :=
  holds_of_run (.refl c) (fun _ _ hc hgoes => hc.trans hgoes.growsTo)
    (fun _ _ _ hc hends => hc.trans hends.growsTo) rfl

/-- A crawl without a limit that does not fail ends with nothing on its stack, and what its steps
keep holds then. -/
theorem finished_of_run {P : Crawl source → Prop} {c last : Crawl source} (hstart : P c)
    (hgoes : ∀ c c', P c → Goes entry none c c' → P c')
    (hrun : c.run entry none cancelAfter = (last, none)) : P last ∧ last.stack = [] := by
  have hlast : ∃ before, P before ∧ Ends entry none cancelAfter before
      (c.run entry none cancelAfter).1 (c.run entry none cancelAfter).2 :=
    run_induction c hstart hgoes
  rw [hrun] at hlast
  obtain ⟨before, hbefore, hends⟩ := hlast
  cases hends with
  | finished hstack => exact ⟨hbefore, hstack⟩
  | limited _ _ hlimit => cases hlimit

/-- Goes on for a number of steps, and says how the crawl ended if it did. -/
def runWithin (entry : FilePath) (maxFiles cancelAfter : Option Nat) :
    Nat → Crawl source → Option (Crawl source × Option ScanError)
  | 0, _ => none
  | n + 1, c =>
    match c.step entry maxFiles cancelAfter with
    | .ended c failure => some (c, failure)
    | .going c => runWithin entry maxFiles cancelAfter n c

/-- What is computed in a number of steps is what the crawl comes to. -/
theorem run_eq_of_runWithin {n : Nat} {c : Crawl source} {result : Crawl source × Option ScanError}
    (h : c.runWithin entry maxFiles cancelAfter n = some result) :
    c.run entry maxFiles cancelAfter = result := by
  -- one step for each number
  induction n generalizing c with
  | zero => cases h
  | succ n ih =>
    rw [runWithin] at h
    cases hstep : c.step entry maxFiles cancelAfter with
    | ended c' failure =>
      rw [hstep] at h
      rw [run_of_ended hstep]
      exact Option.some.inj h
    | going c' =>
      rw [hstep] at h
      rw [run_of_going hstep]
      exact ih h

/-- On given files a crawl can be computed, step by step. -/
theorem exists_run_of_within (n : Nat) {c : Crawl source} (P : Crawl source → Prop)
    [DecidablePred P]
    (h : (c.runWithin entry maxFiles cancelAfter n).any
      (fun result => result.2.isNone && P result.1) = true) :
    ∃ last, c.run entry maxFiles cancelAfter = (last, none) ∧ P last := by
  cases hwithin : c.runWithin entry maxFiles cancelAfter n with
  | none => simp [hwithin] at h
  | some result =>
    obtain ⟨last, failure⟩ := result
    obtain ⟨rfl, hlast⟩ : failure = none ∧ P last := by simpa [hwithin] using h
    exact ⟨last, run_eq_of_runWithin hwithin, hlast⟩

end SchemaAtlas.Crawl

/-! ## A scan -/

namespace SchemaAtlas.Scan

variable {source : Source} {options : ScanOptions} {entry : FilePath} {cancelAfter : Option Nat}

/-- The entry of a scan, once it is known to exist. -/
def target (source : Source) (entry : FilePath) (h : source.has entry.normalize = true) :
    Target source :=
  ⟨entry.normalize, Crawl.isTarget_normalize h⟩

/-- A scan without its entry fails before the crawl. -/
theorem run_of_missing (h : source.has entry.normalize = false) :
    run source options entry cancelAfter =
      { ticks := [], result := .error (.entryNotFound entry.normalize) } := by
  simp [run, h]

/-- A scan fails as its crawl does, and reports what that has reported. -/
theorem run_of_failed {h : source.has entry.normalize = true} {c : Crawl source}
    {failure : ScanError}
    (hrun : (Crawl.start (target source entry h)).run entry.normalize options.maxFiles cancelAfter =
      (c, some failure)) :
    run source options entry cancelAfter = { ticks := c.ticks, result := .error failure } := by
  unfold target at hrun
  simp [run, h, hrun]

/-- A scan whose crawl does not fail puts the documents of clients behind it and reports that it is
done. -/
theorem run_of_crawled {h : source.has entry.normalize = true} {c : Crawl source}
    (hrun : (Crawl.start (target source entry h)).run entry.normalize options.maxFiles cancelAfter =
      (c, none)) :
    run source options entry cancelAfter =
      { ticks := c.ticks ++ [⟨"Index ready", 100 - c.reported⟩]
        result := .ok (Snapshot.ofRecords
          (c.records ++ documentRecords source options entry.normalize c.assembled)) } := by
  unfold target at hrun
  simp [run, h, hrun]

/-- The snapshot of a scan whose crawl ends within a number of steps and does not fail. -/
def snapshotWithin? (source : Source) (options : ScanOptions) (entry : FilePath)
    (cancelAfter : Option Nat) (n : Nat) : Option Snapshot :=
  if h : source.has entry.normalize = true then
    match (Crawl.start (target source entry h)).runWithin entry.normalize options.maxFiles
      cancelAfter n with
    | some (c, none) =>
      some (Snapshot.ofRecords
        (c.records ++ documentRecords source options entry.normalize c.assembled))
    | _ => none
  else none

/-- On given files a scan can be computed, step by step. -/
theorem exists_ok_of_within (n : Nat) (P : Snapshot → Prop) [DecidablePred P]
    (hwithin : (snapshotWithin? source options entry cancelAfter n).any (P ·) = true) :
    ∃ s, (run source options entry cancelAfter).result = .ok s ∧ P s := by
  obtain ⟨s, hs, hP⟩ := (Option.any_eq_true _ _).1 hwithin
  refine ⟨s, ?_, of_decide_eq_true hP⟩
  unfold snapshotWithin? at hs
  split at hs
  · split at hs
    · next hcrawl =>
      rw [run_of_crawled (Crawl.run_eq_of_runWithin hcrawl), Option.some.inj hs]
    · cases hs
  · cases hs

/-- A scan that succeeds is a crawl that did not fail, followed by the documents that clients
run. -/
theorem exists_crawl_of_ok {s : Snapshot}
    (hok : (run source options entry cancelAfter).result = .ok s) :
    ∃ h c, (Crawl.start (target source entry h)).run entry.normalize options.maxFiles cancelAfter =
        (c, none) ∧
      s = Snapshot.ofRecords
        (c.records ++ documentRecords source options entry.normalize c.assembled) := by
  by_cases h : source.has entry.normalize = true
  -- only a crawl that ends without a failure gives a snapshot
  · rcases hrun : (Crawl.start (target source entry h)).run entry.normalize options.maxFiles
      cancelAfter with ⟨c, _ | failure⟩
    · rw [run_of_crawled hrun] at hok
      exact ⟨h, c, hrun, (Except.ok.inj hok).symm⟩
    · rw [run_of_failed hrun] at hok
      cases hok
  · rw [run_of_missing (by simpa using h)] at hok
    cases hok

end SchemaAtlas.Scan
