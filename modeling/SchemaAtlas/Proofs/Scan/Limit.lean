import SchemaAtlas.Proofs.Scan.Diagnostics

/-!
# Scans with a limit

A limit on the number of files cuts a scan short and changes nothing else. Up to the cut the crawl
with a limit takes the steps of the crawl without one; the cut comes when a path is about to be
taken up and as many paths as the limit allows were taken up before it, readable or not.

* `Crawl.Passes`               the states that a crawl goes through
* `Crawl.run_limited`          a crawl with a limit, beside the same crawl without one
* `Snapshot.sameSchema_of_filter`   schema records decide about the schema of a snapshot
* `Scan.cutShort_of_run_ok`    the same of scans and of the snapshots that they build
-/

namespace SchemaAtlas

/-- How the path behind a limit is reported. -/
def limitDiagnostic (n : Nat) (p : FilePath) : Diagnostic :=
  { path := p, kind := .resolution, message := Crawl.limitMessage (some n) }

/-- What a limit writes down: the path behind it, if there is one. -/
def limitRecords (n : Nat) (p? : Option FilePath) : List Record :=
  p?.toList.map fun p => .diagnostic (limitDiagnostic n p)

/-- A limit writes down no file. -/
theorem files_limitRecords (n : Nat) (p? : Option FilePath) :
    (limitRecords n p?).filterMap Record.file? = [] := by
  cases p? <;> rfl

/-- A limit writes down nothing of the schema. -/
theorem schema_limitRecords (n : Nat) (p? : Option FilePath) :
    (limitRecords n p?).filter Record.isSchema = [] := by
  cases p? <;> rfl

/-- A limit reports the path behind it, if there is one. -/
theorem diagnostics_limitRecords (n : Nat) (p? : Option FilePath) :
    (limitRecords n p?).filterMap Record.diagnostic? = p?.toList.map (limitDiagnostic n) := by
  cases p? <;> rfl

namespace Crawl

variable {source : Source} {entry : FilePath} {maxFiles cancelAfter : Option Nat}

/-! ## The states of a crawl -/

/-- The states that a crawl goes through from a state on. -/
inductive Passes (entry : FilePath) (maxFiles cancelAfter : Option Nat) :
    Crawl source → Crawl source → Prop
  | here (c : Crawl source) : Passes entry maxFiles cancelAfter c c
  | step {c c' c'' : Crawl source} (hstep : c.step entry maxFiles cancelAfter = .going c')
      (h : Passes entry maxFiles cancelAfter c' c'') : Passes entry maxFiles cancelAfter c c''

/-- What every step keeps holds of all states that a crawl goes through. -/
theorem Passes.induction {P : Crawl source → Prop} {c c' : Crawl source}
    (h : Passes entry maxFiles cancelAfter c c') (hstart : P c)
    (hgoes : ∀ c c', P c → Goes entry maxFiles c c' → P c') : P c' := by
  induction h with
  | here => exact hstart
  | step hstep _ ih => exact ih (hgoes _ _ hstart (goes_of_step hstep).2)

/-- A crawl ends as it does from any state that it goes through. -/
theorem Passes.run_eq {c c' : Crawl source} (h : Passes entry maxFiles cancelAfter c c') :
    c.run entry maxFiles cancelAfter = c'.run entry maxFiles cancelAfter := by
  -- each step of the way is the next step of the run
  induction h with
  | here => rfl
  | step hstep _ ih => rw [run_of_going hstep, ih]

/-- The records of a state that a crawl goes through come first among those at its end. -/
theorem Passes.prefix_records {c c' : Crawl source}
    (h : Passes entry maxFiles cancelAfter c c') :
    c'.records <+: (c.run entry maxFiles cancelAfter).1.records := by
  rw [h.run_eq]
  exact c'.growsTo_run.records

/-- A crawl keeps its books in every state that it goes through. -/
theorem Passes.kept {target : Target source} {c : Crawl source}
    (h : Passes entry maxFiles cancelAfter (start target) c) : c.Kept :=
  h.induction (kept_start target) fun _ _ hc hgoes => hc.goes hgoes

/-! ## Two runs -/

/-- A step passes over a path that was taken up before, or it takes up a new one. -/
theorem Goes.again_or_new {c c' : Crawl source} (h : Goes entry maxFiles c c') :
    ∃ path rest, c.stack = path :: rest ∧
      (path.1 ∈ c.visited ∧ c' = { c with stack := rest } ∨
        path.1 ∉ c.visited ∧ c'.visited = c.visited ++ [path.1]) := by
  cases h with
  | @again path rest hstack hold => exact ⟨path, rest, hstack, .inl ⟨hold, rfl⟩⟩
  | @read path rest text hstack hnew hlimit hread =>
    exact ⟨path, rest, hstack, .inr ⟨hnew, by simp [mark]⟩⟩
  | @unreadable path rest reason hstack hnew hlimit hread hne =>
    exact ⟨path, rest, hstack, .inr ⟨hnew, rfl⟩⟩

/-- A step that a crawl takes without a limit is also taken with one, unless it takes up a path
behind the limit: then that path is reported and the crawl ends. -/
theorem step_limited {n : Nat} {c c' : Crawl source} (hc : c.visited.length ≤ n)
    (hstep : c.step entry none cancelAfter = .going c') :
    (c.step entry (some n) cancelAfter = .going c' ∧ c'.visited.length ≤ n) ∨
    ∃ path rest, c.visited.length = n ∧ c'.visited = c.visited ++ [path] ∧
      c.step entry (some n) cancelAfter = .ended (({ c with stack := rest } : Crawl source).report
        path .resolution (limitMessage (some n))) none := by
  obtain ⟨hcancel, hgoes⟩ := goes_of_step hstep
  obtain ⟨path, rest, hstack, ⟨hold, rfl⟩ | ⟨hnew, hnext⟩⟩ := hgoes.again_or_new
  · exact .inl ⟨by simp [step, hstack, hcancel, hold], hc⟩
  · by_cases hless : c.visited.length < n
    · -- the limit allows the step, and so it does not show
      have hsame : c.step entry (some n) cancelAfter = c.step entry none cancelAfter := by
        simp [step, hstack, atLimit, Nat.not_le.2 hless]
      refine .inl ⟨hsame.trans hstep, ?_⟩
      rw [hnext, List.length_append, List.length_singleton]
      omega
    -- the limit is reached, and the path taken up next is the one that is reported
    · have hn : c.visited.length = n := by omega
      exact .inr ⟨path, rest, hn, hnext, by simp [step, hstack, hcancel, hnew, atLimit, hn]⟩

/-- What a limit does to a crawl: the crawl ends at a state that it goes through without the limit,
having taken up the first `n` of the paths that it takes up then. If there is a path behind
these, it is reported. -/
theorem run_limited {n : Nat} (c last : Crawl source) (hc : c.visited.length ≤ n)
    (hrun : c.run entry none cancelAfter = (last, none)) :
    ∃ cut limited : Crawl source, Passes entry none cancelAfter c cut ∧
      cut.visited = last.visited.take n ∧
      c.run entry (some n) cancelAfter = (limited, none) ∧
      limited.records = cut.records ++ limitRecords n last.visited[n]? := by
  -- the runs go side by side: the invariant is that at most `n` paths were taken up
  induction c using run.induct entry none cancelAfter with
  | case1 c c' failure hstep =>
    obtain ⟨rfl, rfl⟩ := Prod.mk.inj ((run_of_ended hstep).symm.trans hrun)
    cases ends_of_step hstep with
    | finished hstack =>
      have hlimited : c.step entry (some n) cancelAfter = .ended c none := by simp [step, hstack]
      refine ⟨c, c, .here c, (List.take_of_length_le hc).symm, run_of_ended hlimited, ?_⟩
      simp [limitRecords, List.getElem?_eq_none hc]
    | limited _ _ hlimit => cases hlimit
  | case2 c c' hstep ih =>
    rw [run_of_going hstep] at hrun
    rcases step_limited hc hstep with ⟨hstep', hc'⟩ | ⟨path, rest, hn, hnext, hended⟩
    · obtain ⟨cut, limited, hpasses, hcut, hlimited, hrecords⟩ := ih hc' hrun
      exact ⟨cut, limited, .step hstep hpasses, hcut, (run_of_going hstep').trans hlimited,
        hrecords⟩
    · -- the path is taken up without the limit, right behind what was taken up so far
      obtain ⟨more, hmore⟩ : c.visited ++ [path] <+: last.visited := by
        have hprefix : c'.visited <+: (c'.run entry none cancelAfter).1.visited :=
          c'.growsTo_run.visited
        rwa [hrun, hnext] at hprefix
      refine ⟨c, _, .here c, ?_, run_of_ended hended, ?_⟩
      · simp [← hmore, ← hn]
      · simp [report, limitRecords, limitDiagnostic, ← hmore, ← hn]

end Crawl

/-! ## What a snapshot says of the schema -/

namespace Snapshot

/-- Whether two snapshots say the same of definitions, fields, directives, edges and root
operations. -/
structure SameSchema (s t : Snapshot) : Prop where
  definitions : s.definitions = t.definitions
  fields : s.fields = t.fields
  typeDirectives : s.typeDirectives = t.typeDirectives
  relationships : s.relationships = t.relationships
  rootOperations : s.rootOperations = t.rootOperations

variable {s t : Snapshot}

/-- Two snapshots say the same of the schema whichever of them comes first. -/
theorem SameSchema.symm (h : s.SameSchema t) : t.SameSchema s :=
  ⟨h.definitions.symm, h.fields.symm, h.typeDirectives.symm, h.relationships.symm,
    h.rootOperations.symm⟩

/-- What two snapshots say in common with a third they say in common. -/
theorem SameSchema.trans {u : Snapshot} (h : s.SameSchema t) (h' : t.SameSchema u) :
    s.SameSchema u :=
  ⟨h.definitions.trans h'.definitions, h.fields.trans h'.fields,
    h.typeDirectives.trans h'.typeDirectives, h.relationships.trans h'.relationships,
    h.rootOperations.trans h'.rootOperations⟩

/-- A schema record adds the same to both. -/
theorem SameSchema.add (h : s.SameSchema t) (r : Record) : (s.add r).SameSchema (t.add r) := by
  obtain ⟨hdefinitions, hfields, hdirectives, hrelationships, hroots⟩ := h
  cases r with
  | typeDirectives type directives =>
    simp only [Snapshot.add]
    split
    · exact ⟨hdefinitions, hfields, hdirectives, hrelationships, hroots⟩
    · exact ⟨hdefinitions, hfields, by simp only [hdirectives], hrelationships, hroots⟩
  | _ => constructor <;> simp [Snapshot.add, *]

/-- Any other record adds nothing that counts. -/
theorem SameSchema.add_of_not_isSchema (h : s.SameSchema t) {r : Record}
    (hr : r.isSchema = false) : (s.add r).SameSchema t := by
  cases r with
  | entry | file | operations | persisted | diagnostic => exact ⟨h.1, h.2, h.3, h.4, h.5⟩
  | definition | rootOperation | field | typeDirectives | relationship => cases hr

/-- What a snapshot says of the schema is what its schema records say. -/
theorem sameSchema_filter (records : List Record) :
    (ofRecords records).SameSchema (ofRecords (records.filter Record.isSchema)) := by
  have hall (s t : Snapshot) (h : s.SameSchema t) :
      (s.addAll records).SameSchema (t.addAll (records.filter Record.isSchema)) := by
    -- a schema record is added on both sides, any other on one
    induction records generalizing s t with
    | nil => exact h
    | cons r records ih =>
      cases hr : r.isSchema with
      | true =>
        rw [List.filter_cons_of_pos hr]
        exact ih _ _ (h.add r)
      | false =>
        rw [List.filter_cons_of_neg (by simp [hr])]
        exact ih _ _ (h.add_of_not_isSchema hr)
  exact hall _ _ ⟨rfl, rfl, rfl, rfl, rfl⟩

/-- Records of which those of the schema are the same say the same of it. -/
theorem sameSchema_of_filter {records others : List Record}
    (h : records.filter Record.isSchema = others.filter Record.isSchema) :
    (ofRecords records).SameSchema (ofRecords others) := by
  have hother := sameSchema_filter others
  rw [← h] at hother
  exact (sameSchema_filter records).trans hother.symm

end Snapshot

/-! ## Two scans -/

/-- No report of a file is about a limit. -/
theorem Source.kind_of_mem_diagnosticsAt {source : Source} {p : FilePath} {d : Diagnostic}
    (h : d ∈ source.diagnosticsAt p) : d.kind ≠ .resolution := by
  -- diagnostics of syntax, of reading and of missing includes
  rcases List.mem_append.1 h with h | h
  · rcases List.mem_append.1 h with h | h
    · unfold syntaxDiagnostics at h
      split at h
      · obtain ⟨offset, -, rfl⟩ := List.mem_map.1 h
        simp
      · simp at h
    · unfold readingDiagnostics at h
      split at h
      · simp at h
      · simp [List.mem_singleton.1 h]
  · obtain ⟨q, -, rfl⟩ := List.mem_map.1 h
    simp [missingDiagnostic]

/-- The schema records of a crawl are those of its files. -/
theorem Crawl.Kept.schema_of_files {source : Source} {c : Crawl source} (hc : c.Kept) :
    c.records.filter Record.isSchema =
      (source.soundFiles (Snapshot.ofRecords c.records).files).flatMap Projection.records := by
  rw [Snapshot.files_ofRecords, hc.files, Source.soundFiles_filter, hc.schema]

namespace Scan

variable {source : Source} {options : ScanOptions} {entry : FilePath} {cancelAfter : Option Nat}

/-- What a scan has built whenever its crawl takes a step. -/
def Passes (source : Source) (options : ScanOptions) (entry : FilePath) (cancelAfter : Option Nat)
    (built : Snapshot) : Prop :=
  ∃ (h : source.has entry.normalize = true) (c : Crawl source),
    Crawl.Passes entry.normalize options.maxFiles cancelAfter
      (Crawl.start (target source entry h)) c ∧
    built = Snapshot.ofRecords c.records

/-- The paths that the crawl of a scan takes up, readable or not, in this order. -/
def takenUp (source : Source) (options : ScanOptions) (entry : FilePath)
    (cancelAfter : Option Nat) : List FilePath :=
  if h : source.has entry.normalize = true then
    ((Crawl.start (target source entry h)).run entry.normalize options.maxFiles
      cancelAfter).1.visited
  else []

/-- What a scan takes up is what its crawl has taken up in the end. -/
theorem takenUp_of_run {h : source.has entry.normalize = true} {c : Crawl source}
    {failure : Option ScanError}
    (hrun : (Crawl.start (target source entry h)).run entry.normalize options.maxFiles cancelAfter =
      (c, failure)) :
    takenUp source options entry cancelAfter = c.visited := by
  rw [takenUp, dif_pos h, hrun]

/-- Whether a snapshot `s` is the snapshot `full` of a scan, cut short by a limit of `n` files. -/
structure CutShort (source : Source) (options : ScanOptions) (entry : FilePath)
    (cancelAfter : Option Nat) (n : Nat) (full s : Snapshot) : Prop where
  /-- The files are the first files of the whole scan. -/
  files : s.files <+: full.files
  /-- They are no more than the limit allows. -/
  length : s.files.length ≤ n
  /-- What is said of the schema is what the whole scan had built after these files. -/
  schema : ∀ built, Passes source options entry cancelAfter built → built.files = s.files →
    s.SameSchema built
  /-- The diagnostics are those that the whole scan had after these files, and one more for the
  first path behind the limit that it takes up, if it takes up so many. -/
  diagnostics : ∃ built, Passes source options entry cancelAfter built ∧ built.files = s.files ∧
    built.diagnostics <+: full.diagnostics ∧
    s.diagnostics = built.diagnostics ++
      ((takenUp source options entry cancelAfter)[n]?).toList.map (limitDiagnostic n)
  /-- No path is taken up twice. -/
  nodup : (takenUp source options entry cancelAfter).Nodup
  /-- The whole scan reports no limit. -/
  unlimited : ∀ d ∈ full.diagnostics, d.kind ≠ .resolution

/-- A scan with a limit succeeds if the scan without one does, and its snapshot is the one of that
scan, cut short. -/
theorem cutShort_of_run_ok (source : Source) (entry : FilePath) (cancelAfter : Option Nat)
    (n : Nat) (full : Snapshot)
    (hok : (run source ⟨none, false⟩ entry cancelAfter).result = .ok full) :
    ∃ s, (run source ⟨some n, false⟩ entry cancelAfter).result = .ok s ∧
      CutShort source ⟨none, false⟩ entry cancelAfter n full s := by
  obtain ⟨h, last, hrun, rfl⟩ := exists_crawl_of_ok hok
  obtain ⟨cut, limited, hpasses, hcut, hlimited, hrecords⟩ :=
    Crawl.run_limited (Crawl.start (target source entry h)) last (Nat.zero_le n) hrun
  have hkept : cut.Kept := hpasses.kept
  have hlast : last.Kept := .of_run hrun
  obtain ⟨hreported, -⟩ : last.Reported entry.normalize ∧ last.stack = [] :=
    Crawl.finished_of_run (Crawl.reported_start _ rfl) (fun _ _ hc hgoes => hc.goes hgoes) hrun
  have hprefix : cut.records <+: last.records := by
    have hrecords := hpasses.prefix_records
    rwa [hrun] at hrecords
  have htaken : takenUp source ⟨none, false⟩ entry cancelAfter = last.visited :=
    takenUp_of_run hrun
  -- the documents of clients are left out on both sides
  have hnone (limit : Option Nat) (assembled : String) :
      documentRecords source ⟨limit, false⟩ entry.normalize assembled = [] := rfl
  have hfiles : (Snapshot.ofRecords limited.records).files =
      (Snapshot.ofRecords cut.records).files := by
    rw [Snapshot.files_ofRecords, Snapshot.files_ofRecords, hrecords, List.filterMap_append,
      files_limitRecords, List.append_nil]
  refine ⟨Snapshot.ofRecords limited.records, ?_, ?_⟩
  · have hscan : (run source ⟨some n, false⟩ entry cancelAfter).result = _ :=
      congrArg Scan.result (run_of_crawled hlimited)
    rw [hscan, hnone, List.append_nil]
  rw [hnone, List.append_nil]
  exact
    { files := by
        rw [hfiles, Snapshot.files_ofRecords, Snapshot.files_ofRecords]
        exact hprefix.filterMap _
      length := by
        rw [hfiles, Snapshot.files_ofRecords, hkept.files, hcut]
        exact Nat.le_trans (List.length_filter_le _ _) (List.length_take_le n _)
      schema := by
        rintro _ ⟨_, c, hc, rfl⟩ hsame
        apply Snapshot.sameSchema_of_filter
        rw [hrecords, List.filter_append, schema_limitRecords, List.append_nil,
          hkept.schema_of_files, hc.kept.schema_of_files, hsame, hfiles]
      diagnostics := by
        refine ⟨_, ⟨h, cut, hpasses, rfl⟩, hfiles.symm, ?_, ?_⟩
        · rw [Snapshot.diagnostics_ofRecords, Snapshot.diagnostics_ofRecords]
          exact hprefix.filterMap _
        · rw [htaken, Snapshot.diagnostics_ofRecords, Snapshot.diagnostics_ofRecords, hrecords,
            List.filterMap_append, diagnostics_limitRecords]
      nodup := htaken ▸ hlast.nodup
      unlimited := by
        rw [Snapshot.diagnostics_ofRecords, hreported.diagnostics]
        intro d hd
        obtain ⟨p, -, hp⟩ := List.mem_flatMap.1 hd
        exact Source.kind_of_mem_diagnosticsAt hp }

/-- A limit of two files cuts the scan of the troubled project short. -/
theorem cutShort_of_run_ok_troubled :
    ∃ full, (run Source.troubled ⟨none, false⟩ ⟨"/p/index.graphql"⟩ none).result = .ok full ∧
      ∃ s, (run Source.troubled ⟨some 2, false⟩ ⟨"/p/index.graphql"⟩ none).result = .ok s ∧
        CutShort Source.troubled ⟨none, false⟩ ⟨"/p/index.graphql"⟩ none 2 full s := by
  obtain ⟨full, hok⟩ :
      ∃ full, (run Source.troubled ⟨none, false⟩ ⟨"/p/index.graphql"⟩ none).result = .ok full :=
    exists_ok rfl Source.has_troubled rfl
  exact ⟨full, hok, cutShort_of_run_ok Source.troubled ⟨"/p/index.graphql"⟩ none 2 full hok⟩

end Scan

end SchemaAtlas
