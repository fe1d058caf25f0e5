import Mathlib.Data.List.Perm.Basic
import SchemaAtlas.Proofs.Scan.Dependence

/-!
# What a crawl reports

Every file that is taken up reports on its own: its syntax errors, or why it cannot be read, or
which of its includes lead nowhere. In the order in which the files are taken up these reports are
all the diagnostics of a crawl, whatever cycles and repetitions there are among the includes.

* `Source.diagnosticsAt`          what one file reports
* `Crawl.Reported`                the invariant: the diagnostics are those of the files taken up
* `Scan.diagnostics_of_run_ok`    the diagnostics of a scan, counted by their kinds
-/

namespace SchemaAtlas

/-- How an include is reported that leads to no file. -/
def missingDiagnostic (file target : FilePath) : Diagnostic :=
  { path := target
    kind := .notFound
    message := "included from " ++ file.text ++ " but does not exist" }

namespace Source

/-- What is reported of the syntax of a file. -/
def syntaxDiagnostics (source : Source) (p : FilePath) : List Diagnostic :=
  match source.read p with
  | .ok text => (Document.ofText text).fault.toList.map fun offset =>
      { path := p, kind := .parse, message := syntaxErrorMessage text offset }
  | .error _ => []

/-- What is reported of a file that cannot be read. -/
def readingDiagnostics (source : Source) (p : FilePath) : List Diagnostic :=
  match source.read p with
  | .ok _ => []
  | .error reason => [{ path := p, kind := .io, message := reason }]

/-- What is reported of the includes of a file: those that lead nowhere, as often as they are
written. -/
def missingDiagnostics (source : Source) (p : FilePath) : List Diagnostic :=
  ((source.includedBy p).filter fun q => !source.has q).map (missingDiagnostic p)

/-- All that is reported of a file. -/
def diagnosticsAt (source : Source) (p : FilePath) : List Diagnostic :=
  source.syntaxDiagnostics p ++ source.readingDiagnostics p ++ source.missingDiagnostics p

/-- The paths that includes of some files stand for and that exist but cannot be read, each once. -/
def unreadableIncludes (source : Source) (files : List FilePath) : List FilePath :=
  ((files.flatMap source.includedBy).filter fun q =>
    source.has q && (source.text? q).isNone).eraseDups

variable {source : Source} {p q : FilePath} {text reason : String}

/-- The includes of a file that can be read are those of its text. -/
theorem includedBy_of_read (h : source.read p = .ok text) :
    source.includedBy p = (includesOf text).map (resolveInclude p) := by
  rw [includedBy, h]

/-- A file with includes can be read. -/
theorem isSome_text?_of_mem_includedBy (h : q ∈ source.includedBy p) :
    (source.text? p).isSome = true := by
  cases hread : source.read p with
  | ok text => rw [text?_of_read hread, Option.isSome_some]
  | error reason => simp [includedBy, hread] at h

/-- A file that cannot be read reports no syntax errors. -/
theorem syntaxDiagnostics_of_error (h : source.read p = .error reason) :
    source.syntaxDiagnostics p = [] := by
  rw [syntaxDiagnostics, h]

/-- A file that can be read reports no failure to read it. -/
theorem readingDiagnostics_of_read (h : source.read p = .ok text) :
    source.readingDiagnostics p = [] := by
  rw [readingDiagnostics, h]

/-- A file that cannot be read reports nothing missing. -/
theorem missingDiagnostics_of_error (h : source.read p = .error reason) :
    source.missingDiagnostics p = [] := by
  simp [missingDiagnostics, includedBy, h]

/-- A file that can be read reports its syntax errors and its includes. -/
theorem diagnosticsAt_of_read (h : source.read p = .ok text) :
    source.diagnosticsAt p = source.syntaxDiagnostics p ++ source.missingDiagnostics p := by
  rw [diagnosticsAt, readingDiagnostics_of_read h, List.append_nil]

/-- A file that cannot be read reports that, and nothing else. -/
theorem diagnosticsAt_of_error (h : source.read p = .error reason) :
    source.diagnosticsAt p = [{ path := p, kind := .io, message := reason }] := by
  rw [diagnosticsAt, syntaxDiagnostics_of_error h, missingDiagnostics_of_error h,
    readingDiagnostics, h]
  rfl

/-- What a file that was read contributes to the diagnostics is its syntax errors. -/
theorem diagnostics_contribution (h : source.read p = .ok text) :
    (contribution p text).records.filterMap Record.diagnostic? = source.syntaxDiagnostics p := by
  cases hfault : (Document.ofText text).fault with
  | none =>
    have hsyntax : source.syntaxDiagnostics p = [] := by simp [syntaxDiagnostics, h, hfault]
    rw [contribution_of_sound p (by simp [Document.isSound, hfault]), hsyntax]
    -- a sound file adds schema records, and none of them is a diagnostic
    refine List.filterMap_eq_nil_iff.2 fun r hr => ?_
    have := isSchema_of_mem_records hr
    cases r <;> simp_all [Record.isSchema, Record.diagnostic?]
  | some offset =>
    simp [contribution, Projection.SchemaFile.read, syntaxDiagnostics, h, hfault,
      Record.diagnostic?]

end Source

namespace Crawl

variable {source : Source} {entry : FilePath} {maxFiles cancelAfter : Option Nat}

/-! ## What a file reports while it is taken up -/

/-- Where all paths that were taken up exist, an include is reported just if it leads nowhere. -/
theorem missing_eq_of_has {visited : List FilePath} (hvisited : ∀ p ∈ visited, source.has p = true)
    (file : FilePath) (included : String) :
    missing source visited file included =
      if source.has (resolveInclude file included) then []
      else [.diagnostic (missingDiagnostic file (resolveInclude file included))] := by
  unfold missing
  cases hhas : source.has (resolveInclude file included) with
  | true => simp
  | false =>
    have hnew : resolveInclude file included ∉ visited := fun hmem => by
      simp [hvisited _ hmem] at hhas
    simp [hnew, missingDiagnostic]

/-- The includes of a file report what the file is said to miss. -/
theorem diagnostics_missing {visited : List FilePath}
    (hvisited : ∀ p ∈ visited, source.has p = true) {path : FilePath} {text : String}
    (hread : source.read path = .ok text) :
    ((includesOf text).flatMap (missing source visited path)).filterMap Record.diagnostic? =
      source.missingDiagnostics path := by
  rw [Source.missingDiagnostics, Source.includedBy_of_read hread]
  -- include by include, each of which reports one path at most
  induction includesOf text with
  | nil => rfl
  | cons included includes ih =>
    rw [List.flatMap_cons, List.filterMap_append, ih, missing_eq_of_has hvisited]
    cases hhas : source.has (resolveInclude path included) <;> simp [hhas, Record.diagnostic?]

/-! ## The diagnostics of a whole crawl -/

/-- What a crawl has reported, and where the paths come from that it reports on. -/
structure Reported (entry : FilePath) (c : Crawl source) : Prop where
  /-- The diagnostics are those of the paths that were taken up, in their order. -/
  diagnostics : c.records.filterMap Record.diagnostic? = c.visited.flatMap source.diagnosticsAt
  /-- Paths that were taken up exist. -/
  has : ∀ p ∈ c.visited, source.has p = true
  /-- Paths on the stack, but for the entry, are includes of files that were taken up. -/
  stack : ∀ target ∈ c.stack, target.1 = entry ∨ ∃ q ∈ c.visited, target.1 ∈ source.includedBy q
  /-- So are the paths that were taken up and cannot be read. -/
  unreadable : ∀ p ∈ c.visited, source.text? p = none →
    ∃ q ∈ c.visited, p ∈ source.includedBy q

/-- Before its first step a crawl has reported nothing. -/
theorem reported_start (target : Target source) (h : target.1 = entry) :
    (start target).Reported entry where
  diagnostics := rfl
  has := by simp [start]
  stack := by simp [start, h]
  unreadable := by simp [start]

/-- Taking up the path on top of the stack keeps where the paths come from. -/
theorem Reported.stack_goes {c c' : Crawl source} (hc : c.Reported entry)
    (h : Goes entry maxFiles c c') :
    ∀ target ∈ c'.stack, target.1 = entry ∨ ∃ q ∈ c'.visited, target.1 ∈ source.includedBy q := by
  intro target htarget
  rcases h.of_mem_stack htarget with hmem | ⟨path, hpath, text, hread, included, hmem, heq⟩
  · refine (hc.stack target hmem).imp_right ?_
    rintro ⟨q, hq, hincluded⟩
    exact ⟨q, h.growsTo.visited.subset hq, hincluded⟩
  · refine .inr ⟨path.1, h.head_visited path hpath, ?_⟩
    rw [Source.includedBy_of_read hread, heq]
    exact List.mem_map_of_mem hmem

/-- Every step reports what the file says of itself that it takes up. -/
theorem Reported.goes {c c' : Crawl source} (hc : c.Reported entry)
    (h : Goes entry maxFiles c c') : c'.Reported entry := by
  have hstack := hc.stack_goes h
  -- where an unreadable path came from is known longer than the step
  have hfrom {q : FilePath} {visited : List FilePath}
      (h : ∃ r ∈ c.visited, q ∈ source.includedBy r) :
      ∃ r ∈ c.visited ++ visited, q ∈ source.includedBy r := by
    obtain ⟨r, hr, hq⟩ := h
    exact ⟨r, List.mem_append_left _ hr, hq⟩
  have hhas (path : Target source) : ∀ p ∈ c.visited ++ [path.1], source.has p = true := by
    intro p hp
    rcases List.mem_append.1 hp with hp | hp
    · exact hc.has p hp
    · rw [List.mem_singleton.1 hp]
      exact path.2.2
  -- a path that was taken up before reports nothing again
  cases h with
  | again hold hmem => exact ⟨hc.diagnostics, hc.has, hstack, hc.unreadable⟩
  | @unreadable path rest reason htop hnew hlimit hread hne =>
    refine ⟨?_, hhas path, hstack, fun p hp hnone => ?_⟩
    · simp [mark, report, hc.diagnostics, Source.diagnosticsAt_of_error hread, Record.diagnostic?]
    · rcases List.mem_append.1 hp with hp | hp
      · exact hfrom (hc.unreadable p hp hnone)
      · rw [List.mem_singleton.1 hp]
        exact hfrom ((hc.stack path (by simp [htop])).resolve_left hne)
  | @read path rest text htop hnew hlimit hread =>
    rw [addFile_eq, includes_contribution] at hstack ⊢
    refine ⟨?_, hhas path, hstack, fun p hp hnone => ?_⟩
    · have hmissing := diagnostics_missing (hhas path) hread
      simp only [mark, List.filterMap_append, List.filterMap_cons, Record.diagnostic?,
        Source.diagnostics_contribution hread, hmissing, hc.diagnostics, List.flatMap_append,
        List.flatMap_singleton, Source.diagnosticsAt_of_read hread]
    · rcases List.mem_append.1 hp with hp | hp
      · exact hfrom (hc.unreadable p hp hnone)
      · rw [List.mem_singleton.1 hp, Source.text?_of_read hread] at hnone
        cases hnone

end Crawl

/-! ## Counted by their kinds -/

/-- The reports of paths that are taken up, kind by kind. -/
theorem Source.perm_diagnosticsAt (source : Source) (visited : List FilePath) :
    (visited.flatMap source.diagnosticsAt).Perm
      (visited.flatMap source.syntaxDiagnostics ++ visited.flatMap source.readingDiagnostics ++
        visited.flatMap source.missingDiagnostics) := by
  unfold diagnosticsAt
  refine (List.flatMap_append_perm visited _ _).symm.trans ?_
  exact (List.flatMap_append_perm visited _ _).symm.append_right _

/-- Of the paths that are taken up, those that cannot be read may be left out where they report
nothing. -/
private theorem flatMap_readable {source : Source} {f : FilePath → List Diagnostic}
    (h : ∀ p reason, source.read p = .error reason → f p = []) (paths : List FilePath) :
    (paths.filter fun p => (source.text? p).isSome).flatMap f = paths.flatMap f := by
  induction paths with
  | nil => rfl
  | cons p paths ih =>
    cases hread : source.read p with
    | ok text => simp [Source.text?_of_read hread, ih]
    | error reason => simp [Source.text?_of_error hread, h p reason hread, ih]

/-- Those of them that can be read may be left out where these report nothing. -/
private theorem flatMap_unreadable {source : Source} {f : FilePath → List Diagnostic}
    (h : ∀ p text, source.read p = .ok text → f p = []) (paths : List FilePath) :
    (paths.filter fun p => (source.text? p).isNone).flatMap f = paths.flatMap f := by
  induction paths with
  | nil => rfl
  | cons p paths ih =>
    cases hread : source.read p with
    | ok text => simp [Source.text?_of_read hread, h p text hread, ih]
    | error reason => simp [Source.text?_of_error hread, ih]

/-- The paths that a finished crawl took up and could not read are the unreadable includes of its
files. -/
theorem Crawl.perm_unreadable {source : Source} {entry : FilePath} {c : Crawl source}
    (hkept : c.Kept) (hexplored : c.Explored entry) (hreported : c.Reported entry.normalize)
    (hstack : c.stack = []) :
    (c.visited.filter fun p => (source.text? p).isNone).Perm
      (source.unreadableIncludes (c.visited.filter fun p => (source.text? p).isSome)) := by
  refine (List.perm_ext_iff_of_nodup (hkept.nodup.filter _)
    (List.nodup_eraseDups _)).2 fun p => ?_
  simp only [List.mem_eraseDups, List.mem_filter, List.mem_flatMap, Option.isNone_iff_eq_none,
    Bool.and_eq_true]
  constructor
  · rintro ⟨hp, hnone⟩
    obtain ⟨q, hq, hincluded⟩ := hreported.unreadable p hp hnone
    exact ⟨⟨q, ⟨hq, Source.isSome_text?_of_mem_includedBy hincluded⟩, hincluded⟩,
      hreported.has p hp, hnone⟩
  · rintro ⟨⟨q, ⟨hq, hsome⟩, hincluded⟩, hhas, hnone⟩
    obtain ⟨text, hread⟩ := Source.text?_isSome_iff.1 hsome
    rw [Source.includedBy_of_read hread] at hincluded
    obtain ⟨included, hmem, rfl⟩ := List.mem_map.1 hincluded
    -- nothing is left on the stack, so what was found was taken up
    rcases hexplored.closed q hq text hread included hmem hhas with hp | ⟨target, htarget, -⟩
    · exact ⟨hp, hnone⟩
    · simp [hstack] at htarget

/-- The diagnostics of a scan without a limit that succeeds, the documents of clients aside: one for
every file with syntax errors, one for every include of a file that exists and cannot be read,
however often it is included, and one for every time that a file includes what does not exist. -/
theorem Scan.diagnostics_of_run_ok (source : Source) (options : ScanOptions) (entry : FilePath)
    (cancelAfter : Option Nat) (s : Snapshot) (hlimit : options.maxFiles = none)
    (hfollow : options.followExecutables = false)
    (hok : (run source options entry cancelAfter).result = .ok s) :
    s.diagnostics.Perm
      (s.files.flatMap source.syntaxDiagnostics ++
        (source.unreadableIncludes s.files).flatMap source.readingDiagnostics ++
        s.files.flatMap source.missingDiagnostics) := by
  obtain ⟨h, c, hrun, rfl⟩ := exists_crawl_of_ok hok
  rw [hlimit] at hrun
  obtain ⟨⟨hkept, hexplored, hreported⟩, hstack⟩ :=
    Crawl.finished_of_run (P := fun c => c.Kept ∧ c.Explored entry ∧ c.Reported entry.normalize)
      ⟨Crawl.kept_start _, Crawl.explored_start _ rfl, Crawl.reported_start _ rfl⟩
      (fun c c' hc hgoes => ⟨hc.1.goes hgoes, hc.2.1.goes hgoes, hc.2.2.goes hgoes⟩) hrun
  -- the diagnostics are those of all visited paths, one path after another
  have hdiagnostics : (Snapshot.ofRecords (c.records ++
      documentRecords source options entry.normalize c.assembled)).diagnostics =
        c.visited.flatMap source.diagnosticsAt := by
    rw [Snapshot.diagnostics_ofRecords, ← hreported.diagnostics]
    simp [documentRecords, hfollow]
  rw [hdiagnostics, files_ofRecords_append options entry.normalize hkept,
    flatMap_readable (fun _ _ => Source.syntaxDiagnostics_of_error),
    flatMap_readable (fun _ _ => Source.missingDiagnostics_of_error)]
  -- by kind; what cannot be read is what the files include without it being readable
  refine (source.perm_diagnosticsAt c.visited).trans (.append_right _ (.append_left _ ?_))
  rw [← flatMap_unreadable (fun _ _ => Source.readingDiagnostics_of_read)]
  exact (Crawl.perm_unreadable hkept hexplored hreported hstack).flatMap_right _

/-- Files that include what is missing more than once, under two spellings and from two files, and
what cannot be read from a broken file. -/
def Source.troubled : Source :=
  { listing :=
      [(⟨"/p/index.graphql"⟩, .ok "schema @sdl(files:
          [\"a.graphql\", \"gone.graphql\", \"b.graphql\", \"./gone.graphql\"])"),
        (⟨"/p/a.graphql"⟩, .ok
          "type A @sdl(files: [\"index.graphql\", \"gone.graphql\", \"c.graphql\"])"),
        (⟨"/p/b.graphql"⟩, .ok "type B @sdl(files: [\"c.graphql\", \"sub/../c.graphql\"]) ="),
        (⟨"/p/c.graphql"⟩, .error "unreadable")]
    absent := MemoryFiles.notLoaded }

/-- The entry of these files is there. -/
theorem Source.has_troubled :
    Source.troubled.has (FilePath.normalize ⟨"/p/index.graphql"⟩) = true := by
  decide +kernel

/-- These files have five diagnostics, one of them for a syntax error and one for a file that cannot
be read. -/
theorem Scan.diagnostics_of_run_ok_troubled :
    ∃ s, (run Source.troubled ⟨none, false⟩ ⟨"/p/index.graphql"⟩ none).result = .ok s ∧
      s.diagnostics.Perm
        (s.files.flatMap Source.troubled.syntaxDiagnostics ++
          (Source.troubled.unreadableIncludes s.files).flatMap
            Source.troubled.readingDiagnostics ++
          s.files.flatMap Source.troubled.missingDiagnostics) ∧
      s.diagnostics.length = 5 ∧
      (⟨⟨"/p/b.graphql"⟩, .parse, "syntax error at 1:55"⟩ : Diagnostic) ∈ s.diagnostics ∧
      (⟨⟨"/p/c.graphql"⟩, .io, "unreadable"⟩ : Diagnostic) ∈ s.diagnostics := by
  obtain ⟨s, hok, hs⟩ :
      ∃ s, (run Source.troubled ⟨none, false⟩ ⟨"/p/index.graphql"⟩ none).result = .ok s ∧
        s.diagnostics.length = 5 ∧
        (⟨⟨"/p/b.graphql"⟩, .parse, "syntax error at 1:55"⟩ : Diagnostic) ∈ s.diagnostics ∧
        (⟨⟨"/p/c.graphql"⟩, .io, "unreadable"⟩ : Diagnostic) ∈ s.diagnostics :=
    exists_ok_of_within 8 _ (by decide +kernel)
  exact ⟨s, hok, diagnostics_of_run_ok _ _ _ none s rfl rfl hok, hs⟩

end SchemaAtlas
