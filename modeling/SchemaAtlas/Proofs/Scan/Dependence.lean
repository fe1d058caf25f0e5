import SchemaAtlas.Proofs.ClientDocuments.Accounts
import SchemaAtlas.Proofs.Crawl.Agreement

/-!
# What a scan depends on

The paths that a scan asks for are found by the scan itself: the entry, the paths that the includes
of the files stand for which it takes up, and the documents that these files declare. Nothing else
that the source holds can show in what the scan reports or in the snapshot that it builds.

* `Scan.consulted`                    the paths that a scan asks for
* `ClientDocuments.records_of_agree`  the documents of clients
* `Scan.run_eq_of_agree`              two sources that agree about these paths are scanned alike
-/

namespace SchemaAtlas

/-! ## The documents that clients run -/

namespace ClientDocuments

variable {source other : Source} {root path : FilePath}

/-- Sources that agree about a document yield the same records of it. -/
theorem recordsOf_of_agree (persist : Bool) (h : source.AgreeAt other path) :
    recordsOf other path persist = recordsOf source path persist := by
  simp only [recordsOf, h.has, h.read]

/-- Sources that agree about the documents which a text declares yield the same records of them. -/
theorem records_of_agree {assembled : String}
    (h : ∀ d ∈ Wiring.declarationsOfText assembled, source.AgreeAt other (resolve root d)) :
    records other root assembled = records source root assembled := by
  unfold records
  rw [collect_eq]
  apply List.flatMap_congr
  rintro ⟨p, persist⟩ hmem
  obtain ⟨q, hq, heq⟩ := List.mem_map.1 hmem
  obtain ⟨rfl, -⟩ := Prod.mk.inj heq
  obtain ⟨d, hd, rfl⟩ := mem_paths.1 hq
  exact recordsOf_of_agree persist (h d hd)

end ClientDocuments

/-! ## What is asked for -/

/-- The paths that the includes of a file stand for, if it can be read. -/
def Source.includedBy (source : Source) (p : FilePath) : List FilePath :=
  match source.read p with
  | .ok text => (includesOf text).map (resolveInclude p)
  | .error _ => []

/-- Sources that agree about the paths which the includes of a file stand for agree behind it. -/
theorem Source.agreeBehind_of_includedBy {source other : Source} {p : FilePath}
    (h : ∀ q ∈ source.includedBy p, source.AgreeAt other q) : source.AgreeBehind other p := by
  intro text hread included hmem
  apply h
  rw [includedBy, hread]
  exact List.mem_map_of_mem hmem

namespace Scan

variable {source other : Source} {options : ScanOptions} {entry : FilePath}
  {cancelAfter : Option Nat}

/-- The documents that a scan looks for once its crawl has put together a text. -/
def documentPaths (options : ScanOptions) (entry : FilePath) (assembled : String) :
    List FilePath :=
  if options.followExecutables then
    (Wiring.declarationsOfText assembled).map (ClientDocuments.resolve entry.directory)
  else []

/-- Sources that agree about the documents that a scan looks for yield the same records of them. -/
theorem documentRecords_of_agree {assembled : String}
    (h : ∀ p ∈ documentPaths options entry assembled, source.AgreeAt other p) :
    documentRecords other options entry assembled =
      documentRecords source options entry assembled := by
  unfold documentPaths at h
  unfold documentRecords
  split
  · next hfollow =>
    rw [if_pos hfollow] at h
    exact ClientDocuments.records_of_agree fun d hd => h _ (List.mem_map_of_mem hd)
  · rfl

/-- The paths that a scan asks for: its entry, the paths that the includes of the files stand for
which its crawl takes up, and, if the crawl does not fail, the documents that these files
declare. -/
def consulted (source : Source) (options : ScanOptions) (entry : FilePath)
    (cancelAfter : Option Nat) : List FilePath :=
  if h : source.has entry.normalize = true then
    let (c, failure) := (Crawl.start (target source entry h)).run entry.normalize options.maxFiles
      cancelAfter
    entry.normalize :: c.visited.flatMap source.includedBy ++
      if failure.isSome then [] else documentPaths options entry.normalize c.assembled
  else [entry.normalize]

/-- A scan asks for its entry. -/
theorem entry_mem_consulted (source : Source) (options : ScanOptions) (entry : FilePath)
    (cancelAfter : Option Nat) :
    entry.normalize ∈ consulted source options entry cancelAfter := by
  unfold consulted
  split <;> simp

/-- What a scan asks for, once its crawl is known. -/
theorem consulted_of_run {h : source.has entry.normalize = true} {c : Crawl source}
    {failure : Option ScanError}
    (hrun : (Crawl.start (target source entry h)).run entry.normalize options.maxFiles cancelAfter =
      (c, failure)) :
    consulted source options entry cancelAfter =
      entry.normalize :: c.visited.flatMap source.includedBy ++
        if failure.isSome then [] else documentPaths options entry.normalize c.assembled := by
  rw [consulted, dif_pos h, hrun]

/-- Two sources that agree about the paths that a scan of the first one asks for are scanned alike:
the scans make the same reports, and end with the same snapshot or fail for the same reason. -/
theorem run_eq_of_agree (source other : Source) (options : ScanOptions) (entry : FilePath)
    (cancelAfter : Option Nat)
    (hagree : ∀ p ∈ consulted source options entry cancelAfter, source.AgreeAt other p) :
    run other options entry cancelAfter = run source options entry cancelAfter := by
  have hentry : source.AgreeAt other entry.normalize :=
    hagree _ (entry_mem_consulted source options entry cancelAfter)
  by_cases h : source.has entry.normalize = true
  · have h' : other.has entry.normalize = true := hentry.has.trans h
    rcases hrun : (Crawl.start (target source entry h)).run entry.normalize options.maxFiles
      cancelAfter with ⟨c, failure⟩
    rw [consulted_of_run hrun] at hagree
    -- the crawls agree, because the sources agree about the includes of what is taken up
    have hbehind : ∀ p ∈ c.visited, source.AgreeBehind other p := by
      intro p hp
      apply Source.agreeBehind_of_includedBy
      intro q hq
      exact hagree q (by simp [List.mem_flatMap.2 ⟨p, hp, hq⟩])
    have hstack : ∀ start ∈ (Crawl.start (target source entry h)).stack,
        source.AgreeAt other start.1 := by
      intro start hstart
      obtain rfl := List.mem_singleton.1 hstart
      exact hentry
    rcases hother : (Crawl.start (target other entry h')).run entry.normalize options.maxFiles
      cancelAfter with ⟨d, failure'⟩
    obtain ⟨hsame, hfailure⟩ := Crawl.run_same (Crawl.start (target source entry h))
      (Crawl.start (target other entry h')) (Crawl.same_start _ _ rfl) hstack
      (by rw [hrun]; exact hbehind)
    rw [hrun, hother] at hsame hfailure
    obtain rfl : failure' = failure := hfailure
    cases failure' with
    | some failure => rw [run_of_failed hrun, run_of_failed hother, hsame.ticks]
    | none =>
      have hdocuments : documentRecords other options entry.normalize c.assembled =
          documentRecords source options entry.normalize c.assembled :=
        documentRecords_of_agree fun p hp => hagree p (by simp [hp])
      rw [run_of_crawled hrun, run_of_crawled hother, hsame.ticks, hsame.reported, hsame.records,
        hsame.assembled, hdocuments]
  · have h : source.has entry.normalize = false := by simpa using h
    have h' : other.has entry.normalize = false := hentry.has.trans h
    rw [run_of_missing h, run_of_missing h']

end Scan

/-- A project with an include and a document that are missing, beside a file that nothing names. -/
def Source.sparse : Source :=
  { listing :=
      [(⟨"/p/index.graphql"⟩, .ok
          "schema @sdl(files: [\"a.graphql\", \"gone.graphql\"],
            executables: [\x7b document: \"q.graphql\" \x7d])"),
        (⟨"/p/a.graphql"⟩, .ok "type A @sdl(executables: [\x7b document: \"gone\" \x7d])"),
        (⟨"/p/q.graphql"⟩, .ok "query Q \x7b x \x7d"),
        (⟨"/p/b.graphql"⟩, .ok "type B")]
    absent := MemoryFiles.notLoaded }

/-- The same project among other files, one of them in place of the file that nothing names. -/
def Source.crowded : Source :=
  { listing :=
      [(⟨"/etc/passwd"⟩, .ok "root"),
        (⟨"/p/q.graphql"⟩, .ok "query Q \x7b x \x7d"),
        (⟨"/p/b.graphql"⟩, .error "unreadable"),
        (⟨"/p/a.graphql"⟩, .ok "type A @sdl(executables: [\x7b document: \"gone\" \x7d])"),
        (⟨"/p/sub/index.graphql"⟩, .ok "schema @sdl(files: [\"../a.graphql\"])"),
        (⟨"/p/index.graphql"⟩, .ok
          "schema @sdl(files: [\"a.graphql\", \"gone.graphql\"],
            executables: [\x7b document: \"q.graphql\" \x7d])")]
    absent := MemoryFiles.notLoaded }

/-- The entry of the project is there. -/
theorem Source.has_sparse :
    Source.sparse.has (FilePath.normalize ⟨"/p/index.graphql"⟩) = true := by
  decide +kernel

/-- Among other files the project is scanned as it is on its own. -/
theorem Scan.run_eq_of_agree_crowded :
    (∀ p ∈ consulted Source.sparse .default ⟨"/p/index.graphql"⟩ none,
        Source.sparse.AgreeAt Source.crowded p) ∧
      run Source.crowded .default ⟨"/p/index.graphql"⟩ none =
        run Source.sparse .default ⟨"/p/index.graphql"⟩ none := by
  let entry : FilePath := ⟨"/p/index.graphql"⟩
  -- two files are taken up, and then nothing is left on the stack
  obtain ⟨c, hrun, hagree⟩ : ∃ c, (Crawl.start (target Source.sparse entry Source.has_sparse)).run
        entry.normalize none none = (c, none) ∧
      ∀ p ∈ entry.normalize :: c.visited.flatMap Source.sparse.includedBy ++
        documentPaths .default entry.normalize c.assembled,
          Source.sparse.AgreeAt Source.crowded p :=
    Crawl.exists_run_of_within 3 _ (by decide +kernel)
  have hconsulted : ∀ p ∈ consulted Source.sparse .default entry none,
      Source.sparse.AgreeAt Source.crowded p := by
    rw [consulted_of_run hrun]
    exact hagree
  exact ⟨hconsulted, run_eq_of_agree _ _ _ _ none hconsulted⟩

end SchemaAtlas
