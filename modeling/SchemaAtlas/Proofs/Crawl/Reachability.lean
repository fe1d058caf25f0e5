import SchemaAtlas.Proofs.Crawl.Bookkeeping

/-!
# Which files a crawl finds

A crawl without a limit finds the files that can be reached from its entry along includes that
exist and can be read, and it finds each of them once. Cycles, repeated includes, missing and
unreadable files, and files with syntax errors change nothing about that.

* `Crawl.Explored`            the invariant: what was found is reachable, and what is reachable in
  one step from a file that was read was found
* `Scan.files_eq_reachable`   the files of a scan
-/

namespace SchemaAtlas

/-- The includes of a text: those that its directives name, or those that can be recovered if it
has syntax errors. -/
def includesOf (text : String) : List String :=
  if (Document.ofText text).isSound then Wiring.includes (Document.ofText text)
  else Wiring.recoveredIncludes text

/-- What a file contributes as includes are those of its text. -/
theorem includes_contribution (path : FilePath) (text : String) :
    (contribution path text).includes = includesOf text := by
  unfold includesOf
  cases h : (Document.ofText text).isSound with
  | true => rw [contribution_of_sound path h]; rfl
  | false =>
    obtain ⟨offset, hcontribution⟩ := contribution_of_fault path h
    rw [hcontribution]
    rfl

/-- The least set of files that holds the entry and, with every file, all of its includes that
exist and can be read. -/
inductive Source.Reachable (source : Source) (entry : FilePath) : FilePath → Prop
  | entry : Reachable source entry entry.normalize
  | include {p : FilePath} {text other included : String} (hp : Reachable source entry p)
      (hread : source.read p = .ok text) (hmem : included ∈ includesOf text)
      (hhas : source.has (resolveInclude p included) = true)
      (hother : source.read (resolveInclude p included) = .ok other) :
      Reachable source entry (resolveInclude p included)

namespace Crawl

variable {source : Source} {entry : FilePath} {maxFiles cancelAfter : Option Nat}

/-- Whether a path was taken up or is on the stack. -/
def Known (c : Crawl source) (p : FilePath) : Prop :=
  p ∈ c.visited ∨ ∃ target ∈ c.stack, target.1 = p

/-- What a crawl has found and what it still has to find. -/
structure Explored (entry : FilePath) (c : Crawl source) : Prop where
  /-- The entry was found. -/
  found : c.Known entry.normalize
  /-- A path that was found is reachable if it can be read. -/
  reachable : ∀ p text, c.Known p → source.read p = .ok text → source.Reachable entry p
  /-- Every include of a file that was read was found if it exists. -/
  closed : ∀ p ∈ c.visited, ∀ text, source.read p = .ok text → ∀ included ∈ includesOf text,
    source.has (resolveInclude p included) = true → c.Known (resolveInclude p included)

/-- Before its first step a crawl has found its entry. -/
theorem explored_start (target : Target source) (h : target.1 = entry.normalize) :
    (start target).Explored entry where
  found := .inr ⟨target, by simp [start], h⟩
  reachable := by
    rintro p text (hp | ⟨other, hother, rfl⟩) -
    · simp [start] at hp
    · obtain rfl : other = target := by simpa [start] using hother
      exact h ▸ .entry
  closed := by simp [start]

/-- What is known stays known when the path on top of the stack is taken up, whatever is put on
the stack in its place. -/
theorem Known.takeUp {c : Crawl source} (c' : Crawl source) {path : Target source}
    {rest : List (Target source)} (more : List (Target source)) (hstack : c.stack = path :: rest)
    (hvisited : c'.visited = c.visited ++ [path.1]) (hstack' : c'.stack = more ++ rest)
    {p : FilePath} (h : c.Known p) : c'.Known p := by
  unfold Known
  rw [hvisited, hstack']
  rcases h with h | ⟨target, htarget, rfl⟩
  · exact .inl (List.mem_append_left _ h)
  · rw [hstack] at htarget
    rcases List.mem_cons.1 htarget with rfl | htarget
    · exact .inl (by simp)
    · exact .inr ⟨target, List.mem_append_right _ htarget, rfl⟩

/-- What is known after the path on top of the stack was taken up was known before, unless it was
put on the stack in its place. -/
theorem Known.of_takeUp {c c' : Crawl source} {path : Target source}
    {rest : List (Target source)} (more : List (Target source)) (hstack : c.stack = path :: rest)
    (hvisited : c'.visited = c.visited ++ [path.1]) (hstack' : c'.stack = more ++ rest)
    {p : FilePath} (h : c'.Known p) : c.Known p ∨ ∃ target ∈ more, target.1 = p := by
  unfold Known at h ⊢
  rw [hvisited, hstack'] at h
  rw [hstack]
  -- what was taken up was on the stack, so it was known before
  rcases h with h | ⟨target, htarget, rfl⟩
  · rcases List.mem_append.1 h with h | h
    · exact .inl (.inl h)
    · exact .inl (.inr ⟨path, by simp, (List.mem_singleton.1 h).symm⟩)
  · rcases List.mem_append.1 htarget with htarget | htarget
    · exact .inr ⟨target, htarget, rfl⟩
    · exact .inl (.inr ⟨target, List.mem_cons_of_mem _ htarget, rfl⟩)

/-- Every step explores further. -/
theorem Explored.goes {c c' : Crawl source} (hc : c.Explored entry)
    (h : Goes entry.normalize maxFiles c c') : c'.Explored entry := by
  cases h with
  | @again path rest hstack hold =>
    -- the path on top of the stack is known anyway
    have hknown : ∀ p, Known { c with stack := rest } p ↔ c.Known p := by
      intro p
      unfold Known
      rw [hstack]
      constructor
      · rintro (hp | ⟨target, htarget, rfl⟩)
        · exact .inl hp
        · exact .inr ⟨target, List.mem_cons_of_mem _ htarget, rfl⟩
      · rintro (hp | ⟨target, htarget, rfl⟩)
        · exact .inl hp
        · rcases List.mem_cons.1 htarget with rfl | htarget
          · exact .inl hold
          · exact .inr ⟨target, htarget, rfl⟩
    exact
      { found := (hknown _).2 hc.found
        reachable := fun p text hp => hc.reachable p text ((hknown p).1 hp)
        closed := fun p hp text hread included hmem hhas =>
          (hknown _).2 (hc.closed p hp text hread included hmem hhas) }
  | @unreadable path rest reason hstack hnew hlimit hread hne =>
    -- the path moves from the stack to those taken up, and nothing is put in its place
    have hknown {p : FilePath} (hp : c.Known p) :=
      hp.takeUp ((({ c with stack := rest } : Crawl source).mark path).report path .io reason) []
        hstack rfl rfl
    refine ⟨hknown hc.found, fun p text hp htext => ?_, fun p hp text htext => ?_⟩
    · rcases hp.of_takeUp [] hstack rfl rfl with hp | ⟨target, htarget, -⟩
      · exact hc.reachable p text hp htext
      · simp at htarget
    · intro included hmem hhas
      rcases List.mem_append.1 hp with hp | hp
      · exact hknown (hc.closed p hp text htext included hmem hhas)
      · rw [List.mem_singleton.1 hp, hread] at htext
        cases htext
  | @read path rest text hstack hnew hlimit hread =>
    rw [addFile_eq, includes_contribution]
    -- the targets among the includes of the file that was read
    let more := ((includesOf text).filterMap (target? source (c.visited ++ [path.1]) path)).reverse
    have hmore {target : Target source} (h : target ∈ more) :
        ∃ included ∈ includesOf text, target.1 = resolveInclude path included := by
      obtain ⟨included, hmem, hsome⟩ := List.mem_filterMap.1 (List.mem_reverse.1 h)
      exact ⟨included, hmem, (target?_eq_some_iff.1 hsome).1⟩
    have hpath : c.Known path.1 := .inr ⟨path, by simp [hstack], rfl⟩
    refine ⟨hc.found.takeUp _ more hstack rfl rfl, fun p other hp hother => ?_,
      fun p hp other hother included hmem hhas => ?_⟩
    · rcases hp.of_takeUp more hstack rfl rfl with hp | ⟨target, htarget, rfl⟩
      · exact hc.reachable p other hp hother
      · obtain ⟨included, hmem, heq⟩ := hmore htarget
        rw [heq]
        exact .include (hc.reachable _ _ hpath hread) hread hmem (heq ▸ target.2.2) (heq ▸ hother)
    · rcases List.mem_append.1 hp with hp | hp
      · exact (hc.closed p hp other hother included hmem hhas).takeUp _ more hstack rfl rfl
      · obtain rfl := List.mem_singleton.1 hp
        obtain rfl := Except.ok.inj (hread.symm.trans hother)
        by_cases hold : resolveInclude path included ∈ c.visited ++ [path.1]
        · exact .inl hold
        · refine .inr ⟨⟨_, FilePath.isNormal_normalize _, hhas⟩, ?_, rfl⟩
          refine List.mem_append_left _ (List.mem_reverse.2 (List.mem_filterMap.2 ?_))
          exact ⟨included, hmem, target?_eq_some_iff.2 ⟨rfl, hold⟩⟩

/-- A crawl that left nothing on the stack has taken up every file that is reachable. -/
theorem Explored.mem_visited {c : Crawl source} (hc : c.Explored entry) (hstack : c.stack = [])
    {p : FilePath} (h : source.Reachable entry p) : p ∈ c.visited := by
  have hvisited {p : FilePath} (hp : c.Known p) : p ∈ c.visited := by
    rcases hp with hp | ⟨target, htarget, -⟩
    · exact hp
    · simp [hstack] at htarget
  -- along the includes that lead to the file
  induction h with
  | entry => exact hvisited hc.found
  | «include» _ hread hmem hhas _ ih => exact hvisited (hc.closed _ ih _ hread _ hmem hhas)

end Crawl

/-- What is reachable can be read, if the entry can. -/
theorem Source.Reachable.exists_text {source : Source} {entry p : FilePath} {text : String}
    (h : source.Reachable entry p) (hread : source.read entry.normalize = .ok text) :
    ∃ text, source.read p = .ok text := by
  cases h with
  | entry => exact ⟨text, hread⟩
  | «include» _ _ _ _ hother => exact ⟨_, hother⟩

/-- A file has a text if and only if it can be read. -/
theorem Source.text?_isSome_iff {source : Source} {p : FilePath} :
    (source.text? p).isSome = true ↔ ∃ text, source.read p = .ok text := by
  unfold Source.text?
  cases source.read p with
  | ok text => simp [Except.toOption]
  | error reason => simp [Except.toOption]

/-- A crawl without a limit that is not called off ends with nothing on its stack if its entry can
be read. -/
theorem Crawl.exists_finished {source : Source} {entry : FilePath} {text : String}
    {maxFiles : Option Nat} (hlimit : maxFiles = none)
    (hhas : source.has entry.normalize = true) (hread : source.read entry.normalize = .ok text) :
    ∃ c, (start (Scan.target source entry hhas)).run entry.normalize maxFiles none = (c, none) ∧
      c.Kept ∧ c.Explored entry ∧ c.stack = [] := by
  subst hlimit
  obtain ⟨last, ⟨hkept, hexplored⟩, hends⟩ :=
    run_induction (P := fun c => c.Kept ∧ c.Explored entry)
      (start (Scan.target source entry hhas)) ⟨kept_start _, explored_start _ rfl⟩
      fun c c' hc hgoes => ⟨hc.1.goes hgoes, hc.2.goes hgoes⟩
  rcases hrun : (start (Scan.target source entry hhas)).run entry.normalize none none with
    ⟨c, failure⟩
  rw [hrun] at hends
  -- no other end is possible: nothing limits or cancels it, and the entry is read
  cases hends with
  | finished hstack => exact ⟨_, rfl, hkept, hexplored, hstack⟩
  | cancelled _ hcancel => cases hcancel
  | limited _ _ hlimit => cases hlimit
  | unreadable _ _ herror heq =>
    rw [heq, hread] at herror
    cases herror

/-- A scan without a limit that is not called off succeeds if its entry can be read. -/
theorem Scan.exists_ok {source : Source} {options : ScanOptions} {entry : FilePath} {text : String}
    (hlimit : options.maxFiles = none) (hhas : source.has entry.normalize = true)
    (hread : source.read entry.normalize = .ok text) :
    ∃ s, (run source options entry none).result = .ok s := by
  obtain ⟨c, hrun, -⟩ := Crawl.exists_finished hlimit hhas hread
  exact ⟨_, by rw [run_of_crawled hrun]⟩

/-- A scan without a limit that is not called off succeeds if its entry exists and can be read. Its
files hold no path twice, and they are the files that can be reached from the entry. -/
theorem Scan.files_eq_reachable (source : Source) (options : ScanOptions) (entry : FilePath)
    (text : String) (hlimit : options.maxFiles = none)
    (hhas : source.has entry.normalize = true) (hread : source.read entry.normalize = .ok text) :
    ∃ s, (Scan.run source options entry none).result = .ok s ∧ s.files.Nodup ∧
      ∀ p, p ∈ s.files ↔ source.Reachable entry p := by
  obtain ⟨c, hrun, hkept, hexplored, hstack⟩ := Crawl.exists_finished hlimit hhas hread
  have hfiles := files_ofRecords_append options entry.normalize hkept
  refine ⟨_, by rw [run_of_crawled hrun], ?_, fun p => ?_⟩
  · rw [hfiles]
    exact hkept.nodup.filter _
  · rw [hfiles, List.mem_filter, Source.text?_isSome_iff]
    constructor
    -- a file was visited and can be read
    · rintro ⟨hvisited, other, hother⟩
      exact hexplored.reachable p other (.inl hvisited) hother
    · intro h
      exact ⟨hexplored.mem_visited hstack h, h.exists_text hread⟩

/-- Files that include one another, themselves, and what is missing or broken. -/
def Source.tangled : Source :=
  { listing :=
      [(⟨"/p/index.graphql"⟩,
          .ok "schema @sdl(files: [\"a.graphql\", \"gone.graphql\", \"./sub/../a.graphql\"])"),
        (⟨"/p/a.graphql"⟩, .ok "type A @sdl(files: [\"a.graphql\", \"b.graphql\", \"c.graphql\"])"),
        (⟨"/p/b.graphql"⟩, .ok "type B @sdl(files: [\"index.graphql\"]) ="),
        (⟨"/p/c.graphql"⟩, .error "unreadable")]
    absent := MemoryFiles.notLoaded }

/-- The files of the tangled project are those that can be reached from its entry. -/
theorem Scan.files_eq_reachable_tangled :
    Source.tangled.has (FilePath.normalize ⟨"/p/./index.graphql"⟩) = true ∧
    ∃ s, (Scan.run Source.tangled .default ⟨"/p/./index.graphql"⟩ none).result = .ok s ∧
      s.files.Nodup ∧ ∀ p, p ∈ s.files ↔ Source.tangled.Reachable ⟨"/p/./index.graphql"⟩ p := by
  have h : Source.tangled.has (FilePath.normalize ⟨"/p/./index.graphql"⟩) = true := by
    decide +kernel
  exact ⟨h, files_eq_reachable Source.tangled .default ⟨"/p/./index.graphql"⟩ _ rfl h rfl⟩

end SchemaAtlas
