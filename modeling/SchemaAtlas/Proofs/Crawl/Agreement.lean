import Mathlib.Data.List.Basic
import SchemaAtlas.Proofs.Crawl.Reachability

/-!
# Two crawls of different files

A crawl learns of the files only what it asks its source: whether a path exists, and what is in
it. So the crawls of two sources go side by side for as long as the sources give the same answers
about the paths that the first crawl asks for.

* `Crawl.Same`          what two crawls have in common: all but the source they ask
* `Crawl.Step.same`     one step, if the sources agree about the path that it takes up and about
  the includes of that path
* `Crawl.run_same`      a whole crawl
-/

namespace SchemaAtlas

/-- Two sources that give the same answers about a path. -/
structure Source.AgreeAt (source other : Source) (p : FilePath) : Prop where
  has : other.has p = source.has p
  read : other.read p = source.read p

instance {source other : Source} {p : FilePath} : Decidable (source.AgreeAt other p) :=
  decidable_of_iff (other.has p = source.has p ∧ other.read p = source.read p)
    ⟨fun h => ⟨h.1, h.2⟩, fun h => ⟨h.has, h.read⟩⟩

/-- Two sources that agree about the paths that the includes of a file stand for. -/
def Source.AgreeBehind (source other : Source) (p : FilePath) : Prop :=
  ∀ text, source.read p = .ok text → ∀ included ∈ includesOf text,
    source.AgreeAt other (resolveInclude p included)

namespace Crawl

variable {source other : Source} {entry : FilePath} {maxFiles cancelAfter : Option Nat}

/-- Two crawls in the same state, each over a source of its own. -/
structure Same (c : Crawl source) (d : Crawl other) : Prop where
  stack : d.stack.map Subtype.val = c.stack.map Subtype.val
  visited : d.visited = c.visited
  records : d.records = c.records
  assembled : d.assembled = c.assembled
  ticks : d.ticks = c.ticks
  reported : d.reported = c.reported

/-- Two steps that lead to the same state and end for the same reason, if they end. -/
inductive Step.Same : Step source → Step other → Prop
  | going {c : Crawl source} {d : Crawl other} (h : c.Same d) : Same (.going c) (.going d)
  | ended {c : Crawl source} {d : Crawl other} (h : c.Same d) (failure : Option ScanError) :
      Same (.ended c failure) (.ended d failure)

/-- Steps that are chosen by the same condition are the same if they are in either case. -/
theorem Step.Same.ite {p : Prop} [Decidable p] {a b : Step source} {a' b' : Step other}
    (hthen : p → a.Same a') (helse : ¬p → b.Same b') :
    (if p then a else b).Same (if p then a' else b') := by
  split
  · next h => exact hthen h
  · next h => exact helse h

/-- Two crawls start in the same state if they start at the same path. -/
theorem same_start (target : Target source) (target' : Target other) (h : target'.1 = target.1) :
    (start target).Same (start target') where
  stack := by simp [start, h]
  visited := rfl
  records := by simp [start, h]
  assembled := rfl
  ticks := rfl
  reported := rfl

/-- A report keeps two crawls in the same state. -/
theorem Same.report {c : Crawl source} {d : Crawl other} (h : c.Same d) (path : FilePath)
    (kind : DiagnosticKind) (message : String) :
    (c.report path kind message).Same (d.report path kind message) :=
  { h with records := by simp [Crawl.report, h.records] }

/-- Taking up the same path keeps two crawls in the same state. -/
theorem Same.mark {c : Crawl source} {d : Crawl other} (h : c.Same d) (path : FilePath) :
    (c.mark path).Same (d.mark path) where
  stack := h.stack
  visited := by simp [Crawl.mark, h.visited]
  records := h.records
  assembled := h.assembled
  ticks := by simp [Crawl.mark, h.ticks, h.reported]
  reported := by simp [Crawl.mark, h.reported]

/-! ## Following the same includes -/

/-- Sources that agree about where an include leads put the same path on the stack. -/
theorem target?_map_val {file : FilePath} {included : String} (visited : List FilePath)
    (h : source.AgreeAt other (resolveInclude file included)) :
    (target? other visited file included).map Subtype.val =
      (target? source visited file included).map Subtype.val := by
  unfold target?
  by_cases hold : resolveInclude file included ∈ visited
  · simp [hold]
  · by_cases hhas : source.has (resolveInclude file included) = true
    · simp [hold, hhas, h.has]
    · simp [hold, hhas, h.has]

/-- Sources that agree about where an include leads report the same as missing. -/
theorem missing_eq {file : FilePath} {included : String} (visited : List FilePath)
    (h : source.AgreeAt other (resolveInclude file included)) :
    missing other visited file included = missing source visited file included := by
  simp only [missing, h.has]

/-- Two crawls that add the same file are in the same state afterwards, if the sources agree about
its includes. -/
theorem Same.addFile {c : Crawl source} {d : Crawl other} (h : c.Same d) {path : FilePath}
    {text : String}
    (hagree : ∀ included ∈ includesOf text, source.AgreeAt other (resolveInclude path included)) :
    (c.addFile path text).Same (d.addFile path text) := by
  -- the same includes are followed, and the same ones are reported as missing
  have htargets : ((includesOf text).filterMap (target? other c.visited path)).map Subtype.val =
      ((includesOf text).filterMap (target? source c.visited path)).map Subtype.val := by
    rw [List.map_filterMap, List.map_filterMap]
    apply List.filterMap_congr
    intro included hmem
    exact target?_map_val c.visited (hagree included hmem)
  have hmissing : (includesOf text).flatMap (missing other c.visited path) =
      (includesOf text).flatMap (missing source c.visited path) := by
    apply List.flatMap_congr
    intro included hmem
    exact missing_eq c.visited (hagree included hmem)
  simp only [addFile_eq, includes_contribution]
  exact
    { stack := by
        simp only [List.map_append, List.map_reverse, h.visited, h.stack, htargets]
      visited := h.visited
      records := by simp only [h.records, h.visited, hmissing]
      assembled := by simp only [h.assembled]
      ticks := h.ticks
      reported := h.reported }

/-! ## Side by side -/

/-- Two crawls that take up the same path do the same, if the sources agree about it and, when it is
read, about its includes. -/
theorem Same.takeUp {c : Crawl source} {d : Crawl other} (h : c.Same d) {path : FilePath}
    (hpath : source.AgreeAt other path)
    (hbehind : ∀ c', c.takeUp entry path = .going c' → source.AgreeBehind other path) :
    (c.takeUp entry path).Same (d.takeUp entry path) := by
  have hmark := h.mark path
  -- both crawls read the same, so they go the same way
  cases hread : source.read path with
  | ok text =>
    have hagree : source.AgreeBehind other path :=
      hbehind ((c.mark path).addFile path text) (by simp only [Crawl.takeUp, hread])
    simp only [Crawl.takeUp, hpath.read, hread]
    exact .going (hmark.addFile (hagree text hread))
  | error reason =>
    simp only [Crawl.takeUp, hpath.read, hread]
    apply Step.Same.ite
    · intro _
      exact .ended hmark _
    · intro _
      exact .going (hmark.report path .io reason)

/-- Two crawls in the same state take the same step, if the sources agree about the path on top of
the stack, and about its includes when the crawl goes on. -/
theorem Step.same {c : Crawl source} {d : Crawl other} (h : c.Same d)
    (hpath : ∀ path ∈ c.stack.head?, source.AgreeAt other path.1)
    (hbehind : ∀ path ∈ c.stack.head?, ∀ c', c.step entry maxFiles cancelAfter = .going c' →
      source.AgreeBehind other path.1) :
    (c.step entry maxFiles cancelAfter).Same (d.step entry maxFiles cancelAfter) := by
  obtain ⟨stack, visited, records, assembled, ticks, reported⟩ := c
  obtain ⟨stack', visited', records', assembled', ticks', reported'⟩ := d
  have hsame := h
  obtain ⟨hstack, rfl, rfl, rfl, rfl, rfl⟩ := h
  -- the states are now one but for the targets on the stacks
  cases stack with
  | nil =>
    obtain rfl : stack' = [] := List.map_eq_nil_iff.1 hstack
    exact .ended hsame none
  | cons path rest =>
    obtain ⟨path', rest', rfl, hval, hrest⟩ := List.map_eq_cons_iff.1 hstack
    have hpopped :
        (⟨rest, visited', records', assembled', ticks', reported'⟩ : Crawl source).Same
          (⟨rest', visited', records', assembled', ticks', reported'⟩ : Crawl other) :=
      ⟨hrest, rfl, rfl, rfl, rfl, rfl⟩
    simp only [step, atLimit, hval] at hbehind ⊢
    -- called off, taken up before, behind the limit, or taken up now
    apply Same.ite
    · intro _
      exact .ended hsame _
    intro hcancel
    apply Same.ite
    · intro _
      exact .going hpopped
    intro hnew
    apply Same.ite
    · intro _
      exact .ended (hpopped.report _ _ _) none
    · intro hlimit
      apply hpopped.takeUp (hpath path rfl)
      intro c' hstep
      apply hbehind path rfl c'
      simpa only [hcancel, hnew, hlimit, if_false] using hstep

/-! ## The whole way -/

/-- A crawl that goes on has taken up what was on top of its stack. -/
theorem Goes.head_visited {c c' : Crawl source} (h : Goes entry maxFiles c c') :
    ∀ path ∈ c.stack.head?, path.1 ∈ c'.visited := by
  cases h with
  | again hstack hold => simpa [hstack] using hold
  | read hstack hnew hlimit hread =>
    rw [addFile_eq]
    simp [hstack, mark]
  | unreadable hstack hnew hlimit hread hne => simp [hstack, mark, report]

/-- What a step puts on the stack is what an include stands for of the file on top of it. -/
theorem Goes.of_mem_stack {c c' : Crawl source} (h : Goes entry maxFiles c c')
    {target : Target source} (hmem : target ∈ c'.stack) :
    target ∈ c.stack ∨ ∃ path ∈ c.stack.head?, ∃ text, source.read path.1 = .ok text ∧
      ∃ included ∈ includesOf text, target.1 = resolveInclude path.1 included := by
  cases h with
  | again hstack hold => exact .inl (hstack ▸ List.mem_cons_of_mem _ hmem)
  | @read path rest text hstack hnew hlimit hread =>
    rw [addFile_eq, includes_contribution] at hmem
    -- a target is new on the stack only when a file was read that includes it
    rcases List.mem_append.1 hmem with hmem | hmem
    · obtain ⟨included, hincluded, hsome⟩ := List.mem_filterMap.1 (List.mem_reverse.1 hmem)
      have htarget : target.1 = resolveInclude path included := (target?_eq_some_iff.1 hsome).1
      exact .inr ⟨path, by simp [hstack], text, hread, included, hincluded, htarget⟩
    · exact .inl (hstack ▸ List.mem_cons_of_mem _ hmem)
  | unreadable hstack hnew hlimit hread hne => exact .inl (hstack ▸ List.mem_cons_of_mem _ hmem)

/-- Two crawls that start in the same state end in the same state and for the same reason, if the
sources agree about the paths that the first crawl asks for: those on its stack, and those that the
includes of the files stand for which it takes up. -/
theorem run_same (c : Crawl source) (d : Crawl other) (hsame : c.Same d)
    (hstack : ∀ target ∈ c.stack, source.AgreeAt other target.1)
    (hbehind : ∀ p ∈ (c.run entry maxFiles cancelAfter).1.visited, source.AgreeBehind other p) :
    (c.run entry maxFiles cancelAfter).1.Same (d.run entry maxFiles cancelAfter).1 ∧
      (d.run entry maxFiles cancelAfter).2 = (c.run entry maxFiles cancelAfter).2 := by
  have htop : ∀ path ∈ c.stack.head?, source.AgreeAt other path.1 :=
    fun path hpath => hstack path (List.mem_of_mem_head? hpath)
  -- the invariant is that the sources agree about whatever is on the stack
  induction c using run.induct entry maxFiles cancelAfter generalizing d with
  | case1 c c' failure hstep =>
    have hends : (c.step entry maxFiles cancelAfter).Same (d.step entry maxFiles cancelAfter) :=
      Step.same hsame htop fun _ _ _ hgoes => by cases hstep.symm.trans hgoes
    rw [hstep] at hends
    generalize hother : d.step entry maxFiles cancelAfter = step at hends
    cases hends with
    | ended hlast failure =>
      rw [run_of_ended hstep, run_of_ended hother]
      exact ⟨hlast, rfl⟩
  | case2 c c' hstep ih =>
    -- what the step puts on the stack is behind the file that it takes up
    obtain ⟨-, hgoes⟩ := goes_of_step hstep
    rw [run_of_going hstep] at hbehind ⊢
    have hread : ∀ path ∈ c.stack.head?, source.AgreeBehind other path.1 := fun path hpath =>
      hbehind path.1 (c'.growsTo_run.visited.subset (hgoes.head_visited path hpath))
    have hnext : (c.step entry maxFiles cancelAfter).Same (d.step entry maxFiles cancelAfter) :=
      Step.same hsame htop fun path hpath _ _ => hread path hpath
    have hstack' : ∀ target ∈ c'.stack, source.AgreeAt other target.1 := by
      intro target htarget
      rcases hgoes.of_mem_stack htarget with
        hmem | ⟨path, hpath, text, htext, included, hincluded, heq⟩
      · exact hstack target hmem
      · rw [heq]
        exact hread path hpath text htext included hincluded
    rw [hstep] at hnext
    generalize hother : d.step entry maxFiles cancelAfter = step at hnext
    cases hnext with
    | going hsame' =>
      rw [run_of_going hother]
      exact ih _ hsame' hstack' hbehind
        fun path hpath => hstack' path (List.mem_of_mem_head? hpath)

end Crawl

end SchemaAtlas
