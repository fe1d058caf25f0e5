import Mathlib.Data.List.Basic
import SchemaAtlas.Proofs.Crawl.Reachability

/-!
# A crawl walks depth first

The stack of a crawl stands for the visits that a recursive walk over the includes has still to
make. The walk goes through the includes of a file from the last to the first and marks a file when
it comes to it; a crawl puts them on its stack in their order, marks a file when it takes it up, and
leaves out some files that are marked already. So the two meet the same files in the same order,
however the includes are tangled.

* `Source.visit`, `Source.visitAll`   the recursive walk
* `Source.visitAll_filter`            files that are marked already may be left out
* `Crawl.Goes.visitAll`               a step of a crawl leaves the outcome of the walk as it is
* `Scan.files_eq_emitted`             the files of a scan, and what it reports
-/

namespace SchemaAtlas

/-- How far a walk has come. -/
structure Tour where
  /-- The files that were visited, in the order in which they were marked. -/
  marked : List FilePath
  /-- Those of them that were read. -/
  emitted : List FilePath
deriving DecidableEq

namespace Tour

/-- A walk that has not begun. -/
def start : Tour := ⟨[], []⟩

/-- Marks a file. -/
def mark (t : Tour) (p : FilePath) : Tour :=
  { t with marked := t.marked ++ [p] }

/-- Emits a file. -/
def emit (t : Tour) (p : FilePath) : Tour :=
  { t with emitted := t.emitted ++ [p] }

end Tour

namespace Source

variable {source : Source}

/-! ## The recursive walk -/

/-- The file that an include stands for, if it exists. -/
def included? (source : Source) (p : FilePath) (included : String) : Option (Target source) :=
  if h : source.has (resolveInclude p included) = true then
    some ⟨resolveInclude p included, Crawl.isTarget_resolveInclude h⟩
  else none

/-- The files that a text includes and that exist, from the last include to the first. -/
def lastToFirst (source : Source) (p : FilePath) (text : String) : List (Target source) :=
  ((includesOf text).filterMap (source.included? p)).reverse

/-- Where more files are marked, no more are left. -/
theorem unvisited_le {marked marked' : List FilePath} (h : marked <+: marked') :
    Crawl.unvisited source marked' ≤ Crawl.unvisited source marked := by
  apply List.Sublist.length_le
  apply List.monotone_filter_right
  intro entry hentry
  simp only [decide_eq_true_eq] at hentry ⊢
  exact fun hmem => hentry (h.subset hmem)

mutual

/-- Visits a file: returns if it is marked, marks it, returns if it cannot be read, emits it, and
visits what it includes. What is marked stays marked, and so the walk ends. -/
def visit (source : Source) (p : Target source) (t : Tour) :
    { t' : Tour // t.marked <+: t'.marked } :=
  if p.1 ∈ t.marked then ⟨t, List.prefix_rfl⟩
  else
    match source.read p with
    | .error _ => ⟨t.mark p, List.prefix_append _ _⟩
    | .ok text =>
      let all := visitAll source (source.lastToFirst p text) ((t.mark p).emit p)
      ⟨all.1, (List.prefix_append _ _).trans all.2⟩
termination_by (Crawl.unvisited source t.marked, 0)
decreasing_by exact .left _ _ (Crawl.unvisited_append_lt p (by assumption))

/-- Visits files one after another. -/
def visitAll (source : Source) (ps : List (Target source)) (t : Tour) :
    { t' : Tour // t.marked <+: t'.marked } :=
  match ps with
  | [] => ⟨t, List.prefix_rfl⟩
  | p :: ps =>
    let first := visit source p t
    let all := visitAll source ps first.1
    ⟨all.1, first.2.trans all.2⟩
termination_by (Crawl.unvisited source t.marked, ps.length + 1)
decreasing_by
  · exact .right _ (Nat.succ_pos _)
  · exact Prod.Lex.right' _ (unvisited_le first.2) (Nat.lt_succ_self _)

end

/-- A file that is marked is not visited again. -/
theorem visit_of_marked {p : Target source} {t : Tour} (h : p.1 ∈ t.marked) :
    (source.visit p t).1 = t := by
  rw [visit, if_pos h]

/-- A file that cannot be read is marked, and that is all. -/
theorem visit_of_unreadable {p : Target source} {t : Tour} {reason : String}
    (hnew : p.1 ∉ t.marked) (hread : source.read p = .error reason) :
    (source.visit p t).1 = t.mark p := by
  rw [visit, if_neg hnew, hread]

/-- A file that can be read is marked and emitted, and what it includes is visited. -/
theorem visit_of_read {p : Target source} {t : Tour} {text : String}
    (hnew : p.1 ∉ t.marked) (hread : source.read p = .ok text) :
    (source.visit p t).1 =
      (source.visitAll (source.lastToFirst p text) ((t.mark p).emit p)).1 := by
  rw [visit, if_neg hnew, hread]

/-- Without files there is nothing to visit. -/
@[simp]
theorem visitAll_nil (t : Tour) : (source.visitAll [] t).1 = t := by
  rw [visitAll]

/-- The first file is visited before the others. -/
theorem visitAll_cons (p : Target source) (ps : List (Target source)) (t : Tour) :
    (source.visitAll (p :: ps) t).1 = (source.visitAll ps (source.visit p t).1).1 := by
  rw [visitAll]

/-- Files in two parts are visited part by part. -/
theorem visitAll_append (ps qs : List (Target source)) (t : Tour) :
    (source.visitAll (ps ++ qs) t).1 = (source.visitAll qs (source.visitAll ps t).1).1 := by
  induction ps generalizing t with
  | nil => rw [List.nil_append, visitAll_nil]
  | cons p ps ih => rw [List.cons_append, visitAll_cons, visitAll_cons, ih]

/-- Files that are marked already may be left out. -/
theorem visitAll_filter (visited : List FilePath) (ps : List (Target source)) (t : Tour)
    (h : visited ⊆ t.marked) :
    (source.visitAll (ps.filter fun p => p.1 ∉ visited) t).1 = (source.visitAll ps t).1 := by
  induction ps generalizing t with
  | nil => rfl
  | cons p ps ih =>
    rw [visitAll_cons]
    -- a marked file would not change the tour, any other is visited on both sides
    by_cases hp : p.1 ∈ visited
    · rw [List.filter_cons_of_neg (by simpa using hp), visit_of_marked (h hp)]
      exact ih t h
    · rw [List.filter_cons_of_pos (by simpa using hp), visitAll_cons]
      exact ih _ fun q hq => (source.visit p t).2.subset (h hq)

/-- A file that can be read exists. -/
theorem has_of_read {p : FilePath} {text : String} (h : source.read p = .ok text) :
    source.has p = true := by
  unfold read at h
  unfold has
  cases hfind : source.find? p with
  | none => rw [hfind] at h; cases h
  | some content => rfl

end Source

/-! ## The crawl beside the walk -/

namespace Crawl

variable {source : Source} {entry : FilePath} {maxFiles : Option Nat}

/-- What a crawl puts on its stack is what the walk visits, save what is marked already. -/
theorem target?_eq_filter (visited : List FilePath) (p : FilePath) (included : String) :
    target? source visited p included =
      (source.included? p included).filter fun target => target.1 ∉ visited := by
  unfold target? Source.included?
  by_cases hmem : resolveInclude p included ∈ visited
  · by_cases hhas : source.has (resolveInclude p included) = true
    · simp [hmem, hhas, Option.filter]
    · simp [hmem, hhas]
  · by_cases hhas : source.has (resolveInclude p included) = true
    · simp [hmem, hhas, Option.filter]
    · simp [hmem, hhas]

/-- The targets of a text come onto the stack so that the walk meets them from the top. -/
theorem reverse_filterMap_target? (visited : List FilePath) (p : FilePath) (text : String) :
    ((includesOf text).filterMap (target? source visited p)).reverse =
      (source.lastToFirst p text).filter fun target => target.1 ∉ visited := by
  rw [Source.lastToFirst, List.filter_reverse, List.filter_filterMap]
  congr 2
  funext included
  exact target?_eq_filter visited p included

/-- How far a crawl has come, as a walk. -/
def tour (c : Crawl source) : Tour :=
  { marked := c.visited, emitted := c.visited.filter fun p => (source.text? p).isSome }

/-- What a crawl has still to do is to visit what is on its stack: a step leaves the outcome of that
as it is. -/
theorem Goes.visitAll {c c' : Crawl source} (h : Goes entry maxFiles c c') :
    (source.visitAll c'.stack c'.tour).1 = (source.visitAll c.stack c.tour).1 := by
  cases h with
  | again hstack hold =>
    rw [hstack, Source.visitAll_cons, Source.visit_of_marked (t := c.tour) hold]
    rfl
  | @unreadable path rest reason hstack hnew hlimit hread hne =>
    have htour :
        ((({ c with stack := rest } : Crawl source).mark path).report path .io reason).tour =
          c.tour.mark path := by
      simp [tour, Tour.mark, mark, report, Source.text?_of_error hread]
    rw [hstack, Source.visitAll_cons, Source.visit_of_unreadable (t := c.tour) hnew hread, htour]
    rfl
  | @read path rest text hstack hnew hlimit hread =>
    have htour :
        ((({ c with stack := rest } : Crawl source).mark path).addFile path text).tour =
          (c.tour.mark path).emit path := by
      rw [addFile_eq]
      simp [tour, Tour.mark, Tour.emit, mark, Source.text?_of_read hread]
    -- the file stands on the stack for itself, and then what it includes does, but for what is
    -- marked
    have hstack' :
        ((({ c with stack := rest } : Crawl source).mark path).addFile path text).stack =
          ((source.lastToFirst path text).filter fun target =>
            target.1 ∉ c.visited ++ [path.1]) ++ rest := by
      rw [addFile_eq, includes_contribution]
      exact congrArg (· ++ rest) (reverse_filterMap_target? _ _ _)
    have hfilter := Source.visitAll_filter (c.visited ++ [path.1])
      (source.lastToFirst path text) ((c.tour.mark path).emit path) fun _ hp => hp
    rw [htour, hstack', hstack, Source.visitAll_append, hfilter, Source.visitAll_cons,
      Source.visit_of_read (t := c.tour) hnew hread]

/-- A crawl without a limit that leaves nothing on its stack has made the walk from its entry. -/
theorem tour_eq_visit {target : Target source} {last : Crawl source} {cancelAfter : Option Nat}
    (hrun : (start target).run entry none cancelAfter = (last, none)) :
    last.tour = (source.visit target .start).1 := by
  obtain ⟨hwalk, hstack⟩ := finished_of_run
    (P := fun c => (source.visitAll c.stack c.tour).1 = (source.visit target .start).1)
    (by rw [start, Source.visitAll_cons, Source.visitAll_nil]; rfl)
    (fun c c' hc hgoes => hgoes.visitAll.trans hc) hrun
  rw [← hwalk, hstack, Source.visitAll_nil]

/-- The entry of the files that include one another, themselves, and what is missing or broken. -/
def tangledEntry : Target Source.tangled :=
  ⟨⟨"/p/index.graphql"⟩, by decide +kernel⟩

/-- The walk over these files. -/
def tangledTour : Tour :=
  { marked := [⟨"/p/index.graphql"⟩, ⟨"/p/a.graphql"⟩, ⟨"/p/c.graphql"⟩, ⟨"/p/b.graphql"⟩]
    emitted := [⟨"/p/index.graphql"⟩, ⟨"/p/a.graphql"⟩, ⟨"/p/b.graphql"⟩] }

example : (Source.tangled.visit tangledEntry .start).1 = tangledTour := by
  obtain ⟨c, hrun, htour⟩ : ∃ c, (start tangledEntry).run tangledEntry.1 none none = (c, none) ∧
      c.tour = tangledTour :=
    exists_run_of_within 9 (fun c => c.tour = tangledTour) (by decide +kernel)
  rw [← tour_eq_visit hrun, htour]

/-! ## What a crawl reports -/

/-- How the file is reported that a crawl takes up. -/
def indexingMessage (p : FilePath) : String :=
  "Indexing " ++ p.text

/-- Whether a crawl has reported the files that it has taken up, in their order. -/
def Announced (c : Crawl source) : Prop :=
  c.ticks.map Tick.message = c.visited.map indexingMessage

/-- A file is reported in the step that takes it up, so the reports keep their order. -/
theorem Announced.goes {c c' : Crawl source} (hc : c.Announced) (h : Goes entry maxFiles c c') :
    c'.Announced := by
  unfold Announced at hc ⊢
  cases h with
  | again hstack hold => exact hc
  | read hstack hnew hlimit hread =>
    rw [addFile_eq]
    simp [mark, hc, indexingMessage]
  | unreadable hstack hnew hlimit hread hne => simp [mark, report, hc, indexingMessage]

end Crawl

/-- A scan without a limit that is not called off succeeds if its entry can be read. Its files are
those that the recursive walk from the entry emits, and it reports those that the walk marks, each
in this order. -/
theorem Scan.files_eq_emitted (source : Source) (options : ScanOptions) (entry : FilePath)
    (text : String) (hlimit : options.maxFiles = none)
    (hread : source.read entry.normalize = .ok text) :
    ∃ h s, (Scan.run source options entry none).result = .ok s ∧
      s.files = (source.visit (target source entry h) .start).1.emitted ∧
      (Scan.run source options entry none).ticks.map Tick.message =
        (source.visit (target source entry h) .start).1.marked.map Crawl.indexingMessage ++
          ["Index ready"] := by
  have hhas : source.has entry.normalize = true := Source.has_of_read hread
  -- without a limit the crawl ends with nothing left on the stack
  obtain ⟨c, hrun, hkept, -, -⟩ := Crawl.exists_finished hlimit hhas hread
  have hfree : (Crawl.start (target source entry hhas)).run entry.normalize none none =
      (c, none) := by rw [← hrun, hlimit]
  -- what it has marked and read is what the recursive visit marks and emits
  have hwalk : c.tour = (source.visit (target source entry hhas) .start).1 :=
    Crawl.tour_eq_visit hfree
  have hstart : (Crawl.start (target source entry hhas)).Announced := rfl
  obtain ⟨hannounced, -⟩ : c.Announced ∧ c.stack = [] :=
    Crawl.finished_of_run hstart (fun _ _ hc hgoes => hc.goes hgoes) hfree
  refine ⟨hhas, _, by rw [run_of_crawled hrun], ?_, ?_⟩
  · rw [files_ofRecords_append options entry.normalize hkept, ← hwalk]
    rfl
  · rw [run_of_crawled hrun, List.map_append, hannounced, ← hwalk]
    rfl

/-- The scan of the tangled files is the walk over them. -/
theorem Scan.files_eq_emitted_tangled :
    (∃ text, Source.tangled.read (FilePath.normalize ⟨"/p/./index.graphql"⟩) = .ok text) ∧
    ∃ h s, (Scan.run Source.tangled .default ⟨"/p/./index.graphql"⟩ none).result = .ok s ∧
      s.files =
        (Source.tangled.visit (target _ ⟨"/p/./index.graphql"⟩ h) .start).1.emitted ∧
      (Scan.run Source.tangled .default ⟨"/p/./index.graphql"⟩ none).ticks.map Tick.message =
        (Source.tangled.visit (target _ ⟨"/p/./index.graphql"⟩ h) .start).1.marked.map
          Crawl.indexingMessage ++ ["Index ready"] :=
  ⟨⟨_, rfl⟩, files_eq_emitted Source.tangled .default ⟨"/p/./index.graphql"⟩ _ rfl rfl⟩

end SchemaAtlas
