import Mathlib.Logic.Function.Iterate
import SchemaAtlas.Project.Course
import SchemaAtlas.Proofs.Crawl.Moves

/-!
# A scan of files that stay as they are

Looks at files that do not change lead a scan from its entry to what `Scan.run` finds, and to
nothing else.

* `Course.leads_of_going`, `Course.look_of_ended`   a step of a crawl as looks
* `Course.leads_run`                                a crawl as looks
* `Course.leads_scan`                               a scan as looks
* `Course.result_of_leads`                          looks come to no other end
-/

namespace SchemaAtlas.Course

variable {options : ScanOptions} {source : Source}

/-- Whether looks at unchanging files lead from one course to another. -/
def Leads (options : ScanOptions) (source : Source) (a b : Course) : Prop :=
  ∃ n, (look options source)^[n] a = b

theorem Leads.refl (a : Course) : Leads options source a a :=
  ⟨0, rfl⟩

theorem Leads.look (a : Course) : Leads options source a (a.look options source) :=
  ⟨1, rfl⟩

theorem Leads.trans {a b c : Course} (h : Leads options source a b)
    (h' : Leads options source b c) : Leads options source a c := by
  obtain ⟨m, rfl⟩ := h
  obtain ⟨n, rfl⟩ := h'
  exact ⟨n + m, Function.iterate_add_apply _ n m a⟩

/-- Looks that lead to an end lead to no other one: nothing comes behind an end. -/
theorem result_of_leads {a : Course} {result result' : Except ScanError Snapshot}
    (h : Leads options source a (.ended result)) (h' : Leads options source a (.ended result')) :
    result = result' := by
  obtain ⟨m, hm⟩ := h
  obtain ⟨n, hn⟩ := h'
  have hrest (k : Nat) (r : Except ScanError Snapshot) :
      (Course.look options source)^[k] (.ended r) = .ended r := Function.iterate_fixed rfl k
  have hend : Course.ended result = .ended result' :=
    calc Course.ended result
      _ = (Course.look options source)^[n + m] a := by rw [Function.iterate_add_apply, hm, hrest]
      _ = (Course.look options source)^[m + n] a := by rw [Nat.add_comm]
      _ = .ended result' := by rw [Function.iterate_add_apply, hn, hrest]
  exact Course.ended.inj hend

/-! ## The schema files -/

/-- What a crawl has found. -/
def findings (c : Crawl source) : Findings :=
  { stack := c.stack.map (·.1), visited := c.visited, records := c.records
    assembled := c.assembled }

/-- A look with which a scan follows an include finds what a crawl finds that follows it. -/
theorem look_following (entry file : FilePath) (c : Crawl source) (included : String)
    (includes : List String) :
    look options source (.following entry (findings c) file (included :: includes)) =
      .following entry (findings (Crawl.follow file c included)) file includes := by
  simp only [look, next, Crawl.follow]
  by_cases hold : resolveInclude file included ∈ c.visited
  · simp [findings, hold]
  · by_cases hhas : source.has (resolveInclude file included) = true
    · simp [findings, Findings.addTarget, hold, hhas]
    · simp [findings, Findings.addTarget, hold, hhas, Crawl.report, Findings.report]

/-- The includes of a file are followed one look each. -/
theorem leads_following (options : ScanOptions) (entry file : FilePath) (includes : List String)
    (c : Crawl source) :
    Leads options source (.following entry (findings c) file includes)
      (.crawling entry (findings (includes.foldl (Crawl.follow file) c))) := by
  induction includes generalizing c with
  | nil => exact .look _
  | cons included includes ih =>
    exact (look_following entry file c included includes ▸ Leads.look _).trans (ih _)

/-- A crawl that takes up a file does so with one look. -/
theorem look_takeUp (entry : FilePath) {c : Crawl source} {path : Target source}
    {rest : List (Target source)} (hstack : c.stack = path :: rest)
    (hnew : path.1 ∉ c.visited) (hlimit : c.atLimit options.maxFiles = false) :
    look options source (.crawling entry (findings c)) =
      takeUp entry (findings (({ c with stack := rest } : Crawl source).mark path)) path
        (source.read path) := by
  have hlimit : options.maxFiles.any (· ≤ c.visited.length) = false := hlimit
  simp [look, next, findings, Crawl.mark, hstack, hnew, hlimit]

/-- A step with which a crawl goes on. -/
theorem leads_of_going {entry : FilePath} {c c' : Crawl source}
    (h : c.step entry options.maxFiles none = .going c') :
    Leads options source (.crawling entry (findings c)) (.crawling entry (findings c')) := by
  cases (Crawl.goes_of_step h).2 with
  | @again path rest hstack hold =>
    have hlook : look options source (.crawling entry (findings c)) =
        .crawling entry (findings { c with stack := rest }) := by
      simp [look, next, findings, hstack, hold]
    exact hlook ▸ Leads.look _
  | @read path rest text hstack hnew hlimit hread =>
    have hlook := look_takeUp entry hstack hnew hlimit
    rw [hread, takeUp] at hlook
    -- where a crawl adds a file at once, its includes are followed one by one
    have hincludes := leads_following options entry path (contribution path text).includes
      { ({ c with stack := rest } : Crawl source).mark path with
        records := c.records ++ .file path :: (contribution path text).records
        assembled :=
          if (contribution path text).sound then c.assembled ++ text ++ "\n" else c.assembled }
    exact (hlook ▸ Leads.look _).trans hincludes
  | @unreadable path rest reason hstack hnew hlimit hread hne =>
    have hlook := look_takeUp entry hstack hnew hlimit
    rw [hread, takeUp, if_neg hne] at hlook
    exact hlook ▸ Leads.look _

/-- Where the end of a crawl leaves its scan. -/
def afterCrawl (options : ScanOptions) (entry : FilePath) :
    Crawl source × Option ScanError → Course
  | (_, some failure) => .ended (.error failure)
  | (c, none) => crawled options entry (findings c)

/-- A step with which a crawl ends. -/
theorem look_of_ended {entry : FilePath} {c c' : Crawl source} {failure : Option ScanError}
    (h : c.step entry options.maxFiles none = .ended c' failure) :
    look options source (.crawling entry (findings c)) =
      afterCrawl options entry (c', failure) := by
  cases Crawl.ends_of_step h with
  | finished hstack => simp [look, next, findings, afterCrawl, hstack]
  | cancelled hstack hcancel => cases hcancel
  | @limited path rest hstack hnew hlimit =>
    have hlimit : options.maxFiles.any (· ≤ c.visited.length) = true := hlimit
    simp [look, next, findings, afterCrawl, hstack, hnew, hlimit, Crawl.report, Findings.report]
  | @unreadable path rest reason hstack hnew hread heq =>
    -- a crawl at its limit ends without a failure
    have hlimit : c.atLimit options.maxFiles = false := by
      cases hlimit : c.atLimit options.maxFiles with
      | false => rfl
      | true => simp [Crawl.step, hstack, hnew, hlimit] at h
    rw [look_takeUp entry hstack hnew hlimit, hread, takeUp, if_pos heq, afterCrawl]

/-- A whole crawl. -/
theorem leads_run (options : ScanOptions) (entry : FilePath) (c : Crawl source) :
    Leads options source (.crawling entry (findings c))
      (afterCrawl options entry (c.run entry options.maxFiles none)) := by
  induction c using Crawl.run.induct entry options.maxFiles none with
  | case1 c c' failure hstep =>
    rw [Crawl.run_of_ended hstep, ← look_of_ended hstep]
    exact .look _
  | case2 c c' hstep ih =>
    rw [Crawl.run_of_going hstep]
    exact (leads_of_going hstep).trans ih

/-! ## The documents -/

/-- Each document is looked for, and read where it exists. -/
theorem leads_gathering (records : List Record) (documents : List (FilePath × Bool)) :
    Leads options source (.gathering records documents)
      (.ended (.ok (Snapshot.ofRecords (records ++ documents.flatMap fun (path, persist) =>
        ClientDocuments.recordsOf source path persist)))) := by
  induction documents generalizing records with
  | nil =>
    rw [List.flatMap_nil, List.append_nil]
    exact .look _
  | cons document documents ih =>
    obtain ⟨path, persist⟩ := document
    -- one document takes one look if it is not there, and two if it is
    have hdocument : Leads options source (.gathering records ((path, persist) :: documents))
        (.gathering (records ++ ClientDocuments.recordsOf source path persist) documents) := by
      by_cases hhas : source.has path = true
      · have hlook : look options source (.gathering records ((path, persist) :: documents)) =
            .opening records path persist documents := by simp [look, next, hhas]
        have hopen : look options source (.opening records path persist documents) =
            .gathering (records ++ ClientDocuments.recordsOf source path persist) documents := by
          cases hread : source.read path with
          | ok text => simp [look, next, ClientDocuments.recordsOf, hhas, hread]
          | error reason => simp [look, next, ClientDocuments.recordsOf, hhas, hread]
        exact (hlook ▸ Leads.look _).trans (hopen ▸ Leads.look _)
      · have hlook : look options source (.gathering records ((path, persist) :: documents)) =
            .gathering (records ++ ClientDocuments.recordsOf source path persist) documents := by
          simp [look, next, ClientDocuments.recordsOf, hhas]
        exact hlook ▸ Leads.look _
    have hrest := hdocument.trans (ih _)
    rwa [List.append_assoc] at hrest

/-- Looks at files that do not change find what `Scan.run` finds. -/
theorem leads_scan (options : ScanOptions) (source : Source) (entry : FilePath) :
    Leads options source (.entering entry)
      (.ended (Scan.run source options entry none).result) := by
  by_cases h : source.has entry.normalize = true
  · have hlook : look options source (.entering entry) =
        .crawling entry.normalize (findings (Crawl.start (Scan.target source entry h))) := by
      simp [look, next, h, findings, Crawl.start, Scan.target, Findings.start]
    have hcrawl := leads_run options entry.normalize (Crawl.start (Scan.target source entry h))
    rw [← hlook] at hcrawl
    have hcrawl := (Leads.look _).trans hcrawl
    -- the crawl ends with its findings or with a failure
    rcases hrun : (Crawl.start (Scan.target source entry h)).run entry.normalize options.maxFiles
      none with ⟨c, _ | failure⟩
    · rw [Scan.run_of_crawled hrun]
      rw [hrun] at hcrawl
      refine hcrawl.trans ?_
      simp only [afterCrawl, crawled, Scan.documentRecords]
      cases options.followExecutables with
      | true => exact leads_gathering _ _
      | false => exact leads_gathering _ []
    · rw [Scan.run_of_failed hrun]
      rw [hrun] at hcrawl
      exact hcrawl
  · have hlook : look options source (.entering entry) =
        .ended (.error (.entryNotFound entry.normalize)) := by
      simp [look, next, h]
    rw [Scan.run_of_missing (by simpa using h), ← hlook]
    exact .look _

end SchemaAtlas.Course
