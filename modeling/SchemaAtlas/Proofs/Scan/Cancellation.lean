import SchemaAtlas.Proofs.Crawl.Moves

/-!
# Calling off a scan

A scan that is called off is compared with the same scan left alone. Both take the same steps up to
the report behind which the first one is called off, so either the first one is cut short there, or
it never notices.

* `Crawl.Goes.length_ticks`     a step reports at most once
* `Crawl.run_cancelled_or_eq`   a crawl that is called off, beside the same crawl left alone
* `Indexer.scan_cancelled_or_eq`   the same of a scan and of the snapshot that it publishes
-/

namespace SchemaAtlas

namespace Crawl

variable {source : Source} {entry : FilePath} {maxFiles cancelAfter : Option Nat}

/-! ## What a crawl reports -/

/-- A step adds at most one report to those that were made before. -/
theorem Goes.length_ticks {c c' : Crawl source} (h : Goes entry maxFiles c c') :
    c'.ticks.length ≤ c.ticks.length + 1 := by
  cases h with
  | again hstack hold => simp
  | read hstack hnew hlimit hread =>
    rw [addFile_eq]
    simp [mark]
  | unreadable hstack hnew hlimit hread hne => simp [mark, report]

/-! ## Two runs -/

/-- What calling off a crawl after `n` reports does to it: it is cut short behind the report with
that number, or it goes on as if it were never called off. -/
theorem run_cancelled_or_eq {n : Nat} (c : Crawl source) (entry : FilePath) (maxFiles : Option Nat)
    (hc : c.ticks.length ≤ n) :
    (∃ last : Crawl source, c.run entry maxFiles (some n) = (last, some .cancelled) ∧
      last.ticks.length = n ∧ last.ticks <+: (c.run entry maxFiles none).1.ticks) ∨
    c.run entry maxFiles (some n) = c.run entry maxFiles none := by
  -- the runs go side by side: the invariant is that at most `n` reports were made
  induction c using run.induct entry maxFiles (some n) with
  | case1 c c' failure hstep =>
    by_cases hcancel : (some n).any (· ≤ c.ticks.length) = true
    · have hn : n ≤ c.ticks.length := by simpa using hcancel
      have hlength : c.ticks.length = n := by omega
      cases ends_of_step hstep with
      | cancelled hstack _ => exact .inl ⟨c, run_of_ended hstep, hlength, c.growsTo_run.ticks⟩
      | finished hstack =>
        -- nothing is left to do, so nobody asks
        have hnone : c.step entry maxFiles none = .ended c none := by simp [step, hstack]
        exact .inr (by rw [run_of_ended hstep, run_of_ended hnone])
      | limited hstack _ _ => simp [step, hstack, hn] at hstep
      | unreadable hstack _ _ _ => simp [step, hstack, hn] at hstep
    · have hsame : c.step entry maxFiles (some n) = c.step entry maxFiles none :=
        step_eq_of_not_cancelled (by simpa using hcancel)
      exact .inr (by rw [run_of_ended hstep, run_of_ended (hsame ▸ hstep)])
  | case2 c c' hstep ih =>
    obtain ⟨hcancel, hgoes⟩ := goes_of_step hstep
    have hn : c.ticks.length < n := by simpa using hcancel
    have hticks := hgoes.length_ticks
    have hnone : c.step entry maxFiles none = .going c' :=
      (step_eq_of_not_cancelled hcancel).symm.trans hstep
    rw [run_of_going hstep, run_of_going hnone]
    exact ih (by omega)

end Crawl

namespace Scan

/-- A scan that is called off after `n` reports either ends as cancelled behind its report with
that number, or it is the scan left alone. -/
theorem run_cancelled_or_eq (source : Source) (options : ScanOptions) (entry : FilePath) (n : Nat) :
    ((run source options entry (some n)).result = .error .cancelled ∧
      (run source options entry (some n)).ticks = (run source options entry none).ticks.take n ∧
      (run source options entry (some n)).ticks.length = n) ∨
    run source options entry (some n) = run source options entry none := by
  by_cases h : source.has entry.normalize = true
  · have hcrawl := Crawl.run_cancelled_or_eq (Crawl.start (target source entry h)) entry.normalize
      options.maxFiles (Nat.zero_le n)
    -- the crawl is cancelled, or the token makes no difference to it
    rcases hcrawl with ⟨last, hrun, hlength, hprefix⟩ | hsame
    · -- the reports of the crawl left alone come first among those of its scan
      have hscan : last.ticks <+: (run source options entry none).ticks := by
        rcases hnone : (Crawl.start (target source entry h)).run entry.normalize options.maxFiles
          none with ⟨c, _ | failure⟩
        · rw [hnone] at hprefix
          rw [run_of_crawled hnone]
          exact hprefix.trans (List.prefix_append _ _)
        · rw [hnone] at hprefix
          rw [run_of_failed hnone]
          exact hprefix
      rw [run_of_failed hrun]
      exact .inl ⟨rfl, by rw [← hlength]; exact List.prefix_iff_eq_take.1 hscan, hlength⟩
    · right
      rcases hrun : (Crawl.start (target source entry h)).run entry.normalize options.maxFiles
        none with ⟨c, _ | failure⟩
      · rw [run_of_crawled hrun, run_of_crawled (hsame.trans hrun)]
      · rw [run_of_failed hrun, run_of_failed (hsame.trans hrun)]
  · have h : source.has entry.normalize = false := by simpa using h
    exact .inr (by rw [run_of_missing h, run_of_missing h])

end Scan

namespace Indexer

variable {source : Source} {entry : FilePath} {cancelAfter : Option Nat}

theorem scan_fst (indexer : Indexer) :
    (indexer.scan source entry cancelAfter).1 =
      Scan.run source indexer.options entry cancelAfter := by
  simp only [scan]
  split <;> rfl

/-- A scan that fails leaves the indexer as it is. -/
theorem scan_snd_of_error {indexer : Indexer} {failure : ScanError}
    (h : (Scan.run source indexer.options entry cancelAfter).result = .error failure) :
    (indexer.scan source entry cancelAfter).2 = indexer := by
  simp only [scan]
  split
  · next hok => cases h.symm.trans hok
  · rfl

/-- Calling off a scan is all or nothing. Either the scan ends as cancelled behind the report after
which it is called off, having made the same reports up to there as the scan left alone, and the
published snapshot stays; or the scan and what it publishes are those of the scan left alone. And
a scan left alone that fails publishes nothing. -/
theorem scan_cancelled_or_eq (indexer : Indexer) (source : Source) (entry : FilePath) (n : Nat) :
    (((indexer.scan source entry (some n)).1.result = .error .cancelled ∧
        (indexer.scan source entry (some n)).1.ticks =
          (indexer.scan source entry none).1.ticks.take n ∧
        (indexer.scan source entry (some n)).1.ticks.length = n ∧
        (indexer.scan source entry (some n)).2.snapshot = indexer.snapshot) ∨
      indexer.scan source entry (some n) = indexer.scan source entry none) ∧
    ∀ failure, (indexer.scan source entry none).1.result = .error failure →
      (indexer.scan source entry none).2.snapshot = indexer.snapshot := by
  simp only [scan_fst]
  refine ⟨?_, fun failure hfailure => by rw [scan_snd_of_error hfailure]⟩
  -- nothing is published unless the scan succeeds
  rcases Scan.run_cancelled_or_eq source indexer.options entry n with
    ⟨hresult, hticks, hlength⟩ | hsame
  · exact .inl ⟨hresult, hticks, hlength, by rw [scan_snd_of_error hresult]⟩
  · exact .inr (by simp only [scan, hsame])

end Indexer

end SchemaAtlas
