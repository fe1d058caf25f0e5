import Mathlib.Data.List.Flatten
import Mathlib.Data.List.Nodup
import Mathlib.Data.List.Perm.Subperm
import SchemaAtlas.Proofs.Crawl.Reachability

/-!
# How many turns a crawl takes

Every turn of a crawl takes one path off the stack. The stack can grow by many paths in one turn
and hold a path several times, so its length bounds nothing; but a file puts its includes on the
stack only when it is taken up, and that happens once. The includes of the files that were taken
up pay for all turns.

* `Crawl.runWithin_turns`          a crawl has ended after its turns
* `Crawl.length_turns_add_le`      every turn but those of the stack is paid for by an include
* `Source.length_includesAt_le`    paths without repeats have no more includes than the project
* `Crawl.isNamed_of_mem_turns`     every path on the stack is the entry, or an include of a file
  that was read
* `Scan.halts`                     the bounds for every scan
-/

namespace SchemaAtlas

/-! ## Includes -/

namespace Source

variable {source : Source}

/-- The includes of a file, none if it cannot be read. -/
def includesIn : Except String String → List String
  | .ok text => includesOf text
  | .error _ => []

/-- The includes of the files at some paths, one file after the other. -/
def includesAt (source : Source) (paths : List FilePath) : List String :=
  paths.flatMap fun p => includesIn (source.read p)

/-- The includes of all files of a project. -/
def allIncludes (source : Source) : List String :=
  source.listing.flatMap fun entry => includesIn entry.2

/-- Whether a path is the entry, or an include that exists of a file that can be read, where the
file is one of those given. -/
def IsNamed (source : Source) (entry : FilePath) (files : List FilePath) (p : FilePath) : Prop :=
  p = entry ∨ ∃ file ∈ files, ∃ text, source.read file = .ok text ∧
    ∃ included ∈ includesOf text, p = resolveInclude file included ∧ source.has p = true

/-- What is named by some files is named by more of them. -/
theorem IsNamed.mono {entry p : FilePath} {files more : List FilePath}
    (h : source.IsNamed entry files p) (hsubset : files ⊆ more) : source.IsNamed entry more p := by
  rcases h with h | ⟨file, hfile, h⟩
  · exact .inl h
  · exact .inr ⟨file, hsubset hfile, h⟩

/-- The includes of the files at two runs of paths are those of the one and of the other. -/
theorem includesAt_append (source : Source) (paths more : List FilePath) :
    source.includesAt (paths ++ more) = source.includesAt paths ++ source.includesAt more :=
  List.flatMap_append

/-- The includes at the path of a file that can be read are those of its text. -/
theorem includesAt_of_read {p : FilePath} {text : String} (h : source.read p = .ok text) :
    source.includesAt [p] = includesOf text := by
  simp [includesAt, includesIn, h]

/-- A file that cannot be read has no includes. -/
theorem includesAt_of_error {p : FilePath} {reason : String} (h : source.read p = .error reason) :
    source.includesAt [p] = [] := by
  simp [includesAt, includesIn, h]

/-- What is read under a normal path is listed under it. -/
theorem includesIn_read_sublist {p : FilePath} (hp : p.IsNormal) :
    (includesIn (source.read p)).Sublist
      ((source.listing.find? (·.1 == p)).toList.flatMap fun entry => includesIn entry.2) := by
  unfold read find?
  rw [hp]
  cases source.listing.find? (·.1 == p) with
  | none => simp [includesIn]
  | some entry =>
    cases source.misspelling? p with
    | none => simp
    | some reason => simp [includesIn]

/-- Normal paths without repeats have together no more includes than all files of the project. -/
theorem length_includesAt_le {paths : List FilePath} (hnodup : paths.Nodup)
    (hnormal : ∀ p ∈ paths, p.IsNormal) :
    (source.includesAt paths).length ≤ source.allIncludes.length := by
  let listed (p : FilePath) := source.listing.find? (·.1 == p)
  let includes (entry : FilePath × Except String String) := includesIn entry.2
  -- different paths have different entries in the listing
  have hpath {p : FilePath} {entry : FilePath × Except String String}
      (h : entry ∈ listed p) : entry.1 = p := by
    simpa using List.find?_some h
  have hentries : (paths.filterMap listed).Nodup :=
    hnodup.filterMap fun p q entry hp hq => (hpath hp).symm.trans (hpath hq)
  have hsubset : paths.filterMap listed ⊆ source.listing := by
    intro entry hentry
    obtain ⟨p, -, hp⟩ := List.mem_filterMap.1 hentry
    exact List.mem_of_find?_eq_some hp
  have hread : (source.includesAt paths).Sublist ((paths.filterMap listed).flatMap includes) := by
    rw [List.filterMap_eq_flatMap_toList, List.flatMap_assoc]
    exact List.Sublist.flatMap_right paths fun p hp => includesIn_read_sublist (hnormal p hp)
  obtain ⟨kept, hperm, hsublist⟩ := List.subperm_of_subset hentries hsubset
  calc (source.includesAt paths).length
      ≤ ((paths.filterMap listed).flatMap includes).length := hread.length_le
    _ = (kept.flatMap includes).length := (hperm.flatMap_right includes).length_eq.symm
    _ ≤ source.allIncludes.length := (hsublist.flatMap includes).length_le

end Source

namespace Crawl

variable {source : Source} {entry : FilePath} {maxFiles cancelAfter : Option Nat}

/-! ## Turns -/

/-- The paths that a crawl takes off its stack, turn by turn. -/
def turns (entry : FilePath) (maxFiles cancelAfter : Option Nat) (c : Crawl source) :
    List FilePath :=
  match c.stack with
  | [] => []
  | path :: _ =>
    path.1 ::
      match _ : c.step entry maxFiles cancelAfter with
      | .ended _ _ => []
      | .going c => turns entry maxFiles cancelAfter c
termination_by (unvisited source c.visited, c.stack.length)
decreasing_by exact step_decreases (by assumption)

/-- In a step that ends a crawl one path is taken off the stack, if there is any. -/
theorem turns_of_ended {c c' : Crawl source} {failure : Option ScanError}
    (h : c.step entry maxFiles cancelAfter = .ended c' failure) :
    c.turns entry maxFiles cancelAfter = (c.stack.take 1).map Subtype.val := by
  rw [turns]
  cases c.stack with
  | nil => rfl
  | cons path rest =>
    simp only [List.take_succ_cons, List.take_zero, List.map_cons, List.map_nil]
    congr 1
    split
    · rfl
    · next heq => cases h.symm.trans heq

/-- In a step that goes on the path on top is taken off the stack. -/
theorem turns_of_going {c c' : Crawl source} {path : Target source} {rest : List (Target source)}
    (hstack : c.stack = path :: rest) (h : c.step entry maxFiles cancelAfter = .going c') :
    c.turns entry maxFiles cancelAfter = path.1 :: c'.turns entry maxFiles cancelAfter := by
  rw [turns, hstack]
  simp only
  congr 1
  split
  · next heq => cases h.symm.trans heq
  · next heq =>
    obtain rfl := Step.going.inj (h.symm.trans heq)
    rfl

/-- A step that goes on takes a path off the stack. -/
theorem Goes.exists_top {c c' : Crawl source} (h : Goes entry maxFiles c c') :
    ∃ path rest, c.stack = path :: rest := by
  cases h with
  | again hstack => exact ⟨_, _, hstack⟩
  | read hstack => exact ⟨_, _, hstack⟩
  | unreadable hstack => exact ⟨_, _, hstack⟩

/-- After its turns a crawl has ended. The one step more finds that nothing is left. -/
theorem runWithin_turns (c : Crawl source) :
    c.runWithin entry maxFiles cancelAfter ((c.turns entry maxFiles cancelAfter).length + 1) =
      some (c.run entry maxFiles cancelAfter) := by
  -- each turn is one step, and the last step ends the crawl
  induction c using run.induct entry maxFiles cancelAfter with
  | case1 c c' failure hstep => simp only [runWithin, hstep, run_of_ended hstep]
  | case2 c c' hstep ih =>
    obtain ⟨path, rest, hstack⟩ := (goes_of_step hstep).2.exists_top
    rw [turns_of_going hstack hstep, List.length_cons, runWithin, hstep, run_of_going hstep]
    exact ih

/-! ## What pays for the turns -/

/-- The includes of the files that a crawl takes up, and what is on its stack when it starts, pay
for its turns: a file that is taken up is the only one that puts paths on the stack. -/
theorem length_turns_add_le (c : Crawl source) :
    (c.turns entry maxFiles cancelAfter).length + (source.includesAt c.visited).length ≤
      c.stack.length + (source.includesAt (c.run entry maxFiles cancelAfter).1.visited).length := by
  induction c using run.induct entry maxFiles cancelAfter with
  | case1 c c' failure hstep =>
    -- the last turn, if there is one, takes a path off and puts none on
    have hlength : ((c.stack.take 1).map Subtype.val).length ≤ c.stack.length := by
      rw [List.length_map, List.length_take]
      omega
    have hcount : (source.includesAt c.visited).length ≤ (source.includesAt c'.visited).length := by
      obtain ⟨more, hmore⟩ := (ends_of_step hstep).growsTo.visited
      rw [← hmore, Source.includesAt_append, List.length_append]
      omega
    rw [turns_of_ended hstep, run_of_ended hstep]
    exact Nat.add_le_add hlength hcount
  | case2 c c' hstep ih =>
    obtain ⟨-, hgoes⟩ := goes_of_step hstep
    rw [run_of_going hstep]
    cases hgoes with
    | again hstack hold =>
      -- a path that was taken up before is passed over
      rw [turns_of_going hstack hstep, hstack, List.length_cons, List.length_cons]
      simp only at ih
      omega
    | @read path rest text hstack hnew hlimit hread =>
      -- the file puts on the stack those of its includes that exist, and all of them pay
      have hcount := congrArg List.length (source.includesAt_append c.visited [path.1])
      have htargets : ((includesOf text).filterMap
          (target? source (c.visited ++ [path.1]) path)).length ≤ (includesOf text).length :=
        List.length_filterMap_le _ _
      rw [turns_of_going hstack hstep, hstack, List.length_cons, List.length_cons]
      rw [List.length_append, Source.includesAt_of_read hread] at hcount
      rw [addFile_eq, includes_contribution] at ih ⊢
      simp only [mark, List.length_append, List.length_reverse, hcount] at ih ⊢
      omega
    | @unreadable path rest reason hstack hnew hlimit hread hne =>
      -- the file has no includes, and puts nothing on the stack
      have hcount := congrArg List.length (source.includesAt_append c.visited [path.1])
      rw [turns_of_going hstack hstep, hstack, List.length_cons, List.length_cons]
      rw [List.length_append, Source.includesAt_of_error hread, List.length_nil] at hcount
      simp only [mark, report, hcount] at ih ⊢
      omega

/-! ## What the turns take up -/

/-- A crawl takes up paths of its turns only, in their order. -/
theorem exists_taken_sublist (c : Crawl source) :
    ∃ taken, (c.run entry maxFiles cancelAfter).1.visited = c.visited ++ taken ∧
      taken.Sublist (c.turns entry maxFiles cancelAfter) := by
  -- turn by turn; a turn that takes up a path adds it to both lists
  induction c using run.induct entry maxFiles cancelAfter with
  | case1 c c' failure hstep =>
    rw [turns_of_ended hstep, run_of_ended hstep]
    cases ends_of_step hstep with
    | unreadable hstack => exact ⟨[_], rfl, by simp [hstack]⟩
    | _ => exact ⟨[], (List.append_nil _).symm, List.nil_sublist _⟩
  | case2 c c' hstep ih =>
    obtain ⟨taken, hvisited, hsublist⟩ := ih
    rw [run_of_going hstep, hvisited]
    cases (goes_of_step hstep).2 with
    -- a path that was visited before takes a turn and adds nothing
    | again hstack hold =>
      rw [turns_of_going hstack hstep]
      exact ⟨taken, rfl, hsublist.cons _⟩
    | @read path rest text hstack =>
      rw [turns_of_going hstack hstep]
      exact ⟨path.1 :: taken, by simp [mark], hsublist.cons_cons _⟩
    | @unreadable path rest reason hstack =>
      rw [turns_of_going hstack hstep]
      exact ⟨path.1 :: taken, by simp [mark, report], hsublist.cons_cons _⟩

/-- Every step keeps on the stack what is named by the files that were taken up. -/
theorem Goes.isNamed {first : FilePath} {c c' : Crawl source} (h : Goes entry maxFiles c c')
    (hc : ∀ target ∈ c.stack, source.IsNamed first c.visited target.1) :
    ∀ target ∈ c'.stack, source.IsNamed first c'.visited target.1 := by
  have hgrows := h.growsTo.visited.subset
  cases h with
  | again hstack hold =>
    intro target htarget
    exact hc target (hstack ▸ List.mem_cons_of_mem _ htarget)
  | @read path rest text hstack hnew hlimit hread =>
    intro target htarget
    rw [visited_addFile] at hgrows ⊢
    rw [addFile_eq, includes_contribution] at htarget
    -- either the file has put the path on the stack, or it was there before
    rcases List.mem_append.1 htarget with htarget | htarget
    · obtain ⟨included, hmem, hsome⟩ := List.mem_filterMap.1 (List.mem_reverse.1 htarget)
      obtain ⟨heq, -⟩ := target?_eq_some_iff.1 hsome
      exact .inr ⟨path.1, by simp [mark], text, hread, included, hmem, heq, target.2.2⟩
    · exact (hc target (hstack ▸ List.mem_cons_of_mem _ htarget)).mono hgrows
  | @unreadable path rest reason hstack =>
    intro target htarget
    exact (hc target (hstack ▸ List.mem_cons_of_mem _ htarget)).mono hgrows

/-- Every turn takes the entry off the stack, or an include of a file that is read in the end. -/
theorem isNamed_of_mem_turns {first p : FilePath} (c : Crawl source)
    (hc : ∀ target ∈ c.stack, source.IsNamed first c.visited target.1)
    (hp : p ∈ c.turns entry maxFiles cancelAfter) :
    source.IsNamed first (c.run entry maxFiles cancelAfter).1.visited p := by
  induction c using run.induct entry maxFiles cancelAfter with
  | case1 c c' failure hstep =>
    rw [turns_of_ended hstep] at hp
    obtain ⟨target, htarget, rfl⟩ := List.mem_map.1 hp
    exact (hc target (List.mem_of_mem_take htarget)).mono (growsTo_run c).visited.subset
  | case2 c c' hstep ih =>
    obtain ⟨-, hgoes⟩ := goes_of_step hstep
    obtain ⟨path, rest, hstack⟩ := hgoes.exists_top
    rw [turns_of_going hstack hstep] at hp
    -- the path of this turn is on the stack now, those of later turns on a later one
    rcases List.mem_cons.1 hp with rfl | hp
    · have hpath := hc path (hstack ▸ List.mem_cons_self)
      exact hpath.mono (growsTo_run c).visited.subset
    · rw [run_of_going hstep]
      exact ih (hgoes.isNamed hc) hp

end Crawl

/-! ## Every scan -/

namespace Scan

variable (source : Source) (options : ScanOptions) (entry : FilePath) (cancelAfter : Option Nat)

/-- The paths that a scan takes off its stack, turn by turn. -/
def turns : List FilePath :=
  if h : source.has entry.normalize = true then
    (Crawl.start (target source entry h)).turns entry.normalize options.maxFiles cancelAfter
  else []

/-- The paths that a scan takes up, which are those that it reads or tries to read. -/
def tried : List FilePath :=
  if h : source.has entry.normalize = true then
    ((Crawl.start (target source entry h)).run entry.normalize options.maxFiles
      cancelAfter).1.visited
  else []

/-- What bounds the loop of a scan. -/
structure Halts : Prop where
  /-- The loop has ended after these turns. -/
  ends : ∀ h : source.has entry.normalize = true,
    (Crawl.start (target source entry h)).runWithin entry.normalize options.maxFiles cancelAfter
        ((turns source options entry cancelAfter).length + 1) =
      some ((Crawl.start (target source entry h)).run entry.normalize options.maxFiles cancelAfter)
  /-- The entry and the includes of the files that it read pay for all turns. -/
  paid : (turns source options entry cancelAfter).length ≤
    1 + (source.includesAt (tried source options entry cancelAfter)).length
  /-- The project as a whole has at least as many includes. -/
  bounded : (source.includesAt (tried source options entry cancelAfter)).length ≤
    source.allIncludes.length
  /-- No path is read twice. -/
  once : (tried source options entry cancelAfter).Nodup
  /-- What is read is what the turns take off the stack, less what they pass over. -/
  taken : (tried source options entry cancelAfter).Sublist (turns source options entry cancelAfter)
  /-- Every turn takes the entry off the stack, or an include that exists of a file that it read. -/
  named : ∀ p ∈ turns source options entry cancelAfter,
    source.IsNamed entry.normalize (tried source options entry cancelAfter) p
  /-- The files of the snapshot are those that could be read. -/
  files : ∀ s, (run source options entry cancelAfter).result = .ok s →
    s.files = (tried source options entry cancelAfter).filter fun p => (source.text? p).isSome

/-- Without its entry a scan does not start. -/
theorem halts_of_missing (h : source.has entry.normalize = false) :
    Halts source options entry cancelAfter := by
  -- without an entry there is no crawl to take turns
  have hturns : turns source options entry cancelAfter = [] := dif_neg (by simp [h])
  have htried : tried source options entry cancelAfter = [] := dif_neg (by simp [h])
  constructor
  case ends =>
    intro hhas
    cases h.symm.trans hhas
  case paid => simp [hturns]
  case bounded => simp [htried, Source.includesAt]
  case once => simp [htried]
  case taken => simp [htried]
  case named => simp [hturns]
  case files =>
    intro s hok
    rw [run_of_missing h] at hok
    cases hok

/-- A scan whose entry exists is bounded by the includes of what it takes up. -/
theorem halts_of_found (h : source.has entry.normalize = true) :
    Halts source options entry cancelAfter := by
  let start := Crawl.start (target source entry h)
  let last := (start.run entry.normalize options.maxFiles cancelAfter).1
  have hkept : last.Kept := .of_run rfl
  have hturns : turns source options entry cancelAfter =
      start.turns entry.normalize options.maxFiles cancelAfter := dif_pos h
  have htried : tried source options entry cancelAfter = last.visited := dif_pos h
  constructor
  case ends =>
    intro _
    rw [hturns]
    exact start.runWithin_turns
  case paid =>
    -- at the start the entry is all that is on the stack
    rw [hturns, htried]
    exact start.length_turns_add_le
  case bounded =>
    rw [htried]
    exact Source.length_includesAt_le hkept.nodup hkept.isNormal
  case once =>
    rw [htried]
    exact hkept.nodup
  case taken =>
    -- nothing was taken up before the first turn
    obtain ⟨taken, hvisited, hsublist⟩ : ∃ taken, last.visited = [] ++ taken ∧ _ :=
      start.exists_taken_sublist
    rw [hturns, htried, hvisited]
    exact hsublist
  case named =>
    intro p hp
    rw [hturns] at hp
    rw [htried]
    refine start.isNamed_of_mem_turns (fun path hpath => .inl ?_) hp
    rw [List.mem_singleton.1 hpath]
    rfl
  case files =>
    intro s hok
    obtain ⟨_, c, hrun, rfl⟩ := exists_crawl_of_ok hok
    have hc : c = last := (congrArg Prod.fst hrun).symm
    subst hc
    rw [htried, files_ofRecords_append options entry.normalize hkept]

/-- The loop of every scan ends, whatever includes what and however often: the includes of the
files that are read bound it, and none of them is read twice. -/
theorem halts : Halts source options entry cancelAfter := by
  cases h : source.has entry.normalize with
  | true => exact halts_of_found source options entry cancelAfter h
  | false => exact halts_of_missing source options entry cancelAfter h

end Scan

end SchemaAtlas
