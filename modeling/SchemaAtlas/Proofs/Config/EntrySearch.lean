import SchemaAtlas.Config.EntrySearch

/-!
# Which file is found as the entry

The search for an entry file walks down from the project directory, directories before what stands
behind them and the entries of one directory in the order of their names. So the files of a name
are met in the order of the names that lead to them, compared one by one, and the first of the
shortest ways is the least of them.

* `Config.mem_filesNamed_iff`        the files that are met, from the tree
* `Config.pairwise_filesNamed`       the order in which they are met
* `Config.shortest?_least`           the first of the shortest, in a list in order
* `Config.findsShallowest_foundNames?`   the entry file of a project directory, wherever it stands
-/

namespace SchemaAtlas

/-! ## Trees -/

namespace Disk

/-- A tree in which no directory has two entries of one name. -/
inductive IsTree : Disk → Prop
  | file (text : String) : IsTree (.file text)
  | binary : IsTree .binary
  | directory {entries : List (String × Disk)} (hnodup : (entries.map Prod.fst).Nodup)
      (hentries : ∀ entry ∈ entries, IsTree entry.2) : IsTree (.directory entries)

/-- What names lead to from the top of a tree. -/
def at? (disk : Disk) : List String → Option Disk
  | [] => some disk
  | name :: names => (disk.child? name).bind (·.at? names)

/-- Whether names lead to a file from the top of a tree. -/
def LeadsToFile (disk : Disk) (names : List String) : Prop :=
  ∃ file, disk.at? names = some file ∧ file.isFile = true

/-- What is on a disk is a directory with entries, or a file without any. -/
theorem eq_directory_or_isFile (disk : Disk) :
    (∃ entries, disk = directory entries) ∨ disk.isFile = true ∧ disk.entries? = none := by
  cases disk with
  | directory entries => exact .inl ⟨entries, rfl⟩
  | _ => exact .inr ⟨rfl, rfl⟩

/-- A directory is the root of a tree if its entries have different names and are trees themselves.
-/
@[simp] theorem isTree_directory_iff {entries : List (String × Disk)} :
    (directory entries).IsTree ↔
      (entries.map Prod.fst).Nodup ∧ ∀ entry ∈ entries, entry.2.IsTree := by
  constructor
  · intro h
    cases h with
    | directory hnodup hentries => exact ⟨hnodup, hentries⟩
  · rintro ⟨hnodup, hentries⟩
    exact .directory hnodup hentries

/-- In a tree the entry of a name is the one that stands under it. -/
theorem child?_eq_some_iff {entries : List (String × Disk)} {name : String} {entry : Disk}
    (h : (entries.map Prod.fst).Nodup) :
    (directory entries).child? name = some entry ↔ (name, entry) ∈ entries := by
  simp only [child?, entries?, Option.bind_some]
  -- the first entry of a name is the only one
  induction entries with
  | nil => simp
  | cons first rest ih =>
    obtain ⟨other, disk⟩ := first
    obtain ⟨hother, hrest⟩ := List.nodup_cons.1 h
    by_cases heq : other = name
    · subst heq
      have hnot : (other, entry) ∉ rest := fun hmem => hother (List.mem_map.2 ⟨_, hmem, rfl⟩)
      simp [hnot, eq_comm]
    · simp [heq, Ne.symm heq, ih hrest]

@[simp] theorem leadsToFile_nil {disk : Disk} : disk.LeadsToFile [] ↔ disk.isFile = true := by
  simp [LeadsToFile, at?]

/-- The first name leads to one of the entries, and the others lead on from there. -/
theorem leadsToFile_cons {entries : List (String × Disk)} {name : String} {names : List String}
    (h : (directory entries).IsTree) :
    (directory entries).LeadsToFile (name :: names) ↔
      ∃ entry, (name, entry) ∈ entries ∧ entry.LeadsToFile names := by
  have hchild (entry : Disk) : (directory entries).child? name = some entry ↔ _ :=
    child?_eq_some_iff (isTree_directory_iff.1 h).1
  simp only [LeadsToFile, at?, Option.bind_eq_some_iff, hchild]
  constructor
  · rintro ⟨file, ⟨entry, hmem, hat⟩, hfile⟩
    exact ⟨entry, hmem, file, hat, hfile⟩
  · rintro ⟨entry, hmem, file, hat, hfile⟩
    exact ⟨file, ⟨entry, hmem, hat⟩, hfile⟩

/-- A file has nothing below it. -/
theorem not_leadsToFile_cons {disk : Disk} (h : disk.isFile = true) (name : String)
    (names : List String) : ¬ disk.LeadsToFile (name :: names) := by
  obtain ⟨entries, rfl⟩ | ⟨-, hnone⟩ := disk.eq_directory_or_isFile
  · cases h
  · rintro ⟨file, hat, -⟩
    simp [at?, child?, hnone] at hat

end Disk

namespace Config

variable {config : Config} {wanted : String}

/-! ## The walk -/

/-- The entries searched are those whose names are not passed over. -/
theorem mem_searched_iff {entries : List (String × Disk)} {entry : String × Disk} :
    entry ∈ config.searched entries ↔ entry ∈ entries ∧ config.isPassedOver entry.1 = false := by
  simp [searched, List.mem_mergeSort]

/-- The entries of a directory are searched in the order of their names. -/
theorem pairwise_searched {entries : List (String × Disk)} (h : (entries.map Prod.fst).Nodup) :
    (config.searched entries).Pairwise fun a b => a.1 < b.1 := by
  let kept := entries.filter fun entry => !config.isPassedOver entry.1
  -- sorted and of different names, hence sorted strictly
  have hsorted : (config.searched entries).Pairwise fun a b => decide (a.1 ≤ b.1) = true := by
    apply List.pairwise_mergeSort
    · intro a b c hab hbc
      simp only [decide_eq_true_eq] at hab hbc ⊢
      exact String.le_trans hab hbc
    · intro a b
      simpa using String.le_total a.1 b.1
  have hdistinct : (config.searched entries).Pairwise fun a b => a.1 ≠ b.1 := by
    have hkept : (kept.map Prod.fst).Nodup := h.sublist (List.filter_sublist.map _)
    exact ((List.mergeSort_perm _ _).pairwise_iff Ne.symm).2 (List.pairwise_map.1 hkept)
  apply hsorted.imp₂ _ hdistinct
  intro a b hle hne
  exact Std.lt_of_le_of_ne (by simpa using hle) hne

theorem filesNamed_nil (levels : Nat) : config.filesNamed wanted levels [] = [] := by
  cases levels <;> simp [filesNamed, searched]

/-- The walk meets the files below one entry that it searches, and the entry itself. -/
theorem cons_mem_filesNamed_iff {levels : Nat} {entries : List (String × Disk)} {name : String}
    {names : List String} :
    name :: names ∈ config.filesNamed wanted (levels + 1) entries ↔
      ∃ entry, (name, entry) ∈ entries ∧ config.isPassedOver name = false ∧
        (entry.isFile = true ∧ name = wanted ∧ names = [] ∨
          names ∈ config.filesNamed wanted levels (entry.entries?.getD [])) := by
  simp only [filesNamed, List.mem_flatMap, mem_searched_iff, List.mem_append, List.mem_map]
  constructor
  -- at the entry itself, or below it
  · rintro ⟨⟨other, entry⟩, ⟨hmem, hpassed⟩, hfile | ⟨more, hmore, heq⟩⟩
    · split at hfile
      · next h =>
        simp only [Bool.and_eq_true, beq_iff_eq] at h
        obtain ⟨rfl, rfl⟩ := List.cons.inj (List.mem_singleton.1 hfile)
        exact ⟨entry, hmem, hpassed, .inl ⟨h.1, h.2, rfl⟩⟩
      · cases hfile
    · obtain ⟨rfl, rfl⟩ := List.cons.inj heq
      exact ⟨entry, hmem, hpassed, .inr hmore⟩
  · rintro ⟨entry, hmem, hpassed, ⟨hfile, rfl, rfl⟩ | hmore⟩
    · exact ⟨(name, entry), ⟨hmem, hpassed⟩, .inl (by simp [hfile])⟩
    · exact ⟨(name, entry), ⟨hmem, hpassed⟩, .inr ⟨names, hmore, rfl⟩⟩

/-- What is found has at least one name. -/
theorem nil_not_mem_filesNamed (levels : Nat) (entries : List (String × Disk)) :
    [] ∉ config.filesNamed wanted levels entries := by
  cases levels with
  | zero => simp [filesNamed]
  | succ levels =>
    simp only [filesNamed, List.mem_flatMap, List.mem_append, List.mem_map, not_exists, not_and,
      not_or]
    rintro ⟨name, entry⟩ -
    refine ⟨?_, by simp⟩
    split <;> simp

/-- The walk meets the files of the name that few enough names lead to, none of which is passed
over. -/
theorem mem_filesNamed_iff {levels : Nat} {entries : List (String × Disk)} {names : List String}
    (h : (Disk.directory entries).IsTree) :
    names ∈ config.filesNamed wanted levels entries ↔
      (Disk.directory entries).LeadsToFile names ∧ names.getLast? = some wanted ∧
        names.length ≤ levels ∧ ∀ name ∈ names, config.isPassedOver name = false := by
  induction levels generalizing entries names with
  | zero =>
    simp only [filesNamed, List.not_mem_nil, false_iff]
    rintro ⟨-, hlast, hlength, -⟩
    rw [List.eq_nil_of_length_eq_zero (Nat.le_zero.1 hlength)] at hlast
    cases hlast
  | succ levels ih =>
    cases names with
    | nil => simp [nil_not_mem_filesNamed]
    | cons name names =>
      -- what is met at and below one entry, from the tree that the entry is
      have hentry {entry : Disk} (hmem : (name, entry) ∈ entries) :
          (entry.isFile = true ∧ name = wanted ∧ names = [] ∨
            names ∈ config.filesNamed wanted levels (entry.entries?.getD [])) ↔
          entry.LeadsToFile names ∧ (name :: names).getLast? = some wanted ∧
            names.length ≤ levels ∧ ∀ name ∈ names, config.isPassedOver name = false := by
        have htree := (Disk.isTree_directory_iff.1 h).2 _ hmem
        cases names with
        | nil => simp [nil_not_mem_filesNamed]
        | cons next more =>
          rw [List.getLast?_cons_cons]
          obtain ⟨inner, rfl⟩ | ⟨hfile, hnone⟩ := entry.eq_directory_or_isFile
          · simp only [Disk.isFile, Bool.false_eq_true, false_and, false_or, Disk.entries?,
              Option.getD_some]
            exact ih htree
          · simp [hnone, filesNamed_nil, Disk.not_leadsToFile_cons hfile]
      rw [cons_mem_filesNamed_iff, Disk.leadsToFile_cons h, List.length_cons,
        Nat.add_le_add_iff_right, List.forall_mem_cons]
      constructor
      · rintro ⟨entry, hmem, hpassed, hmet⟩
        obtain ⟨hleads, hlast, hlength, hrest⟩ := (hentry hmem).1 hmet
        exact ⟨⟨entry, hmem, hleads⟩, hlast, hlength, hpassed, hrest⟩
      · rintro ⟨⟨entry, hmem, hleads⟩, hlast, hlength, hpassed, hrest⟩
        exact ⟨entry, hmem, hpassed, (hentry hmem).2 ⟨hleads, hlast, hlength, hrest⟩⟩

/-- Whether one way down comes before another: the first names that differ decide, and a way that
ends comes before those that go on. -/
abbrev Before : List String → List String → Prop :=
  List.Lex (· < ·)

/-- The walk meets files in the order of the names that lead to them. -/
theorem pairwise_filesNamed {levels : Nat} {entries : List (String × Disk)}
    (h : (Disk.directory entries).IsTree) :
    (config.filesNamed wanted levels entries).Pairwise Before := by
  induction levels generalizing entries with
  | zero => exact .nil
  | succ levels ih =>
    rw [filesNamed, List.pairwise_flatMap]
    constructor
    · rintro ⟨name, entry⟩ hmem
      have htree := (Disk.isTree_directory_iff.1 h).2 _ (mem_searched_iff.1 hmem).1
      obtain ⟨inner, rfl⟩ | ⟨hfile, hnone⟩ := entry.eq_directory_or_isFile
      · -- below one directory the first names are equal
        simp only [Disk.isFile, Disk.entries?, Bool.false_and, Bool.false_eq_true, if_false,
          List.nil_append, Option.getD_some]
        rw [List.pairwise_map]
        exact (ih htree).imp .cons
      · simp only [hnone, Option.getD_none, filesNamed_nil, List.map_nil, List.append_nil]
        split <;> simp
    · -- below different entries the first names decide
      apply (pairwise_searched (Disk.isTree_directory_iff.1 h).1).imp
      rintro ⟨name, entry⟩ ⟨other, next⟩ hlt
      have hfirst {name : String} {entry : Disk} {names : List String} (hmem : names ∈
          (if entry.isFile && name == wanted then [[name]] else []) ++
            (config.filesNamed wanted levels (entry.entries?.getD [])).map (name :: ·)) :
          ∃ more, names = name :: more := by
        rcases List.mem_append.1 hmem with hmem | hmem
        · split at hmem
          · exact ⟨[], List.mem_singleton.1 hmem⟩
          · cases hmem
        · obtain ⟨more, -, rfl⟩ := List.mem_map.1 hmem
          exact ⟨more, rfl⟩
      intro names hnames others hothers
      obtain ⟨more, rfl⟩ := hfirst hnames
      obtain ⟨more', rfl⟩ := hfirst hothers
      exact .rel hlt

/-! ## The first of the shortest -/

theorem shortest?_eq_none_iff {found : List (List String)} :
    shortest? found = none ↔ found = [] := by
  cases found with
  | nil => simp [shortest?]
  | cons names rest =>
    simp only [shortest?, reduceCtorEq, iff_false]
    split
    · split <;> simp
    · simp

/-- Of lists in order, the first of the shortest is the least of the shortest. -/
theorem shortest?_least {found : List (List String)} {best : List String}
    (hsorted : found.Pairwise Before) (h : shortest? found = some best) :
    best ∈ found ∧ ∀ names ∈ found, best.length ≤ names.length ∧
      (names.length = best.length → best = names ∨ Before best names) := by
  induction found generalizing best with
  | nil => cases h
  | cons first rest ih =>
    obtain ⟨hfirst, hrest⟩ := List.pairwise_cons.1 hsorted
    simp only [shortest?] at h
    cases hshortest : shortest? rest with
    | none =>
      rw [hshortest] at h
      obtain rfl := Option.some.inj h
      rw [shortest?_eq_none_iff.1 hshortest]
      simp
    | some later =>
      rw [hshortest] at h
      obtain ⟨hmem, hleast⟩ := ih hrest hshortest
      simp only at h
      split at h
      · next hlt =>
        -- something shorter comes later, so the first list does not count
        obtain rfl := Option.some.inj h
        refine ⟨List.mem_cons_of_mem _ hmem, fun names hnames => ?_⟩
        rcases List.mem_cons.1 hnames with rfl | hnames
        · exact ⟨Nat.le_of_lt hlt, fun heq => absurd heq (Nat.ne_of_gt hlt)⟩
        · exact hleast names hnames
      · next hle =>
        obtain rfl := Option.some.inj h
        refine ⟨List.mem_cons_self, fun names hnames => ?_⟩
        rcases List.mem_cons.1 hnames with rfl | hnames
        · exact ⟨Nat.le_refl _, fun _ => .inl rfl⟩
        · obtain ⟨hlength, -⟩ := hleast names hnames
          exact ⟨Nat.le_trans (Nat.le_of_not_lt hle) hlength, fun _ => .inr (hfirst names hnames)⟩

/-- Of two ways as short as each other the first counts, and what is shorter counts over both. -/
example : shortest? [["a", "b", "w"], ["c", "w"], ["d", "w"]] = some ["c", "w"] := by decide

/-! ## The entry file -/

/-- A file of the name that can be the entry: it is not too far down, and no directory on the way
is passed over. -/
structure IsCandidate (config : Config) (wanted : String) (tree : Disk) (names : List String) :
    Prop where
  file : tree.LeadsToFile names
  named : names.getLast? = some wanted
  depth : names.length ≤ config.entrySearchDepth
  way : ∀ name ∈ names.dropLast, config.isPassedOver name = false

/-- What is found below a project directory: the names that lead to the entry file, if the entry
is not where the settings say. -/
structure FindsShallowest (config : Config) (wanted : String) (tree : Disk)
    (found : Option (List String)) : Prop where
  isSome_iff : found.isSome = true ↔ ∃ names, config.IsCandidate wanted tree names
  candidate : ∀ names, found = some names → config.IsCandidate wanted tree names
  /-- No candidate is less deep, and of those as deep as it none comes before it. -/
  least : ∀ names, found = some names → ∀ others, config.IsCandidate wanted tree others →
    names.length ≤ others.length ∧
      (others.length = names.length → names = others ∨ Before names others)
  /-- The directory may stand anywhere on a disk, under any name. -/
  entryFile : ∀ (disk : Disk) (directory : FilePath) (place : Disk.Place),
    disk.locate directory = .ok place → place.here = tree →
      config.entryFile disk directory =
        if disk.hasFile (directory.join ⟨config.entry⟩) then
          some (directory.join ⟨config.entry⟩)
        else found.map fun names => names.foldl (fun path name => path.join ⟨name⟩) directory

/-- The walk meets the candidates, if the name that is searched is not passed over itself. -/
theorem mem_filesNamed_iff_isCandidate {entries : List (String × Disk)} {names : List String}
    (h : (Disk.directory entries).IsTree) (hkept : config.isPassedOver wanted = false) :
    names ∈ config.filesNamed wanted config.entrySearchDepth entries ↔
      config.IsCandidate wanted (.directory entries) names := by
  rw [mem_filesNamed_iff h]
  constructor
  · rintro ⟨hfile, hnamed, hdepth, hall⟩
    exact ⟨hfile, hnamed, hdepth, fun name hname => hall name (List.dropLast_subset _ hname)⟩
  · rintro ⟨hfile, hnamed, hdepth, hway⟩
    refine ⟨hfile, hnamed, hdepth, fun name hname => ?_⟩
    -- the last name is the one that is looked for, and that one is not passed over
    obtain ⟨front, rfl⟩ := List.getLast?_eq_some_iff.1 hnamed
    rcases List.mem_append.1 hname with hname | hname
    · exact hway name (by simpa using hname)
    · rw [List.mem_singleton.1 hname, hkept]

/-- The names that lead to the entry file that is found in a tree. -/
def foundNames? (config : Config) (wanted : String) (tree : Disk) : Option (List String) :=
  shortest? (config.filesNamed wanted config.entrySearchDepth (tree.entries?.getD []))

/-- Something is found in a tree that has a candidate, and in no other. -/
theorem isSome_foundNames?_iff {entries : List (String × Disk)}
    (h : (Disk.directory entries).IsTree) (hkept : config.isPassedOver wanted = false) :
    (config.foundNames? wanted (.directory entries)).isSome = true ↔
      ∃ names, config.IsCandidate wanted (.directory entries) names := by
  have hnone : config.foundNames? wanted (.directory entries) = none ↔
      config.filesNamed wanted config.entrySearchDepth entries = [] := shortest?_eq_none_iff
  rw [Option.isSome_iff_ne_none, Ne, hnone, List.eq_nil_iff_forall_not_mem,
    Classical.not_forall_not]
  exact exists_congr fun names => mem_filesNamed_iff_isCandidate h hkept

/-- What is found is a candidate, and the least of the shallowest. -/
theorem least_of_foundNames? {entries : List (String × Disk)} {names : List String}
    (h : (Disk.directory entries).IsTree) (hkept : config.isPassedOver wanted = false)
    (hfound : config.foundNames? wanted (.directory entries) = some names) :
    config.IsCandidate wanted (.directory entries) names ∧
      ∀ others, config.IsCandidate wanted (.directory entries) others →
        names.length ≤ others.length ∧
          (others.length = names.length → names = others ∨ Before names others) := by
  obtain ⟨hmem, hleast⟩ := shortest?_least (pairwise_filesNamed h) hfound
  exact ⟨(mem_filesNamed_iff_isCandidate h hkept).1 hmem,
    fun others hothers => hleast others ((mem_filesNamed_iff_isCandidate h hkept).2 hothers)⟩

/-- What is found below a directory is read off its tree, whatever leads to the directory. -/
theorem foundEntry_of_directory {disk : Disk} {directory : FilePath} {place : Disk.Place}
    (hname : (FilePath.mk config.entry).fileName? = some wanted)
    (hlocate : disk.locate directory = .ok place) (hdirectory : place.here.isFile = false) :
    config.foundEntry disk directory =
      (config.foundNames? wanted place.here).map fun names =>
        names.foldl (fun path name => path.join ⟨name⟩) directory := by
  rw [foundEntry, hname, hlocate]
  simp only [Except.toOption, hdirectory, Option.bind_eq_bind, Option.bind_some,
    Bool.false_eq_true, if_false]
  unfold foundNames?
  cases shortest? (config.filesNamed wanted config.entrySearchDepth
    (place.here.entries?.getD [])) <;> rfl

/-- The search finds the least of the shallowest files of the name of the entry, and it finds one
if there is one. What the project directory is called does not matter. -/
theorem findsShallowest_foundNames? {tree : Disk} (htree : tree.IsTree)
    (hdirectory : tree.isFile = false) (hname : (FilePath.mk config.entry).fileName? = some wanted)
    (hkept : config.isPassedOver wanted = false) :
    config.FindsShallowest wanted tree (config.foundNames? wanted tree) := by
  obtain ⟨entries, rfl⟩ | ⟨hfile, -⟩ := tree.eq_directory_or_isFile
  · constructor
    case isSome_iff => exact isSome_foundNames?_iff htree hkept
    case candidate =>
      intro names hfound
      exact (least_of_foundNames? htree hkept hfound).1
    case least =>
      intro names hfound
      exact (least_of_foundNames? htree hkept hfound).2
    case entryFile =>
      intro disk directory place hlocate hhere
      rw [Config.entryFile, foundEntry_of_directory hname hlocate (hhere ▸ hdirectory), hhere]
  · cases hdirectory.symm.trans hfile

/-- A project with files of one name in several places. The shallowest are not the first that are
met, some are in a directory that is passed over, and a directory has the name as well. -/
def crowdedTree : Disk :=
  .directory
    [("node_modules", .directory [("index.graphql", .file "type Passed")]),
      ("web", .directory [("index.graphql", .file "type Web")]),
      ("api", .directory
        [("index.graphql", .directory [("index.graphql", .file "type Nested")]),
          ("v1", .directory [("index.graphql", .file "type First")])]),
      ("server", .directory [("index.graphql", .binary), ("README", .file "")])]

/-- Of the files in a crowded tree the shallowest one is found. -/
theorem findsShallowest_foundNames?_crowded :
    crowdedTree.IsTree ∧ crowdedTree.isFile = false ∧
      (FilePath.mk ({} : Config).entry).fileName? = some "index.graphql" ∧
      ({} : Config).isPassedOver "index.graphql" = false ∧
      FindsShallowest {} "index.graphql" crowdedTree
        (foundNames? {} "index.graphql" crowdedTree) := by
  have htree : crowdedTree.IsTree := by simp [crowdedTree, Disk.IsTree.file, Disk.IsTree.binary]
  have hname : (FilePath.mk ({} : Config).entry).fileName? = some "index.graphql" := by
    decide +kernel
  have hkept : ({} : Config).isPassedOver "index.graphql" = false := by decide +kernel
  exact ⟨htree, rfl, hname, hkept, findsShallowest_foundNames? htree rfl hname hkept⟩

end Config

end SchemaAtlas
