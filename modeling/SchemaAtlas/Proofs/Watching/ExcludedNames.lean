import SchemaAtlas.Proofs.Config.EntrySearch
import SchemaAtlas.Proofs.Config.Patterns
import SchemaAtlas.Proofs.FilePath.Below
import SchemaAtlas.Proofs.Lists
import SchemaAtlas.Watching.Change

/-!
# What lies below excluded directories

The pattern of a directory is about a name as a whole. It is met in the paths that lead through a
directory of this name, and longer names that begin or end with it do not count. The search for the
entry reads the same pattern as a name to pass over, so both agree: because of the pattern the
search does not go into directories of the name, and changes below such directories, and no others,
call for no rescan.

* `matchesPattern_iff_leadsThrough`      where the pattern is met
* `Config.mem_filesNamed_iff_without`    what the search leaves out because of it
* `Config.isRelevant_eq_without`         what changes do not count because of it
* `excludesName_of_not_mem`              the two next to each other
-/

namespace SchemaAtlas

/-- Whether a path leads through a directory of a name: one of its segments, but not the last one,
is the name. -/
def LeadsThrough (path name : String) : Prop :=
  name.toList ∈ (path.toList.splitOn '/').dropLast

instance (path name : String) : Decidable (LeadsThrough path name) :=
  inferInstanceAs (Decidable (_ ∈ _))

/-! ## Directories on the way -/

namespace FilePath

/-- The pieces of a path are what its slashes part. -/
theorem pieces_eq_splitOn (cs : List Char) : pieces cs = cs.splitOn '/' := by
  induction cs with
  | nil => rfl
  | cons c cs ih =>
    obtain ⟨first, more, hfirst⟩ := exists_pieces_eq_cons cs
    rw [pieces, List.splitOn_cons_eq_if_modifyHead, ← ih, hfirst]
    by_cases hc : c = '/' <;> simp [hc]

/-- The pieces of a joined path are those of its parts, but for an empty one where the first part
ends in a slash or is empty. -/
theorem exists_pieces_join (p : FilePath) {q : FilePath} (hq : q.isAbsolute = false) :
    ∃ front, pieces (p.join q).text.toList = front ++ pieces q.text.toList ∧
      ∀ piece, piece ≠ [] → (piece ∈ front ↔ piece ∈ pieces p.text.toList) := by
  have hempty {piece : List Char} (hne : piece ≠ []) : piece ∉ pieces [] := by
    simpa [pieces] using hne
  obtain ⟨hp, hjoin⟩ | ⟨front, hp, hjoin⟩ | ⟨-, hjoin⟩ := join_text (p := p) hq
  · refine ⟨[], by rw [hjoin, List.nil_append], fun piece hne => ?_⟩
    rw [hp]
    exact iff_of_false List.not_mem_nil (hempty hne)
  · refine ⟨pieces front, by rw [hjoin, pieces_append], fun piece hne => ?_⟩
    rw [hp, pieces_append, List.mem_append, or_iff_left (hempty hne)]
  · exact ⟨pieces p.text.toList, by rw [hjoin, pieces_append], fun _ _ => Iff.rfl⟩

/-- A joined path leads through the directories of its first part, and through what the second part
leads through. -/
theorem leadsThrough_join_iff {name : String} (hne : name ≠ "") (p : FilePath) {q : FilePath}
    (hq : q.isAbsolute = false) :
    LeadsThrough (p.join q).text name ↔
      name.toList ∈ pieces p.text.toList ∨ LeadsThrough q.text name := by
  obtain ⟨front, hpieces, hfront⟩ := exists_pieces_join p hq
  rw [LeadsThrough, LeadsThrough, ← pieces_eq_splitOn, ← pieces_eq_splitOn, hpieces,
    List.dropLast_append_of_ne_nil (pieces_ne_nil _), List.mem_append,
    hfront _ (by simpa using hne)]

/-- The name that a path ends in is one of its pieces. -/
theorem mem_pieces_of_fileName? {p : FilePath} {name : String} (h : p.fileName? = some name) :
    name.toList ∈ pieces p.text.toList ∧ name.toList ≠ [] := by
  have hstep : .down name ∈ p.route.steps := by
    unfold fileName? at h
    split at h
    · next other hlast =>
      obtain rfl := Option.some.inj h
      exact List.mem_of_getLast? hlast
    · cases h
  have hplain : (Step.down name).IsPlain := (isPlain_of_mem_steps hstep).resolve_left nofun
  refine ⟨(mem_pieces_iff hplain).2 hstep, fun hempty => ?_⟩
  rw [Step.IsPlain, Step.text, hempty] at hplain
  cases hplain.2

/-- What lies below a directory is reached through it, however the path of the directory is
written. -/
theorem leadsThrough_join {p q : FilePath} {name : String} (hp : p.fileName? = some name)
    (hq : q.isAbsolute = false) : LeadsThrough (p.join q).text name := by
  obtain ⟨hmem, hne⟩ := mem_pieces_of_fileName? hp
  exact (leadsThrough_join_iff (by simpa using hne) p hq).2 (.inl hmem)

/-- A directory of another name can be taken out of a path. -/
theorem leadsThrough_beside {name other : String} (hname : name ≠ "")
    (hother : '/' ∉ other.toList) (hne : other ≠ name) (p : FilePath) {q : FilePath}
    (hq : q.isAbsolute = false) :
    LeadsThrough ((p.join ⟨other⟩).join q).text name ↔ LeadsThrough (p.join q).text name := by
  have hrelative : isAbsolute ⟨other⟩ = false := by
    rw [isAbsolute, decide_eq_false_iff_not]
    exact fun hhead => hother (List.mem_of_mem_head? hhead)
  have hpiece : name.toList ∉ pieces other.toList := by
    rw [pieces_of_not_mem hother, List.mem_singleton, String.toList_inj]
    exact Ne.symm hne
  obtain ⟨front, hpieces, hfront⟩ := exists_pieces_join p hrelative
  rw [leadsThrough_join_iff hname _ hq, leadsThrough_join_iff hname _ hq, hpieces, List.mem_append,
    or_iff_left hpiece, hfront _ (by simpa using hname)]

end FilePath

/-! ## The pattern of a directory -/

variable {name : String}

/-- The pattern of a directory is met in the paths that lead through the directory. -/
theorem matchesPattern_iff_leadsThrough (hslash : '/' ∉ name.toList) (path : String) :
    matchesPattern path.toList (name ++ "/").toList = true ↔ LeadsThrough path name := by
  have hpattern : (name ++ "/").toList = name.toList ++ ['/'] := by simp
  rw [hpattern, matchesPattern_directory_iff hslash, FilePath.pieces_eq_splitOn, LeadsThrough]

namespace Config

variable {config : Config}

/-- The settings without one of their patterns. -/
def without (config : Config) (pattern : String) : Config :=
  { config with excluded := config.excluded.filter (· ≠ pattern) }

/-- Because of the pattern the search passes over what has the name. -/
theorem isPassedOver_iff_without (hslash : '/' ∉ name.toList)
    (hmem : name ++ "/" ∈ config.excluded) (other : String) :
    config.isPassedOver other = true ↔
      (config.without (name ++ "/")).isPassedOver other = true ∨ other = name := by
  have hname : withoutSlashes (name ++ "/").toList = name.toList := by
    simp [withoutSlashes_of_not_mem hslash]
  simp only [isPassedOver, Bool.or_eq_true, List.any_iff_of_mem hmem, without, hname,
    decide_eq_true_eq, String.toList_inj, or_assoc, eq_comm (a := name)]

/-- The search meets the files that it meets without the pattern, but for those of the name and
those below a directory of the name. -/
theorem mem_filesNamed_iff_without (hslash : '/' ∉ name.toList)
    (hmem : name ++ "/" ∈ config.excluded) (wanted : String) (levels : Nat)
    (entries : List (String × Disk)) (names : List String) :
    names ∈ config.filesNamed wanted levels entries ↔
      names ∈ (config.without (name ++ "/")).filesNamed wanted levels entries ∧
        name ∉ names := by
  -- directory by directory, each of which is passed over by its own name
  induction levels generalizing entries names with
  | zero => simp [filesNamed]
  | succ levels ih =>
    cases names with
    | nil => simp [nil_not_mem_filesNamed]
    | cons first rest =>
      have hpassed : config.isPassedOver first = false ↔
          (config.without (name ++ "/")).isPassedOver first = false ∧ name ≠ first := by
        rw [← Bool.not_eq_true, isPassedOver_iff_without hslash hmem, not_or, Bool.not_eq_true,
          ne_comm]
      simp only [cons_mem_filesNamed_iff, hpassed, ih, List.mem_cons, not_or]
      constructor
      · rintro ⟨entry, hentry, ⟨hkept, hne⟩, ⟨hfile, hwanted, rfl⟩ | ⟨hrest, hnot⟩⟩
        · exact ⟨⟨entry, hentry, hkept, .inl ⟨hfile, hwanted, rfl⟩⟩, hne, List.not_mem_nil⟩
        · exact ⟨⟨entry, hentry, hkept, .inr hrest⟩, hne, hnot⟩
      · rintro ⟨⟨entry, hentry, hkept, hfile | hrest⟩, hne, hnot⟩
        · exact ⟨entry, hentry, ⟨hkept, hne⟩, .inl hfile⟩
        · exact ⟨entry, hentry, ⟨hkept, hne⟩, .inr ⟨hrest, hnot⟩⟩

/-- A file matters if it matters without the pattern and its path does not lead through a directory
of the name. -/
theorem isWatched_iff_without (hslash : '/' ∉ name.toList) (hmem : name ++ "/" ∈ config.excluded)
    (path : String) :
    config.isWatched path = true ↔
      (config.without (name ++ "/")).isWatched path = true ∧ ¬LeadsThrough path name := by
  have hexcluded : config.isExcludedPath path = true ↔
      (config.without (name ++ "/")).isExcludedPath path = true ∨ LeadsThrough path name := by
    rw [← matchesPattern_iff_leadsThrough hslash]
    exact List.any_iff_of_mem hmem _
  rw [isWatched, isWatched, Bool.and_eq_true, Bool.and_eq_true, Bool.not_eq_true',
    Bool.not_eq_true', ← Bool.not_eq_true, ← Bool.not_eq_true, hexcluded, not_or, and_right_comm]
  rfl

/-- A change counts for what it counts without the pattern, once the paths through directories of
the name are taken out. -/
theorem isRelevant_eq_without (hslash : '/' ∉ name.toList) (hmem : name ++ "/" ∈ config.excluded)
    (change : Change) :
    config.isRelevant change =
      (config.without (name ++ "/")).isRelevant
        { change with paths := change.paths.filter fun path => ¬LeadsThrough path.text name } := by
  have hwatched (path : FilePath) : config.isWatched path.text =
      (decide (¬LeadsThrough path.text name) &&
        (config.without (name ++ "/")).isWatched path.text) := by
    rw [Bool.eq_iff_iff, isWatched_iff_without hslash hmem, Bool.and_eq_true, decide_eq_true_eq,
      and_comm]
  simp only [isRelevant, hwatched, List.any_filter]

/-- What the pattern of a directory of a name comes to in the settings of a project. -/
structure ExcludesName (config : Config) (name : String) : Prop where
  passesOver : ∀ other, config.isPassedOver other = true ↔
    (config.without (name ++ "/")).isPassedOver other = true ∨ other = name
  /-- The search leaves out what lies below a directory of the name, and nothing else but what has
  the name itself. -/
  searches : ∀ wanted levels entries names, names ∈ config.filesNamed wanted levels entries ↔
    names ∈ (config.without (name ++ "/")).filesNamed wanted levels entries ∧ name ∉ names
  /-- No change below a directory that is passed over for its name calls for a rescan. -/
  ignores : ∀ (directory file : FilePath) (kind : ChangeKind), directory.fileName? = some name →
    file.isAbsolute = false → config.isRelevant ⟨kind, [directory.join file]⟩ = false
  /-- What lies elsewhere counts as it does without the pattern. -/
  regards : ∀ change, config.isRelevant change =
    (config.without (name ++ "/")).isRelevant
      { change with paths := change.paths.filter fun path => ¬LeadsThrough path.text name }

end Config

/-- The pattern of a directory excludes by its whole name. It is met in the paths that have the name
for a segment other than the last, where directories of other names make no difference, be they
longer names that begin or end with it. So a change calls for no rescan below the directories that
the search passes over because of the pattern, and nowhere else is the pattern a reason. -/
theorem excludesName_of_not_mem {name : String} (hname : name ≠ "") (hslash : '/' ∉ name.toList) :
    (∀ path : String, matchesPattern path.toList (name ++ "/").toList = true ↔
        name.toList ∈ (path.toList.splitOn '/').dropLast) ∧
      (∀ other : String, '/' ∉ other.toList → other ≠ name → ∀ directory file : FilePath,
        file.isAbsolute = false →
          (LeadsThrough ((directory.join ⟨other⟩).join file).text name ↔
            LeadsThrough (directory.join file).text name)) ∧
      ∀ config : Config, name ++ "/" ∈ config.excluded → config.ExcludesName name := by
  refine ⟨matchesPattern_iff_leadsThrough hslash, ?_, ?_⟩
  · intro other hother hne directory file hfile
    exact FilePath.leadsThrough_beside hname hother hne directory hfile
  · intro config hmem
    constructor
    case passesOver => exact Config.isPassedOver_iff_without hslash hmem
    case searches => exact Config.mem_filesNamed_iff_without hslash hmem
    case ignores =>
      -- a path through the name is not watched, so no change of it is relevant
      intro directory file kind hdirectory hfile
      have hthrough := FilePath.leadsThrough_join hdirectory hfile
      rw [Config.isRelevant_eq_without hslash hmem, List.filter_singleton]
      simp [hthrough, Config.isRelevant]
    case regards => exact Config.isRelevant_eq_without hslash hmem

/-- A directory of an excluded name, and directories whose names hold it. -/
theorem excludesName_of_not_mem_target :
    "target" ≠ "" ∧ '/' ∉ "target".toList ∧ "target/" ∈ ({} : Config).excluded ∧
      ({} : Config).ExcludesName "target" ∧
      ({} : Config).isRelevant ⟨.modified, [FilePath.join ⟨"/w/target"⟩ ⟨"schema/a.graphql"⟩]⟩ =
        false ∧
      ({} : Config).isRelevant ⟨.modified, [⟨"/w/my-target/targets/a.graphql"⟩]⟩ = true := by
  have hname : "target" ≠ "" := by decide
  have hslash : '/' ∉ "target".toList := by decide
  have hmem : "target/" ∈ ({} : Config).excluded := by decide
  obtain ⟨-, -, hexcludes⟩ := excludesName_of_not_mem hname hslash
  have htarget := hexcludes {} hmem
  refine ⟨hname, hslash, hmem, htarget,
    htarget.ignores _ _ .modified (by decide +kernel) (by decide), ?_⟩
  rw [htarget.regards]
  decide +kernel

end SchemaAtlas
