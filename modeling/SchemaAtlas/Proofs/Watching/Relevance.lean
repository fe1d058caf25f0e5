import SchemaAtlas.Proofs.Config.Patterns
import SchemaAtlas.Proofs.FilePath.Below
import SchemaAtlas.Watching.Change

/-!
# Changes below a directory

The patterns of a project are about the files in it, and a change names a file by its path from the
root. So a pattern may be met in the path of the project itself, and then no change of a file in the
project calls for a rescan. Otherwise a change calls for one if the file matters by its path from
the project on.

* `isExcludedPath_join_iff`   the patterns in the two parts of a path
* `isRelevant_join_iff`       the changes that call for a rescan
-/

namespace SchemaAtlas

namespace Config

variable {config : Config} {directory file : FilePath}

/-- Whether a pattern of the settings is met in the path of a file below a directory from a place in
the path of the directory on. -/
def MeetsAbove (config : Config) (directory file : FilePath) : Prop :=
  ∃ pattern ∈ config.excluded,
    MeetsInside directory.ground.toList file.text.toList pattern.toList

/-- Whether all patterns of the settings are those of directories that have a name. -/
def ExcludesDirectories (config : Config) : Prop :=
  ∀ pattern ∈ config.excluded, ∃ name, (FilePath.Step.down name).IsPlain ∧ pattern = name ++ "/"

/-- Whether a directory on the way to another one has the name of an excluded one. -/
def ExcludesAbove (config : Config) (directory : FilePath) : Prop :=
  ∃ name, name ++ "/" ∈ config.excluded ∧ .down name ∈ directory.route.steps

/-! ## The patterns in the two parts of a path -/

/-- A file in a directory is excluded by its own path, or by what is met above it. -/
theorem isExcludedPath_join_iff (hdirectory : directory.isAbsolute = true)
    (hfile : file.isAbsolute = false) :
    config.isExcludedPath (directory.join file).text = true ↔
      config.isExcludedPath file.text = true ∨ config.MeetsAbove directory file := by
  have hslash := FilePath.getLast?_ground hdirectory
  have htext := FilePath.toList_join hdirectory hfile
  simp only [isExcludedPath, List.any_eq_true, htext, matchesPattern_append_iff hslash, MeetsAbove]
  constructor
  · rintro ⟨pattern, hmem, h | h⟩
    · exact .inl ⟨pattern, hmem, h⟩
    · exact .inr ⟨pattern, hmem, h⟩
  · rintro (⟨pattern, hmem, h⟩ | ⟨pattern, hmem, h⟩)
    · exact ⟨pattern, hmem, .inl h⟩
    · exact ⟨pattern, hmem, .inr h⟩

/-- The pattern of a directory excludes a file below a project where it excludes the file by its
path in the project, or where a directory on the way to the project has the name. -/
theorem matchesPattern_join_iff {name : String} (hdirectory : directory.isAbsolute = true)
    (hfile : file.isAbsolute = false) (hname : (FilePath.Step.down name).IsPlain) :
    matchesPattern (directory.join file).text.toList (name ++ "/").toList = true ↔
      matchesPattern file.text.toList (name ++ "/").toList = true ∨
        .down name ∈ directory.route.steps := by
  obtain ⟨front, hfront⟩ :=
    List.getLast?_eq_some_iff.1 (FilePath.getLast?_ground hdirectory)
  have hslash : '/' ∉ name.toList := hname.1
  have hpattern : (name ++ "/").toList = name.toList ++ ['/'] := by simp
  -- the names in front of the last slash are those of the directory and then those of the file
  have hground : FilePath.pieces directory.ground.toList = FilePath.pieces front ++ [[]] := by
    rw [hfront, FilePath.pieces_append]
    rfl
  rw [hpattern, matchesPattern_directory_iff hslash, matchesPattern_directory_iff hslash,
    FilePath.toList_join hdirectory hfile, ← FilePath.mem_pieces_ground_iff hdirectory hname,
    hground, hfront, List.append_assoc, List.singleton_append, FilePath.pieces_append,
    List.dropLast_append_of_ne_nil (pieces_ne_nil _), List.dropLast_concat, List.mem_append,
    or_comm]

/-- With patterns of directories only, what excludes a file by the path of its project is the name
of a directory on the way to the project. -/
theorem isExcludedPath_join_iff_of_directories (hdirectory : directory.isAbsolute = true)
    (hfile : file.isAbsolute = false) (hpatterns : config.ExcludesDirectories) :
    config.isExcludedPath (directory.join file).text = true ↔
      config.isExcludedPath file.text = true ∨ config.ExcludesAbove directory := by
  simp only [isExcludedPath, List.any_eq_true, ExcludesAbove]
  constructor
  · rintro ⟨pattern, hmem, h⟩
    obtain ⟨name, hname, rfl⟩ := hpatterns pattern hmem
    rcases (matchesPattern_join_iff hdirectory hfile hname).1 h with h | h
    · exact .inl ⟨_, hmem, h⟩
    · exact .inr ⟨name, hmem, h⟩
  · rintro (⟨pattern, hmem, h⟩ | ⟨name, hmem, h⟩)
    · obtain ⟨name, hname, rfl⟩ := hpatterns pattern hmem
      exact ⟨_, hmem, (matchesPattern_join_iff hdirectory hfile hname).2 (.inl h)⟩
    · obtain ⟨other, hother, heq⟩ := hpatterns _ hmem
      -- the pattern of a directory names no other one
      obtain rfl : name = other := String.append_left_inj "/" |>.1 heq
      exact ⟨_, hmem, (matchesPattern_join_iff hdirectory hfile hother).2 (.inr h)⟩

/-! ## Changes -/

/-- The extension of a file is the same from every directory, so only patterns make a difference
between its paths. -/
theorem isWatched_join_iff {reason : Prop} (hfile : file.isAbsolute = false)
    (hsteps : file.ownSteps ≠ [])
    (hexcluded : config.isExcludedPath (directory.join file).text = true ↔
      config.isExcludedPath file.text = true ∨ reason) :
    config.isWatched (directory.join file).text = true ↔
      config.isWatched file.text = true ∧ ¬reason := by
  have hextension : (directory.join file).extension? = file.extension? := by
    rw [FilePath.extension?, FilePath.fileName?_join hfile hsteps, FilePath.extension?]
  rw [isWatched, isWatched, Bool.and_eq_true, Bool.and_eq_true, Bool.not_eq_true',
    Bool.not_eq_true', ← Bool.not_eq_true, ← Bool.not_eq_true, hexcluded, hextension, not_or,
    and_right_comm]

/-- A change of a file in a project calls for a rescan if the file matters by its path in the
project and no pattern is met from a place in the path of the project on. If all patterns are those
of directories, this is to say that no directory on the way to the project has an excluded name. -/
theorem isRelevant_join_iff (config : Config) (directory : FilePath) (names : List String)
    (kind : ChangeKind) (hdirectory : directory.isAbsolute = true) (hne : names ≠ [])
    (hnames : ∀ name ∈ names, (FilePath.Step.down name).IsPlain) (hkind : kind.alters = true) :
    (config.isRelevant ⟨kind, [directory.join (.ofNames names)]⟩ = true ↔
        config.isWatched (FilePath.ofNames names).text = true ∧
          ¬config.MeetsAbove directory (.ofNames names)) ∧
      (config.ExcludesDirectories →
        (config.isRelevant ⟨kind, [directory.join (.ofNames names)]⟩ = true ↔
          config.isWatched (FilePath.ofNames names).text = true ∧
            ¬config.ExcludesAbove directory)) := by
  have hfile : (FilePath.ofNames names).isAbsolute = false :=
    congrArg FilePath.Route.rooted (FilePath.route_ofNames hnames)
  have hsteps : (FilePath.ofNames names).ownSteps ≠ [] := by
    rw [FilePath.ownSteps_ofNames hnames]
    simpa using hne
  -- of a change that alters files only the path matters
  have hrelevant : config.isRelevant ⟨kind, [directory.join (.ofNames names)]⟩ =
      config.isWatched (directory.join (.ofNames names)).text := by
    simp [isRelevant, hkind]
  rw [hrelevant]
  refine ⟨isWatched_join_iff hfile hsteps (isExcludedPath_join_iff hdirectory hfile), ?_⟩
  intro hpatterns
  exact isWatched_join_iff hfile hsteps
    (isExcludedPath_join_iff_of_directories hdirectory hfile hpatterns)

/-- The usual patterns. -/
theorem excludesDirectories_usual : ({} : Config).ExcludesDirectories := by
  intro pattern hpattern
  simp only [List.mem_cons, List.not_mem_nil, or_false] at hpattern
  rcases hpattern with rfl | rfl | rfl
  · exact ⟨"node_modules", ⟨by decide, by decide⟩, by decide⟩
  · exact ⟨".git", ⟨by decide, by decide⟩, by decide⟩
  · exact ⟨"target", ⟨by decide, by decide⟩, by decide⟩

/-- A project below a directory of an excluded name, and one below a directory whose name only
begins with it. -/
theorem isRelevant_join_iff_target :
    (∀ name ∈ ["schema", "a.graphql"], (FilePath.Step.down name).IsPlain) ∧
      ({} : Config).isWatched (FilePath.ofNames ["schema", "a.graphql"]).text = true ∧
      ({} : Config).ExcludesAbove ⟨"/home/target/shop"⟩ ∧
      ({} : Config).isRelevant ⟨.modified,
        [FilePath.join ⟨"/home/target/shop"⟩ (.ofNames ["schema", "a.graphql"])]⟩ = false ∧
      ¬({} : Config).ExcludesAbove ⟨"/home/targets/shop"⟩ ∧
      ({} : Config).isRelevant ⟨.modified,
        [FilePath.join ⟨"/home/targets/shop"⟩ (.ofNames ["schema", "a.graphql"])]⟩ = true := by
  have hnames : ∀ name ∈ ["schema", "a.graphql"], (FilePath.Step.down name).IsPlain := by
    intro name hname
    simp only [List.mem_cons, List.not_mem_nil, or_false] at hname
    rcases hname with rfl | rfl <;> exact ⟨by decide, by decide⟩
  have hwatched :
      ({} : Config).isWatched (FilePath.ofNames ["schema", "a.graphql"]).text = true := by
    decide +kernel
  have habove : ({} : Config).ExcludesAbove ⟨"/home/target/shop"⟩ :=
    ⟨"target", by decide, by decide +kernel⟩
  have hbeside : ¬({} : Config).ExcludesAbove ⟨"/home/targets/shop"⟩ := by
    rintro ⟨name, hname, hstep⟩
    have hsteps : (FilePath.mk "/home/targets/shop").route.steps =
        [.down "home", .down "targets", .down "shop"] := by decide +kernel
    simp only [hsteps, List.mem_cons, FilePath.Step.down.injEq, List.not_mem_nil, or_false] at hstep
    rcases hstep with rfl | rfl | rfl <;> exact absurd hname (by decide)
  have hiff := (isRelevant_join_iff {} ⟨"/home/target/shop"⟩ ["schema", "a.graphql"] .modified
    (by decide) (by decide) hnames rfl).2 excludesDirectories_usual
  have hiff' := (isRelevant_join_iff {} ⟨"/home/targets/shop"⟩ ["schema", "a.graphql"] .modified
    (by decide) (by decide) hnames rfl).2 excludesDirectories_usual
  exact ⟨hnames, hwatched, habove, Bool.eq_false_iff.2 fun h => (hiff.1 h).2 habove, hbeside,
    hiff'.2 ⟨hwatched, hbeside⟩⟩

/-- In a project below a directory of an excluded name, no change of a file that matters calls for a
rescan. -/
theorem not_isRelevant_below_excluded :
    ({} : Config).isWatched "a.graphql" = true ∧
      ({} : Config).isRelevant ⟨.modified, [FilePath.join ⟨"/home/target/shop"⟩ ⟨"a.graphql"⟩]⟩ =
        false := by
  decide +kernel

end Config

end SchemaAtlas
