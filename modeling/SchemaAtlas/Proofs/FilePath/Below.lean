import Mathlib.Data.List.Basic
import SchemaAtlas.Proofs.FilePath.Joining

/-!
# Paths below a directory

The path of a file below a directory is the path of the directory, a slash, and the path of the file
as it reads from the directory.

* `toList_join`             the two parts of the path
* `fileName?_join`          the name of the file is the same from every directory
* `mem_pieces_ground_iff`   the pieces of the first part are the names of directories
-/

namespace SchemaAtlas.FilePath

variable {p q : FilePath}

/-- The path that leads along directories to a file, by their names. -/
def ofNames (names : List String) : FilePath :=
  Route.toFilePath { rooted := false, steps := names.map .down }

/-- What the paths below a directory start with. -/
def ground (p : FilePath) : String :=
  (p.join ⟨""⟩).text

/-- The route along names has these names for its steps. -/
theorem route_ofNames {names : List String} (h : ∀ name ∈ names, (Step.down name).IsPlain) :
    (ofNames names).route = ⟨false, names.map .down⟩ := by
  refine route_toFilePath fun step hstep => ?_
  obtain ⟨name, hname, rfl⟩ := List.mem_map.1 hstep
  exact h name hname

/-- The steps of the path along names are these names. -/
theorem ownSteps_ofNames {names : List String} (h : ∀ name ∈ names, (Step.down name).IsPlain) :
    (ofNames names).ownSteps = names.map .down := by
  have hsteps := congrArg Route.steps (route_ofNames h)
  simp only [route] at hsteps
  split at hsteps
  · -- no name is a dot
    cases names with
    | nil => cases hsteps
    | cons name names => cases (List.cons.inj hsteps).1
  · exact hsteps

/-! ## Joined paths -/

/-- A path that starts at the root is not empty. -/
theorem text_ne_of_isAbsolute (hp : p.isAbsolute = true) : p.text ≠ "" := by
  intro hempty
  rw [isAbsolute, hempty] at hp
  cases hp

/-- What the paths below a directory start with is the directory's own path with a slash at its
end, whether or not it is written with one. -/
theorem toList_ground (hp : p.isAbsolute = true) :
    (p.text.toList.getLast? = some '/' ∧ p.ground.toList = p.text.toList) ∨
      (p.text.toList.getLast? ≠ some '/' ∧ p.ground.toList = p.text.toList ++ ['/']) := by
  have hne := text_ne_of_isAbsolute hp
  have hempty : isAbsolute ⟨""⟩ = false := rfl
  by_cases hslash : p.text.toList.getLast? = some '/'
  · exact .inl ⟨hslash, by simp [ground, join, hempty, hslash]⟩
  · exact .inr ⟨hslash, by simp [ground, join, hempty, hne, hslash]⟩

/-- What the paths below a directory start with ends with a slash. -/
theorem getLast?_ground (hp : p.isAbsolute = true) : p.ground.toList.getLast? = some '/' := by
  obtain ⟨hslash, hground⟩ | ⟨-, hground⟩ := toList_ground hp
  · rw [hground, hslash]
  · rw [hground, List.getLast?_concat]

/-- The path of a file below a directory is what these paths start with, and then the path of the
file. -/
theorem toList_join (hp : p.isAbsolute = true) (hq : q.isAbsolute = false) :
    (p.join q).text.toList = p.ground.toList ++ q.text.toList := by
  obtain ⟨hslash, hground⟩ | ⟨hslash, hground⟩ := toList_ground hp
  · rw [hground, join, hq]
    simp [hslash]
  · rw [hground, join, hq]
    simp [hslash, text_ne_of_isAbsolute hp]

/-- The last step of a path is the last one of its own steps. -/
theorem getLast?_route (h : p.ownSteps ≠ []) :
    p.route.steps.getLast? = p.ownSteps.getLast? :=
  List.getLast?_append_of_ne_nil _ h

/-- The name of a file does not depend on the directory from which its path is read. -/
theorem fileName?_join (hq : q.isAbsolute = false) (hsteps : q.ownSteps ≠ []) :
    (p.join q).fileName? = q.fileName? := by
  have hne : p.ownSteps ++ q.ownSteps ≠ [] := List.append_ne_nil_of_right_ne_nil _ hsteps
  have hlast : (p.join q).route.steps.getLast? = q.route.steps.getLast? := by
    rw [getLast?_route (ownSteps_join hq ▸ hne), getLast?_route hsteps, ownSteps_join hq,
      List.getLast?_append_of_ne_nil _ hsteps]
  rw [fileName?, hlast, fileName?]

/-- A name is written as the piece that reads as it. -/
theorem toList_of_ofPiece? {piece : List Char} {name : String}
    (h : Step.ofPiece? piece = some (.down name)) : name.toList = piece := by
  unfold Step.ofPiece? at h
  split at h
  · cases h
  · split at h
    · cases h
    · obtain rfl := Step.down.inj (Option.some.inj h)
      exact String.toList_ofList

/-- A name is a piece of a path where it is a step. -/
theorem mem_pieces_iff {name : String} (hname : (Step.down name).IsPlain) :
    name.toList ∈ pieces p.text.toList ↔ .down name ∈ p.route.steps := by
  constructor
  · intro h
    exact List.mem_append_right _ (List.mem_filterMap.2 ⟨_, h, hname.2⟩)
  · intro h
    rcases List.mem_append.1 h with h | h
    · split at h <;> simp at h
    · obtain ⟨piece, hpiece, hstep⟩ := List.mem_filterMap.1 h
      rwa [toList_of_ofPiece? hstep]

/-- The pieces of what the paths below a directory start with are those of the directory's own path,
and an empty one. -/
theorem mem_pieces_ground_iff (hp : p.isAbsolute = true) {name : String}
    (hname : (Step.down name).IsPlain) :
    name.toList ∈ (pieces p.ground.toList).dropLast ↔ .down name ∈ p.route.steps := by
  have hne : name.toList ≠ [] := by
    intro hempty
    rw [Step.IsPlain, Step.text, hempty] at hname
    cases hname.2
  -- a slash at the end adds one empty piece, which is no name
  have hconcat (cs : List Char) : pieces (cs ++ ['/']) = pieces cs ++ [[]] := pieces_append cs []
  rw [← mem_pieces_iff hname]
  obtain ⟨hslash, hground⟩ | ⟨-, hground⟩ := toList_ground hp
  · obtain ⟨front, hfront⟩ := List.getLast?_eq_some_iff.1 hslash
    rw [hground, hfront, hconcat, List.dropLast_concat, List.mem_append, List.mem_singleton,
      or_iff_left hne]
  · rw [hground, hconcat, List.dropLast_concat]

end SchemaAtlas.FilePath
