import SchemaAtlas.FilePath.Normal

/-!
# Normal forms of joined paths

A path that is joined to another one is read from where the other one leads. So the steps of the
two follow each other, and what the first path comes to can be found before the second one is known:
its normal form may take its place.

* `pieces_append`          the pieces on both sides of a slash
* `foldl_follow_join`      where a joined path leads
* `normalize_join`         the first of two joined paths may be brought into its normal form
-/

namespace SchemaAtlas.FilePath

/-! ## Pieces -/

/-- Every text has a first piece. -/
theorem exists_pieces_eq_cons (cs : List Char) :
    ∃ first more, pieces cs = first :: more := by
  cases cs with
  | nil => exact ⟨[], [], rfl⟩
  | cons c cs =>
    rw [pieces]
    split
    · exact ⟨_, _, rfl⟩
    · split <;> exact ⟨_, _, rfl⟩

/-- A slash parts the pieces before it from those behind it. -/
theorem pieces_append (as bs : List Char) : pieces (as ++ '/' :: bs) = pieces as ++ pieces bs := by
  -- character by character, and each slash begins a new piece
  induction as with
  | nil => simp [pieces]
  | cons c as ih =>
    obtain ⟨first, more, hfirst⟩ := exists_pieces_eq_cons as
    rw [List.cons_append, pieces, pieces, ih, hfirst]
    split <;> rfl

/-! ## Steps -/

/-- The steps of a path but for a dot at its start. -/
def ownSteps (p : FilePath) : List Step :=
  (pieces p.text.toList).filterMap Step.ofPiece?

/-- A dot at the start of a path leads nowhere. -/
theorem foldl_follow_route (p : FilePath) (way : List Step) :
    p.route.steps.foldl Step.follow way = p.ownSteps.foldl Step.follow way := by
  simp only [route, ownSteps, List.foldl_append]
  split <;> rfl

/-- What a joined path is written as, if the second path does not start at the root. -/
theorem join_text {p q : FilePath} (hq : q.isAbsolute = false) :
    (p.text = "" ∧ (p.join q).text = q.text) ∨
      (∃ front, p.text.toList = front ++ ['/'] ∧
        (p.join q).text.toList = front ++ '/' :: q.text.toList) ∨
      (p.text ≠ "" ∧ (p.join q).text.toList = p.text.toList ++ '/' :: q.text.toList) := by
  by_cases hempty : p.text = ""
  · exact .inl ⟨hempty, by simp [join, hq, hempty]⟩
  by_cases hslash : p.text.toList.getLast? = some '/'
  · obtain ⟨front, hfront⟩ := List.getLast?_eq_some_iff.1 hslash
    exact .inr (.inl ⟨front, hfront, by simp [join, hq, hfront]⟩)
  · exact .inr (.inr ⟨hempty, by simp [join, hq, hempty, hslash]⟩)

/-- The steps of a joined path are those of the one path and then those of the other. -/
theorem ownSteps_join {p q : FilePath} (hq : q.isAbsolute = false) :
    (p.join q).ownSteps = p.ownSteps ++ q.ownSteps := by
  unfold ownSteps
  obtain ⟨hp, hjoin⟩ | ⟨front, hp, hjoin⟩ | ⟨-, hjoin⟩ := join_text (p := p) hq
  · rw [hjoin, hp]
    rfl
  · -- the slash is there already, and the piece behind it is empty
    have hnone : (pieces []).filterMap Step.ofPiece? = [] := rfl
    rw [hjoin, hp, pieces_append, pieces_append, List.filterMap_append, List.filterMap_append,
      hnone, List.append_nil]
  · rw [hjoin, pieces_append, List.filterMap_append]

/-- A joined path starts at the root if the first one does. -/
theorem isAbsolute_join {p q : FilePath} (hq : q.isAbsolute = false) :
    (p.join q).isAbsolute = p.isAbsolute := by
  obtain ⟨hp, hjoin⟩ | ⟨front, hp, hjoin⟩ | ⟨hp, hjoin⟩ := join_text (p := p) hq
  · have hempty : p.isAbsolute = false := by simp [isAbsolute, hp]
    rw [isAbsolute, hjoin, hempty]
    exact hq
  · rw [isAbsolute, hjoin, isAbsolute, hp]
    cases front <;> rfl
  · rw [isAbsolute, hjoin, isAbsolute]
    obtain ⟨c, cs, hcs⟩ := List.exists_cons_of_ne_nil (mt String.toList_eq_nil_iff.1 hp)
    rw [hcs]
    rfl

/-! ## Normal forms -/

/-- The way to a joined path goes on from the way to the first path. -/
theorem foldl_follow_join {p q : FilePath} (hq : q.isAbsolute = false) :
    (p.join q).route.steps.foldl Step.follow [] =
      q.ownSteps.foldl Step.follow (p.route.steps.foldl Step.follow []) := by
  rw [foldl_follow_route, ownSteps_join hq, List.foldl_append, ← foldl_follow_route p]

/-- The way to a path is the way to its normal form. -/
theorem foldl_follow_normalize (p : FilePath) :
    p.normalize.route.steps.foldl Step.follow [] = p.route.steps.foldl Step.follow [] := by
  rw [route_normalize, Route.normalize]
  exact (IsNormalWay.start.foldl p.route.steps).foldl_reverse

/-- The normal form of a path starts at the root if the path does. -/
theorem isAbsolute_normalize (p : FilePath) : p.normalize.isAbsolute = p.isAbsolute :=
  congrArg Route.rooted (route_normalize p)

/-- Paths have one normal form if both or neither start at the root and their steps lead the same
way. -/
theorem normalize_eq_of_foldl_follow {p q : FilePath} (hrooted : p.isAbsolute = q.isAbsolute)
    (hway : p.route.steps.foldl Step.follow [] = q.route.steps.foldl Step.follow []) :
    p.normalize = q.normalize := by
  have hroute : p.route.normalize = q.route.normalize := by
    rw [Route.normalize, Route.normalize, hway]
    exact congrArg (Route.mk · _) hrooted
  rw [normalize, hroute, normalize]

/-- The first of two joined paths may be brought into its normal form. -/
theorem normalize_join (p q : FilePath) :
    (p.join q).normalize = (p.normalize.join q).normalize := by
  cases hq : q.isAbsolute with
  | true =>
    -- a path from the root stands for itself
    have hjoin (a : FilePath) : a.join q = q := if_pos hq
    rw [hjoin, hjoin]
  | false =>
    apply normalize_eq_of_foldl_follow
    · rw [isAbsolute_join hq, isAbsolute_join hq, isAbsolute_normalize]
    · rw [foldl_follow_join hq, foldl_follow_join hq, foldl_follow_normalize]

/-- The empty path and one that ends in a slash take no slash of their own. -/
example : join ⟨""⟩ ⟨"./x"⟩ = ⟨"./x"⟩ ∧ join ⟨"a/"⟩ ⟨"x"⟩ = ⟨"a/x"⟩ ∧
    join ⟨"a"⟩ ⟨""⟩ = ⟨"a/"⟩ := by
  decide

end SchemaAtlas.FilePath
