import SchemaAtlas.FilePath.Normal

/-!
# What a path means

Read from left to right, a dot means nothing and a step up takes back the nearest name before it. A
step up that finds no name goes above where one stands: at the root it means nothing, and anywhere
else it is kept, however many there are. Without links this is where a path leads from every working
directory.

The normal form takes back the step before a step up whether or not it is a name. So what is left of
the steps up that find no name is one of them or none, as their number is odd or even, also at the
root.

* `route_lexical_eq`, `route_normalize_eq`   both readings, by the names that are left and the
  number of the steps up that find none
* `placeFrom_eq`                             where a path leads
* `lexical_eq_iff_placeFrom_eq`              paths that mean the same lead to the same places
* `normalize_of_isSettled`                   where the normal form is what the path means
-/

namespace SchemaAtlas.FilePath

/-! ## The meaning of a path -/

/-- A way, last step first, after one more step. -/
def Step.trace (rooted : Bool) (way : List Step) : Step → List Step
  | .here => way
  | .up => match way with
    | .down _ :: before => before
    | _ => if rooted then way else .up :: way
  | .down name => .down name :: way

/-- The steps that a route means. -/
def Route.lexical (r : Route) : Route :=
  { r with steps := (r.steps.foldl (Step.trace r.rooted) []).reverse }

/-- The plain spelling of what a path means. -/
def lexical (p : FilePath) : FilePath :=
  p.route.lexical.toFilePath

/-- The place that a step leads to, where a place is the names on the way down to it, last first.
Nothing is above the root. -/
def Step.go (place : List String) : Step → List String
  | .here => place
  | .up => place.tail
  | .down name => name :: place

/-- The place that a path leads to from a working directory, where there are no links. -/
def placeFrom (p : FilePath) (working : List String) : List String :=
  p.route.steps.foldl Step.go (if p.isAbsolute then [] else working)

/-! ## What is left of the steps -/

/-- What is left of some steps: how many steps up find no name to take back, and the names that are
not taken back, last first. -/
structure Reach where
  surplus : Nat
  names : List String

/-- What is left after one more step. -/
def Reach.follow (r : Reach) : Step → Reach
  | .here => r
  | .up => match r.names with
    | [] => { r with surplus := r.surplus + 1 }
    | _ :: before => { r with names := before }
  | .down name => { r with names := name :: r.names }

/-- What is left of the steps of a path. -/
def reach (p : FilePath) : Reach :=
  p.route.steps.foldl Reach.follow ⟨0, []⟩

/-- A number of steps up and then the names, last step first. -/
def way (ups : Nat) (names : List String) : List Step :=
  names.map .down ++ List.replicate ups .up

/-- Steps up and names can be told apart, since no name is a step up. -/
theorem way_inj {a b : Nat} {xs ys : List String} (h : way a xs = way b ys) : a = b ∧ xs = ys := by
  induction xs generalizing ys with
  | nil =>
    cases ys with
    | nil => simpa [way, List.replicate_inj] using h
    | cons y ys => cases a <;> simp [way, List.replicate_succ] at h
  | cons x xs ih =>
    cases ys with
    | nil => cases b <;> simp [way, List.replicate_succ] at h
    | cons y ys =>
      obtain ⟨hname, hrest⟩ : x = y ∧ way a xs = way b ys := by simpa [way] using h
      obtain ⟨hups, hnames⟩ := ih hrest
      exact ⟨hups, by rw [hname, hnames]⟩

/-- The steps up that are kept of those that find no name: none at the root. -/
def Reach.kept (r : Reach) (rooted : Bool) : Nat :=
  if rooted then 0 else r.surplus

/-- The way that a path means is made of what is left of its steps. -/
theorem Step.trace_way (rooted : Bool) (r : Reach) (step : Step) :
    step.trace rooted (way (r.kept rooted) r.names) =
      way ((r.follow step).kept rooted) (r.follow step).names := by
  obtain ⟨surplus, names⟩ := r
  cases step with
  | here => rfl
  | down name => rfl
  | up =>
    cases names with
    | cons name before => rfl
    | nil =>
      -- no name is left, so the way is steps up only
      cases rooted with
      | true => rfl
      | false => cases surplus <;> rfl

/-- The way to the normal form is made of the names that are left and of the steps up that are not
taken back. -/
theorem Step.follow_way (r : Reach) (step : Step) :
    step.follow (way (r.surplus % 2) r.names) =
      way ((r.follow step).surplus % 2) (r.follow step).names := by
  obtain ⟨surplus, names⟩ := r
  cases step with
  | here => rfl
  | down name => rfl
  | up =>
    cases names with
    | cons name before => rfl
    | nil =>
      -- a step up that was kept is taken back by the next one
      rcases Nat.mod_two_eq_zero_or_one surplus with h | h
      · simp [Reach.follow, way, Step.follow, h, Nat.add_mod]
      · simp [Reach.follow, way, Step.follow, h, Nat.add_mod]

/-- A place is made of the names that are left and of what is left of the working directory. -/
theorem Step.go_reach (working : List String) (r : Reach) (step : Step) :
    step.go (r.names ++ working.drop r.surplus) =
      (r.follow step).names ++ working.drop (r.follow step).surplus := by
  obtain ⟨surplus, names⟩ := r
  cases step with
  | here => rfl
  | down name => rfl
  | up =>
    cases names with
    | cons name before => rfl
    | nil => simp [Step.go, Reach.follow]

/-! ## The two readings of a path -/

/-- What every step makes of a reading as it makes it of what is left, the whole path does. -/
theorem foldl_steps {α : Type} (read : Reach → α) (next : α → Step → α)
    (h : ∀ r step, next (read r) step = read (r.follow step)) (p : FilePath) :
    p.route.steps.foldl next (read ⟨0, []⟩) = read p.reach :=
  List.foldl_hom read h

/-- The steps that a path means: the steps up that are kept of those that find no name, and the
names. -/
theorem route_lexical_eq (p : FilePath) :
    p.route.lexical =
      ⟨p.isAbsolute, (way (p.reach.kept p.isAbsolute) p.reach.names).reverse⟩ := by
  have hstart : way (Reach.kept ⟨0, []⟩ p.isAbsolute) [] = [] := by
    cases p.isAbsolute <;> rfl
  have hsteps := foldl_steps (fun r => way (r.kept p.isAbsolute) r.names)
    (Step.trace p.isAbsolute) (Step.trace_way p.isAbsolute) p
  rw [hstart] at hsteps
  exact congrArg (fun way => (⟨p.isAbsolute, way.reverse⟩ : Route)) hsteps

/-- The steps of the normal form: one step up or none, as the number of those that find no name is
odd or even, and the names. -/
theorem route_normalize_eq (p : FilePath) :
    p.route.normalize = ⟨p.isAbsolute, (way (p.reach.surplus % 2) p.reach.names).reverse⟩ := by
  have hsteps : p.route.steps.foldl Step.follow [] = way (p.reach.surplus % 2) p.reach.names :=
    foldl_steps (fun r => way (r.surplus % 2) r.names) Step.follow Step.follow_way p
  exact congrArg (fun way => (⟨p.isAbsolute, way.reverse⟩ : Route)) hsteps

/-- A path from the root leads to its names; any other leads to them from as far above the working
directory as it has steps up that find no name. -/
theorem placeFrom_eq (p : FilePath) (working : List String) :
    p.placeFrom working =
      p.reach.names ++ (if p.isAbsolute then [] else working).drop p.reach.surplus := by
  unfold placeFrom
  generalize (if p.isAbsolute then [] else working) = start
  exact foldl_steps (fun r => r.names ++ start.drop r.surplus) Step.go (Step.go_reach start) p

/-- The names that are left are among the steps. -/
theorem Reach.mem_steps_of_mem_names {steps : List Step} {r : Reach} {name : String}
    (h : name ∈ (steps.foldl Reach.follow r).names) : name ∈ r.names ∨ .down name ∈ steps := by
  -- a step adds its own name or none
  induction steps generalizing r with
  | nil => exact .inl h
  | cons step steps ih =>
    rcases ih h with h | h
    · cases step with
      | here => exact .inl h
      | down other =>
        rcases List.mem_cons.1 h with rfl | h
        · exact .inr (by simp)
        · exact .inl h
      | up =>
        obtain ⟨surplus, names⟩ := r
        cases names with
        | nil => exact .inl h
        | cons first before => exact .inl (List.mem_cons_of_mem _ h)
    · exact .inr (List.mem_cons_of_mem _ h)

/-- What a path means has a plain spelling. -/
theorem route_lexical (p : FilePath) : p.lexical.route = p.route.lexical := by
  apply route_toFilePath
  rw [route_lexical_eq]
  intro step hstep
  -- the names are names of the path, and the others are steps up
  rcases List.mem_append.1 (List.mem_reverse.1 hstep) with h | h
  · obtain ⟨name, hname, rfl⟩ := List.mem_map.1 h
    rcases Reach.mem_steps_of_mem_names hname with hname | hname
    · simp at hname
    · rcases isPlain_of_mem_steps hname with h | h
      · cases h
      · exact h
  · rw [List.eq_of_mem_replicate h]
    exact Step.isPlain_up

/-- Routes of this form are equal where their parts are. -/
theorem route_way_inj {rooted rooted' : Bool} {a b : Nat} {xs ys : List String} :
    (⟨rooted, (way a xs).reverse⟩ : Route) = ⟨rooted', (way b ys).reverse⟩ ↔
      rooted = rooted' ∧ a = b ∧ xs = ys := by
  constructor
  · intro h
    obtain ⟨hrooted, hway⟩ := Route.mk.inj h
    exact ⟨hrooted, way_inj (List.reverse_inj.1 hway)⟩
  · rintro ⟨rfl, rfl, rfl⟩
    rfl

/-- Two paths have one normal form where both or none start at the root, the same names are left,
and the numbers of steps up that find no name are both odd or both even. -/
theorem normalize_eq_normalize_iff {p q : FilePath} :
    p.normalize = q.normalize ↔
      p.isAbsolute = q.isAbsolute ∧ p.reach.surplus % 2 = q.reach.surplus % 2 ∧
        p.reach.names = q.reach.names := by
  rw [← route_way_inj, ← route_normalize_eq, ← route_normalize_eq]
  constructor
  · intro h
    rw [← route_normalize, h, route_normalize]
  · intro h
    rw [normalize, h, normalize]

/-- Two paths mean the same where both or none start at the root, the same names are left, and as
many steps up are kept. -/
theorem lexical_eq_lexical_iff {p q : FilePath} :
    p.lexical = q.lexical ↔
      p.isAbsolute = q.isAbsolute ∧ p.reach.kept p.isAbsolute = q.reach.kept q.isAbsolute ∧
        p.reach.names = q.reach.names := by
  rw [← route_way_inj, ← route_lexical_eq, ← route_lexical_eq]
  constructor
  · intro h
    rw [← route_lexical, h, route_lexical]
  · intro h
    rw [lexical, h, lexical]

/-- Two paths that both or neither start at the root mean the same where they lead to the same place
from every working directory. -/
theorem lexical_eq_iff_placeFrom_eq {p q : FilePath} (h : p.isAbsolute = q.isAbsolute) :
    p.lexical = q.lexical ↔ ∀ working, p.placeFrom working = q.placeFrom working := by
  rw [lexical_eq_lexical_iff]
  simp only [placeFrom_eq, Reach.kept, ← h, true_and]
  cases p.isAbsolute with
  | true => simp
  | false =>
    simp only [Bool.false_eq_true, if_false]
    constructor
    · rintro ⟨hsurplus, hnames⟩ working
      rw [hsurplus, hnames]
    · intro hplace
      -- from the root only the names show, and from deep enough the steps up do
      have hnames : p.reach.names = q.reach.names := by simpa using hplace []
      have hdeep := hplace (List.replicate (p.reach.surplus + q.reach.surplus) "")
      rw [hnames, List.append_cancel_left_eq, List.drop_replicate, List.drop_replicate,
        List.replicate_inj] at hdeep
      exact ⟨by omega, hnames⟩

/-! ## Where the normal form is what a path means -/

/-- Whether no kept step up is taken back and none is kept at the root: of the steps up that find no
name a path from the root has an even number, and any other path has one at most. -/
def IsSettled (p : FilePath) : Prop :=
  if p.isAbsolute = true then p.reach.surplus % 2 = 0 else p.reach.surplus ≤ 1

instance (p : FilePath) : Decidable p.IsSettled :=
  inferInstanceAs (Decidable
    (if p.isAbsolute = true then p.reach.surplus % 2 = 0 else p.reach.surplus ≤ 1))

/-- A path is settled where the steps up that its normal form has are those that the path means. -/
theorem isSettled_iff {p : FilePath} :
    p.IsSettled ↔ p.reach.surplus % 2 = p.reach.kept p.isAbsolute := by
  unfold IsSettled Reach.kept
  split
  · rfl
  · omega

/-- Settled paths are the ones that keep their meaning. -/
theorem normalize_eq_lexical_iff {p : FilePath} : p.normalize = p.lexical ↔ p.IsSettled := by
  have hroutes : p.normalize = p.lexical ↔ p.route.normalize = p.route.lexical := by
    constructor
    · intro h
      rw [← route_normalize, h, route_lexical]
    · intro h
      rw [normalize, h, lexical]
  rw [hroutes, route_normalize_eq, route_lexical_eq, route_way_inj, isSettled_iff]
  simp

/-- A path and its normal form have the same names left, and of the steps up that find no name the
path means all, or none at the root, where the normal form has one of them or none as their number
is odd or even. So the normal form is what the path means exactly where the path is settled, and two
settled paths that both or neither start at the root have one normal form exactly where they lead to
the same place from every working directory. -/
theorem normalize_of_isSettled (p q : FilePath) :
    p.lexical.route = ⟨p.isAbsolute, (way (p.reach.kept p.isAbsolute) p.reach.names).reverse⟩ ∧
    p.normalize.route = ⟨p.isAbsolute, (way (p.reach.surplus % 2) p.reach.names).reverse⟩ ∧
    (p.normalize = p.lexical ↔ p.IsSettled) ∧
    (p.IsSettled → q.IsSettled → p.isAbsolute = q.isAbsolute →
      (p.normalize = q.normalize ↔ ∀ working, p.placeFrom working = q.placeFrom working)) := by
  refine ⟨?_, ?_, normalize_eq_lexical_iff, fun hp hq hrooted => ?_⟩
  · rw [route_lexical, route_lexical_eq]
  · rw [route_normalize, route_normalize_eq]
  · rw [normalize_eq_lexical_iff.2 hp, normalize_eq_lexical_iff.2 hq,
      lexical_eq_iff_placeFrom_eq hrooted]

/-- Two spellings of a path to a sibling have the same normal form, and name the same place. -/
theorem normalize_of_isSettled_sibling :
    (IsSettled ⟨"../a/.//b/../../x"⟩ ∧ IsSettled ⟨"./../x"⟩) ∧
    (normalize ⟨"../a/.//b/../../x"⟩ = lexical ⟨"../a/.//b/../../x"⟩ ∧
      (normalize ⟨"../a/.//b/../../x"⟩ = normalize ⟨"./../x"⟩ ↔
        ∀ working, placeFrom ⟨"../a/.//b/../../x"⟩ working = placeFrom ⟨"./../x"⟩ working)) := by
  have hsettled : IsSettled ⟨"../a/.//b/../../x"⟩ ∧ IsSettled ⟨"./../x"⟩ := by decide
  obtain ⟨-, -, hmeaning, hplace⟩ := normalize_of_isSettled ⟨"../a/.//b/../../x"⟩ ⟨"./../x"⟩
  exact ⟨hsettled, hmeaning.2 hsettled.1, hplace hsettled.1 hsettled.2 (by decide)⟩

/-- A second step up takes back the first one, so a file two directories above has the normal form
of a file beside; and at the root a step up is kept, so one file there has two normal forms. -/
theorem normalize_climbing :
    (normalize ⟨"../../x"⟩ = normalize ⟨"x"⟩ ∧ lexical ⟨"../../x"⟩ = ⟨"../../x"⟩ ∧
      placeFrom ⟨"../../x"⟩ ["c", "b", "a"] ≠ placeFrom ⟨"x"⟩ ["c", "b", "a"]) ∧
    (normalize ⟨"/../x"⟩ ≠ normalize ⟨"/x"⟩ ∧ lexical ⟨"/../x"⟩ = ⟨"/x"⟩ ∧
      ∀ working, placeFrom ⟨"/../x"⟩ working = placeFrom ⟨"/x"⟩ working) := by
  refine ⟨by decide, by decide, by decide, fun working => ?_⟩
  rfl

end SchemaAtlas.FilePath
