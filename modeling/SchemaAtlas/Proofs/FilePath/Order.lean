import SchemaAtlas.FilePath.Normal

/-!
# The order of paths

Paths are ordered by their routes: total, transitive, and antisymmetric up to spelling. Normal
paths have one spelling each, so among them the order is linear.

* `le_iff`             the order, by what a route starts with and then by its steps
* `le_total`, `le_trans`
* `eq_of_le_of_le`     normal paths that come before each other are one path
-/

namespace SchemaAtlas.FilePath

/-! ## Steps -/

/-- Of two steps one comes before the other, or they are the same. -/
theorem Step.le_total (a b : Step) : a.le b = true ∨ b.le a = true := by
  cases a with
  | here => exact .inl rfl
  | up =>
    cases b with
    | here => exact .inr rfl
    | up => exact .inl rfl
    | down name => exact .inl rfl
  | down name =>
    cases b with
    | here => exact .inr rfl
    | up => exact .inr rfl
    | down other =>
      simp only [Step.le, decide_eq_true_eq]
      exact String.le_total name other

/-- A step that comes before another one comes before all that follow it. -/
theorem Step.le_trans {a b c : Step} (hab : a.le b = true) (hbc : b.le c = true) :
    a.le c = true := by
  -- what comes before a dot or a step up is one of the two
  cases a with
  | here => rfl
  | up =>
    cases b with
    | here => cases hab
    | up => exact hbc
    | down name =>
      cases c with
      | here => cases hbc
      | up => rfl
      | down other => rfl
  | down name =>
    cases b with
    | here => cases hab
    | up => cases hab
    | down other =>
      cases c with
      | here => cases hbc
      | up => cases hbc
      | down last =>
        simp only [Step.le, decide_eq_true_eq] at hab hbc ⊢
        exact String.le_trans hab hbc

/-- Steps that come before each other are the same. -/
theorem Step.le_antisymm {a b : Step} (hab : a.le b = true) (hba : b.le a = true) : a = b := by
  cases a with
  | here =>
    cases b with
    | here => rfl
    | up => cases hba
    | down name => cases hba
  | up =>
    cases b with
    | here => cases hab
    | up => rfl
    | down name => cases hba
  | down name =>
    cases b with
    | here => cases hab
    | up => cases hab
    | down other =>
      simp only [Step.le, decide_eq_true_eq] at hab hba
      rw [String.le_antisymm hab hba]

/-! ## Lists of steps -/

/-- Steps do not come behind themselves. -/
theorem Step.listLe_refl (as : List Step) : Step.listLe as as = true := by
  induction as with
  | nil => rfl
  | cons a as ih => rw [Step.listLe, if_pos rfl, ih]

/-- Of two lists of steps one comes before the other, or they are the same. -/
theorem Step.listLe_total (as bs : List Step) :
    Step.listLe as bs = true ∨ Step.listLe bs as = true := by
  induction as generalizing bs with
  | nil => exact .inl rfl
  | cons a as ih =>
    cases bs with
    | nil => exact .inr rfl
    | cons b bs =>
      -- the first difference decides
      by_cases hab : a = b
      · subst hab
        simpa [Step.listLe] using ih bs
      · simpa [Step.listLe, hab, Ne.symm hab] using Step.le_total a b

/-- Lists of steps that come before each other are the same. -/
theorem Step.listLe_antisymm {as bs : List Step} (hab : Step.listLe as bs = true)
    (hba : Step.listLe bs as = true) : as = bs := by
  induction as generalizing bs with
  | nil =>
    cases bs with
    | nil => rfl
    | cons b bs => cases hba
  | cons a as ih =>
    cases bs with
    | nil => cases hab
    | cons b bs =>
      -- the first step in which they differ decides, and it decides one way only
      by_cases h : a = b
      · subst h
        simp only [Step.listLe, if_true] at hab hba
        rw [ih hab hba]
      · simp only [Step.listLe, if_neg h, if_neg (Ne.symm h)] at hab hba
        exact absurd (Step.le_antisymm hab hba) h

/-- A list of steps that comes before another one comes before all that follow it. -/
theorem Step.listLe_trans {as bs cs : List Step} (hab : Step.listLe as bs = true)
    (hbc : Step.listLe bs cs = true) : Step.listLe as cs = true := by
  induction as generalizing bs cs with
  | nil => rfl
  | cons a as ih =>
    cases bs with
    | nil => cases hab
    | cons b bs =>
      cases cs with
      | nil => cases hbc
      | cons c cs =>
        -- the first difference is between the first two lists, or between the last two, or at one
        -- place for both
        by_cases hb : a = b
        · subst hb
          by_cases hc : a = c
          · subst hc
            simp only [Step.listLe, if_true] at hab hbc ⊢
            exact ih hab hbc
          · simpa [Step.listLe, hc] using hbc
        · simp only [Step.listLe, if_neg hb] at hab
          by_cases hc : b = c
          · subst hc
            simpa [Step.listLe, hb] using hab
          · simp only [Step.listLe, if_neg hc] at hbc
            -- the first steps differ, or the one in the middle would be both of them
            have hne : a ≠ c := by
              rintro rfl
              exact hb (Step.le_antisymm hab hbc)
            simpa [Step.listLe, hne] using Step.le_trans hab hbc

/-! ## Paths -/

/-- What a route starts with, in the order of paths: nothing at all, the root, or a step. -/
def Route.rank : Route → Nat
  | ⟨false, []⟩ => 0
  | ⟨true, _⟩ => 1
  | ⟨false, _ :: _⟩ => 2

/-- A path comes before another one by what their routes start with, and then by their steps. -/
theorem le_iff (p q : FilePath) :
    p.le q = true ↔ p.route.rank < q.route.rank ∨
      p.route.rank = q.route.rank ∧ Step.listLe p.route.steps q.route.steps = true := by
  unfold le
  rcases p.route with ⟨_ | _, _ | ⟨a, as⟩⟩ <;> rcases q.route with ⟨_ | _, _ | ⟨b, bs⟩⟩ <;>
    simp [Route.rank, Step.listLe]

/-- Of two paths one comes before the other, or they have one route. -/
theorem le_total (p q : FilePath) : p.le q = true ∨ q.le p = true := by
  rw [le_iff, le_iff]
  have hsteps := Step.listLe_total p.route.steps q.route.steps
  rcases Nat.lt_trichotomy p.route.rank q.route.rank with h | h | h
  · exact .inl (.inl h)
  · exact hsteps.imp (fun hle => .inr ⟨h, hle⟩) (fun hle => .inr ⟨h.symm, hle⟩)
  · exact .inr (.inl h)

/-- A path does not come behind itself. -/
theorem le_refl (p : FilePath) : p.le p = true :=
  (le_iff p p).2 (.inr ⟨rfl, Step.listLe_refl _⟩)

/-- A path that comes before another one comes before all that follow it. -/
theorem le_trans {p q r : FilePath} (hpq : p.le q = true) (hqr : q.le r = true) :
    p.le r = true := by
  rw [le_iff] at hpq hqr ⊢
  rcases hpq with hpq | ⟨hpq, hsteps⟩
  · rcases hqr with hqr | ⟨hqr, -⟩
    · exact .inl (Nat.lt_trans hpq hqr)
    · exact .inl (hqr ▸ hpq)
  · rcases hqr with hqr | ⟨hqr, hsteps'⟩
    · exact .inl (hpq ▸ hqr)
    · exact .inr ⟨hpq.trans hqr, Step.listLe_trans hsteps hsteps'⟩

/-- Paths that come before each other have one route. -/
theorem route_eq_of_le_of_le {p q : FilePath} (hpq : p.le q = true) (hqp : q.le p = true) :
    p.route = q.route := by
  rw [le_iff] at hpq hqp
  have hrank : p.route.rank = q.route.rank := by omega
  have hsteps : p.route.steps = q.route.steps :=
    Step.listLe_antisymm (hpq.resolve_left (by omega)).2 (hqp.resolve_left (by omega)).2
  -- routes of one rank with the same steps both start at the root, or neither does
  rcases hp : p.route with ⟨_ | _, _ | ⟨a, as⟩⟩ <;>
    rcases hq : q.route with ⟨_ | _, _ | ⟨b, bs⟩⟩ <;> simp_all [Route.rank]

/-- The steps of a normal path are plain. -/
theorem IsNormal.isPlain {p : FilePath} (hp : p.IsNormal) {step : Step}
    (h : step ∈ p.route.steps) : step.IsPlain := by
  rw [← hp, route_normalize] at h
  exact isPlain_normalize h

/-- Normal paths of one route are one path. -/
theorem eq_of_route {p q : FilePath} (hp : p.IsNormal) (hq : q.IsNormal)
    (h : p.route = q.route) : p = q :=
  calc p = p.normalize := hp.symm
    _ = q.normalize := by rw [normalize, normalize, h]
    _ = q := hq

/-- Normal paths that are compared as the same are one path. -/
theorem eq_of_same {p q : FilePath} (hp : p.IsNormal) (hq : q.IsNormal)
    (h : p.same q = true) : p = q :=
  eq_of_route hp hq (by simpa [same] using h)

/-- Normal paths that come before each other are one path. -/
theorem eq_of_le_of_le {p q : FilePath} (hp : p.IsNormal) (hq : q.IsNormal)
    (hpq : p.le q = true) (hqp : q.le p = true) : p = q :=
  eq_of_route hp hq (route_eq_of_le_of_le hpq hqp)

end SchemaAtlas.FilePath
