import SchemaAtlas.FilePath.Basic

/-!
# Normal paths

The normal form of a path has no dots and at most one step up, at its start: a step up takes back
the step before it, and where there is nothing to take back it is kept. A kept step up is taken
back by the next one like any other, so `../../x` has the normal form `x`.

* `route_toFilePath`      the plain spelling of a plain route has that route
* `normalize_normalize`   a normal form is its own normal form
-/

namespace SchemaAtlas.FilePath

/-- A way, last step first, after one more step. -/
def Step.follow (way : List Step) : Step → List Step
  | .here => way
  | .up => match way with
    | [] => [.up]
    | _ :: before => before
  | .down name => .down name :: way

/-- A route without dots and without steps that are taken back. -/
def Route.normalize (r : Route) : Route :=
  { r with steps := (r.steps.foldl Step.follow []).reverse }

/-- The normal form of a path. -/
def normalize (p : FilePath) : FilePath :=
  p.route.normalize.toFilePath

/-- Whether a path is its own normal form. -/
def IsNormal (p : FilePath) : Prop :=
  p.normalize = p

instance (p : FilePath) : Decidable p.IsNormal :=
  inferInstanceAs (Decidable (_ = _))

/-! ## Plain routes -/

/-- Whether a step is written as a piece that reads as this step wherever it stands. -/
def Step.IsPlain (step : Step) : Prop :=
  '/' ∉ step.text.toList ∧ Step.ofPiece? step.text.toList = some step

/-- A step up is written as two dots, which read as it. -/
theorem Step.isPlain_up : Step.IsPlain .up := by
  refine ⟨by decide, by decide⟩

/-- A text without a slash is one piece. -/
theorem pieces_of_not_mem {piece : List Char} (h : '/' ∉ piece) : pieces piece = [piece] := by
  induction piece with
  | nil => rfl
  | cons c rest ih =>
    simp only [List.mem_cons, not_or] at h
    rw [pieces, if_neg (Ne.symm h.1), ih h.2]

/-- The first piece of a text goes up to the first slash. -/
theorem pieces_append_slash {piece : List Char} (h : '/' ∉ piece) (rest : List Char) :
    pieces (piece ++ '/' :: rest) = piece :: pieces rest := by
  induction piece with
  | nil => simp [pieces]
  | cons c cs ih =>
    simp only [List.mem_cons, not_or] at h
    rw [List.cons_append, pieces, if_neg (Ne.symm h.1), ih h.2]

/-- Pieces that are joined by slashes are the pieces of the joined text. -/
theorem pieces_joinPieces {ps : List (List Char)} (h : ∀ p ∈ ps, '/' ∉ p) (hne : ps ≠ []) :
    pieces (joinPieces ps) = ps := by
  induction ps with
  | nil => exact absurd rfl hne
  | cons p ps ih =>
    cases ps with
    | nil => exact pieces_of_not_mem (h p (by simp))
    | cons q qs =>
      rw [joinPieces, pieces_append_slash (h p (by simp)),
        ih (fun x hx => h x (List.mem_cons_of_mem _ hx)) (by simp)]

/-- The pieces of a text hold no slash. -/
theorem not_mem_of_mem_pieces {cs piece : List Char} (h : piece ∈ pieces cs) : '/' ∉ piece := by
  -- character by character, and a slash goes into no piece
  induction cs generalizing piece with
  | nil => simp [pieces] at h; simp [h]
  | cons c rest ih =>
    rw [pieces] at h
    split at h
    · rcases List.mem_cons.1 h with rfl | h
      · simp
      · exact ih h
    · next hc =>
      split at h
      · next first more heq =>
        rcases List.mem_cons.1 h with rfl | h
        · simp only [List.mem_cons, not_or]
          exact ⟨Ne.symm hc, ih (by simp [heq])⟩
        · exact ih (by simp [heq, h])
      · simp only [List.mem_singleton] at h
        simp [h, Ne.symm hc]

/-- Steps that are read from a text are plain, but for a dot at its start. -/
theorem isPlain_of_mem_steps {p : FilePath} {step : Step} (h : step ∈ p.route.steps) :
    step = .here ∨ step.IsPlain := by
  simp only [route, List.mem_append] at h
  rcases h with h | h
  · split at h <;> simp_all
  · obtain ⟨piece, hmem, hstep⟩ := List.mem_filterMap.1 h
    refine .inr ?_
    have hslash := not_mem_of_mem_pieces hmem
    have htext : step.text.toList = piece := by
      simp only [Step.ofPiece?] at hstep
      split at hstep
      · simp at hstep
      · split at hstep
        · next hp => simp at hstep; simp [← hstep, Step.text, hp]
        · simp at hstep; simp [← hstep, Step.text]
    exact ⟨htext ▸ hslash, htext ▸ hstep⟩

/-- What remains of a way was on it or is a step up. -/
theorem mem_foldl_follow {steps way : List Step} {step : Step}
    (h : step ∈ steps.foldl Step.follow way) :
    step ∈ way ∨ step = .up ∨ (step ∈ steps ∧ step ≠ .here) := by
  -- a step up takes the last step back, or is kept itself
  induction steps generalizing way with
  | nil => exact .inl h
  | cons s steps ih =>
    rcases ih h with h | h | ⟨h, hne⟩
    · cases s with
      | here => exact .inl h
      | up =>
        cases way with
        | nil => simp [Step.follow] at h; exact .inr (.inl h)
        | cons w way => exact .inl (List.mem_cons_of_mem _ h)
      | down name =>
        rcases List.mem_cons.1 h with rfl | h
        · exact .inr (.inr ⟨by simp, by simp⟩)
        · exact .inl h
    · exact .inr (.inl h)
    · exact .inr (.inr ⟨List.mem_cons_of_mem _ h, hne⟩)

/-- The steps of a normal form are plain. -/
theorem isPlain_normalize {p : FilePath} {step : Step} (h : step ∈ p.route.normalize.steps) :
    step.IsPlain := by
  rcases mem_foldl_follow (List.mem_reverse.1 h) with h | h | ⟨h, hne⟩
  · simp at h
  · exact h ▸ Step.isPlain_up
  · rcases isPlain_of_mem_steps h with h | h
    · exact absurd h hne
    · exact h

/-- The plain spelling of a plain route has that route. -/
theorem route_toFilePath {r : Route} (h : ∀ step ∈ r.steps, step.IsPlain) :
    r.toFilePath.route = r := by
  obtain ⟨rooted, steps⟩ := r
  have hslash : ∀ piece ∈ steps.map fun step => step.text.toList, '/' ∉ piece := by
    intro piece hp
    obtain ⟨step, hs, rfl⟩ := List.mem_map.1 hp
    exact (h step hs).1
  have hsteps : (steps.map fun step => step.text.toList).filterMap Step.ofPiece? = steps := by
    rw [List.filterMap_map]
    have : ∀ step ∈ steps, (Step.ofPiece? ∘ fun step => step.text.toList) step = some step :=
      fun step hs => (h step hs).2
    clear hslash h
    induction steps with
    | nil => rfl
    | cons s steps ih =>
      rw [List.filterMap_cons_some (this s (by simp)),
        ih fun x hx => this x (List.mem_cons_of_mem _ hx)]
  have hfirst : (steps.map fun step => step.text.toList).head? ≠ some ['.'] := by
    cases steps with
    | nil => simp
    | cons s steps =>
      intro heq
      have hp := (h s (by simp)).2
      simp only [List.map_cons, List.head?_cons, Option.some.injEq] at heq
      simp [heq, Step.ofPiece?] at hp
  have hempty : ∀ s ∈ steps, s.text.toList ≠ [] := by
    intro s hs heq
    have hp := (h s hs).2
    simp [heq, Step.ofPiece?] at hp
  cases rooted with
  | true =>
    have hpieces : pieces ('/' :: joinPieces (steps.map fun step => step.text.toList)) =
        [] :: pieces (joinPieces (steps.map fun step => step.text.toList)) := by simp [pieces]
    simp only [route, Route.toFilePath, isAbsolute, if_true, String.toList_ofList, hpieces]
    cases steps with
    | nil => simp [joinPieces, pieces, Step.ofPiece?]
    | cons s steps =>
      rw [pieces_joinPieces hslash (by simp)]
      simp only [List.head?_cons, Option.some.injEq, List.nil_eq, List.cons_ne_nil, if_false,
        List.nil_append, decide_true, Route.mk.injEq, true_and]
      rw [List.filterMap_cons_none (by simp [Step.ofPiece?]), hsteps]
  | false =>
    simp only [route, Route.toFilePath, isAbsolute, Bool.false_eq_true, if_false,
      String.toList_ofList]
    cases steps with
    | nil => simp [joinPieces, pieces, Step.ofPiece?]
    | cons s steps =>
      have hhead :
          (joinPieces ((s :: steps).map fun step => step.text.toList)).head? ≠ some '/' := by
        have hs := hempty s (by simp)
        have hm := hslash s.text.toList (by simp)
        obtain ⟨c, cs, hc⟩ := List.exists_cons_of_ne_nil hs
        cases steps <;> simp [joinPieces, hc] <;> rintro rfl <;> simp [hc] at hm
      rw [pieces_joinPieces hslash (by simp), hsteps, if_neg hfirst, decide_eq_false hhead]
      rfl

/-- A way that starts with at most one step up and goes down from there. -/
inductive IsNormalWay : List Step → Prop where
  | start : IsNormalWay []
  | up : IsNormalWay [.up]
  | down {way : List Step} (name : String) : IsNormalWay way → IsNormalWay (.down name :: way)

/-- One more step on a normal way leads to a normal way. -/
theorem IsNormalWay.follow {way : List Step} (h : IsNormalWay way) (step : Step) :
    IsNormalWay (step.follow way) := by
  cases step with
  | here => exact h
  | down name => exact h.down name
  | up =>
    cases h with
    | start => exact .up
    | up => exact .start
    | down name h => exact h

/-- Any more steps on a normal way lead to a normal way. -/
theorem IsNormalWay.foldl {way : List Step} (h : IsNormalWay way) (steps : List Step) :
    IsNormalWay (steps.foldl Step.follow way) := by
  induction steps generalizing way with
  | nil => exact h
  | cons s steps ih => exact ih (h.follow s)

/-- Going a normal way from the start leads along itself. -/
theorem IsNormalWay.foldl_reverse {way : List Step} (h : IsNormalWay way) :
    way.reverse.foldl Step.follow [] = way := by
  induction h with
  | start => rfl
  | up => rfl
  | down name _ ih => simp [List.foldl_append, ih, Step.follow]

/-- A route that was normalized stays as it is. -/
theorem Route.normalize_normalize (r : Route) : r.normalize.normalize = r.normalize := by
  simp only [Route.normalize]
  rw [(IsNormalWay.start.foldl r.steps).foldl_reverse]

/-- A normal form has the normal route. -/
theorem route_normalize (p : FilePath) : p.normalize.route = p.route.normalize :=
  route_toFilePath fun _ h => isPlain_normalize h

/-- A normal form is its own normal form. -/
theorem normalize_normalize (p : FilePath) : p.normalize.normalize = p.normalize := by
  rw [normalize, route_normalize, Route.normalize_normalize, ← normalize]

/-- Every normal form is normal. -/
theorem isNormal_normalize (p : FilePath) : p.normalize.IsNormal :=
  normalize_normalize p

end SchemaAtlas.FilePath
