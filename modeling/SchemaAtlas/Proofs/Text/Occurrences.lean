import SchemaAtlas.Text.LowerCase

/-!
# Where one text occurs in another

An occurrence in two texts that follow each other lies in the second one, or it starts in the first
one, where it may reach into the second one or not.

* `infix_append_iff`, `suffix_append_iff`   the two cases
* `infix_append_of_not_mem`                 no occurrence starts where its first character is not
-/

namespace SchemaAtlas.Text

variable {front text part : List Char} {meets : List Char → Prop}

/-- A text contains what is a contiguous part of it. -/
theorem contains_iff (text part : List Char) : contains text part = true ↔ part <:+: text := by
  induction text with
  | nil => simp [contains]
  | cons c text ih =>
    rw [contains, Bool.or_eq_true, List.isPrefixOf_iff_prefix, ih, List.infix_cons_iff]

/-- Whether `meets` holds of what follows some place inside `front`, in `front` and on through
`text`. -/
def StartsInside (front text : List Char) (meets : List Char → Prop) : Prop :=
  ∃ before inside, front = before ++ inside ∧ inside ≠ [] ∧ meets (inside ++ text)

/-- A place inside a text is its start or a place inside what follows. -/
theorem startsInside_cons {c : Char} :
    StartsInside (c :: front) text meets ↔
      meets (c :: (front ++ text)) ∨ StartsInside front text meets := by
  constructor
  · rintro ⟨before, inside, heq, hne, hmeets⟩
    cases before with
    | nil =>
      obtain rfl : c :: front = inside := heq
      exact .inl hmeets
    | cons d before => exact .inr ⟨before, inside, (List.cons.inj heq).2, hne, hmeets⟩
  · rintro (hmeets | ⟨before, inside, rfl, hne, hmeets⟩)
    · exact ⟨[], c :: front, rfl, by simp, hmeets⟩
    · exact ⟨c :: before, inside, rfl, hne, hmeets⟩

/-- A part of two texts lies in the second one, or it starts inside the first one. -/
theorem infix_append_iff :
    part <:+: front ++ text ↔ part <:+: text ∨ StartsInside front text (part <+: ·) := by
  induction front with
  | nil => simp [StartsInside]
  | cons c front ih =>
    rw [List.cons_append, List.infix_cons_iff, ih, startsInside_cons, or_left_comm]

/-- An ending of two texts is one of the second one, or it starts inside the first one. -/
theorem suffix_append_iff :
    part <:+ front ++ text ↔ part <:+ text ∨ StartsInside front text (part = ·) := by
  induction front with
  | nil => simp [StartsInside]
  | cons c front ih =>
    rw [List.cons_append, List.suffix_cons_iff, ih, startsInside_cons, or_left_comm]

/-- Nothing starts in a text that does not hold its first character. -/
theorem not_startsInside_of_not_mem {c : Char} (h : c ∉ front) :
    ¬StartsInside front text (c :: part <+: ·) := by
  rintro ⟨before, inside, rfl, hne, hbegins⟩
  obtain ⟨d, inside, rfl⟩ := List.exists_cons_of_ne_nil hne
  rw [List.cons_append, List.cons_prefix_cons] at hbegins
  exact h (by simp [hbegins.1])

/-- A part does not start inside a text that lacks its first character. -/
theorem infix_append_of_not_mem {c : Char} (h : c ∉ front) :
    c :: part <:+: front ++ text ↔ c :: part <:+: text := by
  rw [infix_append_iff, or_iff_left (not_startsInside_of_not_mem h)]

end SchemaAtlas.Text
