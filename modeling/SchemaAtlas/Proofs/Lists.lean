import Mathlib.Data.List.Forall2

/-!
# Lists

Lemmas about `xs ++ [x]` that histories need, about what separators and repeats leave of a list,
about one element beside the others and the places where elements occur first, and about two lists
that are related element by element.
-/

namespace List

variable {α : Type} {xs : List α} {x y : α}

/-- What stands in a list with a new last element. -/
theorem getElem?_concat_eq_some_iff {i : Nat} :
    (xs ++ [x])[i]? = some y ↔ xs[i]? = some y ∨ i = xs.length ∧ x = y := by
  rcases Nat.lt_trichotomy i xs.length with h | rfl | h
  · simp [getElem?_append_left h, Nat.ne_of_lt h]
  · simp
  · have hlong : (xs ++ [x]).length ≤ i := by simp; omega
    simp [getElem?_eq_none hlong, getElem?_eq_none (Nat.le_of_lt h), Nat.ne_of_gt h]

/-- What stands in a list stays where it is. -/
theorem getElem?_concat_of_some {i : Nat} (x : α) (h : xs[i]? = some y) :
    (xs ++ [x])[i]? = some y :=
  getElem?_concat_eq_some_iff.2 (.inl h)

/-- Of two elements in order, the second may be the new one. -/
theorem pair_sublist_concat {a b : α} (h : [a, b].Sublist (xs ++ [x])) :
    [a, b].Sublist xs ∨ a ∈ xs ∧ b = x := by
  rw [← reverse_sublist, reverse_append] at h
  cases h with
  | cons _ h => exact .inl (reverse_sublist.1 h)
  | cons_cons _ h => exact .inr ⟨mem_reverse.1 (singleton_sublist.1 h), rfl⟩

/-- What stands before the first separator, and what stands behind it, are told by the whole. -/
theorem eq_of_append_cons_eq {sep : α} {as bs as' bs' : List α} (h : sep ∉ as) (h' : sep ∉ as')
    (heq : as ++ sep :: bs = as' ++ sep :: bs') : as = as' ∧ bs = bs' := by
  induction as generalizing as' with
  | nil =>
    cases as' with
    | nil => exact ⟨rfl, (cons.inj heq).2⟩
    | cons b as' => exact absurd (cons.inj heq).1 (ne_of_not_mem_cons h')
  | cons a as ih =>
    cases as' with
    | nil => exact absurd (cons.inj heq).1.symm (ne_of_not_mem_cons h)
    | cons b as' =>
      obtain ⟨rfl, hrest⟩ := cons.inj heq
      obtain ⟨rfl, rfl⟩ := ih (not_mem_of_not_mem_cons h) (not_mem_of_not_mem_cons h') hrest
      exact ⟨rfl, rfl⟩

/-- A list is without repeats once they are taken out. -/
theorem nodup_eraseDups [BEq α] [LawfulBEq α] (as : List α) : as.eraseDups.Nodup := by
  -- what is left behind the first element is shorter, so the induction is on the length
  induction hn : as.length using Nat.strongRecOn generalizing as with
  | ind n ih =>
    cases as with
    | nil => exact nodup_nil
    | cons a as =>
      have hlt : (as.filter fun b => !b == a).length < n := by
        have := length_filter_le (fun b => !b == a) as
        rw [← hn, length_cons]
        omega
      rw [eraseDups_cons, nodup_cons]
      exact ⟨by simp, ih _ hlt _ rfl⟩

/-- Pieces that end in separators are what stands between the separators. -/
theorem splitOn_flatMap_concat [BEq α] [LawfulBEq α] {sep : α} {pieces : List (List α)}
    (h : ∀ piece ∈ pieces, sep ∉ piece) :
    (pieces.flatMap (· ++ [sep])).splitOn sep = pieces ++ [[]] := by
  induction pieces with
  | nil => exact splitOn_eq_singleton not_mem_nil
  | cons piece pieces ih =>
    obtain ⟨hpiece, hrest⟩ := forall_mem_cons.1 h
    rw [flatMap_cons, append_assoc, singleton_append, splitOn_append_cons_self_of_not_mem hpiece,
      ih hrest, cons_append]

/-- What an element adds to the other ones. -/
theorem any_iff_of_mem [DecidableEq α] (h : x ∈ xs) (f : α → Bool) :
    xs.any f = true ↔ (xs.filter (· ≠ x)).any f = true ∨ f x = true := by
  simp only [any_eq_true, mem_filter, decide_eq_true_eq]
  constructor
  · rintro ⟨b, hb, hfb⟩
    by_cases heq : b = x
    · exact .inr (heq ▸ hfb)
    · exact .inl ⟨b, ⟨hb, heq⟩, hfb⟩
  · rintro (⟨b, ⟨hb, -⟩, hfb⟩ | hfx)
    · exact ⟨b, hb, hfb⟩
    · exact ⟨x, h, hfx⟩

/-! ## First occurrences -/

section Occurrences

variable [BEq α] [LawfulBEq α] {a b : α}

/-- The first element comes before all others, and it does not decide which of those comes first. -/
theorem idxOf_cons_lt_iff {c : α} {as : List α} :
    (c :: as).idxOf a < (c :: as).idxOf b ↔ c ≠ b ∧ (c = a ∨ as.idxOf a < as.idxOf b) := by
  by_cases hb : c = b
  · simp [hb]
  · by_cases ha : c = a
    · subst ha
      simp [hb, idxOf_cons_ne as hb]
    · simp [ha, hb, idxOf_cons_ne as ha, idxOf_cons_ne as hb]

/-- What is left out does not decide which of two other elements occurs first. -/
theorem idxOf_filter_lt_iff {p : α → Bool} (ha : p a = true) (hb : p b = true) (as : List α) :
    (as.filter p).idxOf a < (as.filter p).idxOf b ↔ as.idxOf a < as.idxOf b := by
  -- element by element; what is left out is neither of the two
  induction as with
  | nil => simp
  | cons c as ih =>
    cases hc : p c with
    | true => rw [filter_cons_of_pos hc, idxOf_cons_lt_iff, idxOf_cons_lt_iff, ih]
    | false =>
      have hne {d : α} (hd : p d = true) : c ≠ d := by
        rintro rfl
        cases hc.symm.trans hd
      rw [filter_cons_of_neg (by simp [hc]), ih, idxOf_cons_lt_iff]
      simp [hne ha, hne hb]

/-- A list without its repeats is in the order of first occurrences. -/
theorem idxOf_eraseDups_lt_iff (a b : α) (as : List α) :
    as.eraseDups.idxOf a < as.eraseDups.idxOf b ↔ as.idxOf a < as.idxOf b := by
  -- what is left behind the first element is shorter, so the induction is on the length
  induction hn : as.length using Nat.strongRecOn generalizing as with
  | ind n ih =>
    cases as with
    | nil => simp
    | cons c as =>
      have hlt : (as.filter fun d => !d == c).length < n :=
        hn ▸ Nat.lt_succ_of_le (length_filter_le _ as)
      rw [eraseDups_cons, idxOf_cons_lt_iff, idxOf_cons_lt_iff, ih _ hlt _ rfl]
      apply and_congr_right
      intro hb
      apply or_congr_right'
      intro ha
      exact idxOf_filter_lt_iff (by simpa using Ne.symm ha) (by simpa using Ne.symm hb) as

/-- An image occurs first where the element does, if it is the image of no other element. -/
theorem idxOf_map_of_forall {β : Type} [BEq β] [LawfulBEq β] {f : α → β} {as : List α}
    (h : ∀ b ∈ as, f b = f a → b = a) : (as.map f).idxOf (f a) = as.idxOf a := by
  induction as with
  | nil => rfl
  | cons b as ih =>
    obtain ⟨hb, hrest⟩ := forall_mem_cons.1 h
    by_cases heq : b = a
    · subst heq
      rw [map_cons, idxOf_cons_self, idxOf_cons_self]
    · rw [map_cons, idxOf_cons_ne _ (mt hb heq), idxOf_cons_ne _ heq, ih hrest]

end Occurrences

/-! ## Element by element -/

section Related

variable {β : Type} {R : α → β → Prop} {as : List α} {bs : List β}

/-- What is related to something in the second list is in the first one. -/
theorem Forall₂.exists_of_mem_right (h : Forall₂ R as bs) {b : β} (hb : b ∈ bs) :
    ∃ a ∈ as, R a b := by
  induction h with
  | nil => cases hb
  | cons hhead htail ih =>
    rcases mem_cons.1 hb with rfl | hb
    · exact ⟨_, mem_cons_self, hhead⟩
    · obtain ⟨a, ha, hab⟩ := ih hb
      exact ⟨a, mem_cons_of_mem _ ha, hab⟩

/-- What holds of any two elements in order carries over to the related ones. -/
theorem Forall₂.pairwise_right {S : α → α → Prop} {T : β → β → Prop} (h : Forall₂ R as bs)
    (hpairwise : as.Pairwise S)
    (hcarries : ∀ ⦃a a' b b'⦄, R a b → R a' b' → S a a' → T b b') : bs.Pairwise T := by
  induction h with
  | nil => exact .nil
  | cons hhead htail ih =>
    obtain ⟨hfirst, hrest⟩ := pairwise_cons.1 hpairwise
    refine pairwise_cons.2 ⟨fun b' hb' => ?_, ih hrest⟩
    obtain ⟨a', ha', hab'⟩ := htail.exists_of_mem_right hb'
    exact hcarries hhead hab' (hfirst a' ha')

end Related

end List
