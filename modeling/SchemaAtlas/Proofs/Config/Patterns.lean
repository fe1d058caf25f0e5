import SchemaAtlas.Config.Watched
import SchemaAtlas.Proofs.FilePath.Joining
import SchemaAtlas.Proofs.Text.Occurrences

/-!
# Where patterns are met

A pattern excludes a path where it is met in it. So in the path of a file below a directory it is
met in what stands behind the directory, or from a place in the path of the directory on.

* `matchesPattern_append_iff`      a path in two parts
* `matchesPattern_directory_iff`   the pattern of a directory, which is met where the directory is
  one of the pieces of the path but the last
-/

namespace SchemaAtlas

open FilePath (pieces)
open Text (StartsInside)

/-! ## Slashes at the end of a pattern -/

/-- What is taken away from the end of a text is slashes. -/
theorem exists_withoutSlashes_append (cs : List Char) :
    ∃ n, cs = withoutSlashes cs ++ List.replicate n '/' := by
  refine ⟨(cs.reverse.takeWhile (· = '/')).length, ?_⟩
  have hslashes : cs.reverse.takeWhile (· = '/') =
      List.replicate (cs.reverse.takeWhile (· = '/')).length '/' :=
    List.eq_replicate_of_mem fun c hc => by simpa using List.all_eq_true.1 List.all_takeWhile c hc
  rw [withoutSlashes, ← List.reverse_replicate, ← hslashes, ← List.reverse_append,
    List.takeWhile_append_dropWhile, List.reverse_reverse]

/-- A slash at the end goes. -/
@[simp] theorem withoutSlashes_concat (cs : List Char) :
    withoutSlashes (cs ++ ['/']) = withoutSlashes cs := by
  simp [withoutSlashes]

theorem withoutSlashes_of_not_mem {cs : List Char} (h : '/' ∉ cs) : withoutSlashes cs = cs := by
  obtain ⟨n, hn⟩ := exists_withoutSlashes_append cs
  cases n with
  | zero => simpa using hn.symm
  | succ n => exact absurd (hn ▸ by simp) h

/-- A text that begins with the pattern of a directory shows the directory between slashes when a
slash comes before it. -/
theorem prefix_cons_of_prefix {pattern text : List Char} (hslash : pattern.getLast? = some '/')
    (h : pattern <+: text) : '/' :: withoutSlashes pattern ++ ['/'] <+: '/' :: text := by
  obtain ⟨front, rfl⟩ := List.getLast?_eq_some_iff.1 hslash
  obtain ⟨n, hfront⟩ := exists_withoutSlashes_append front
  obtain ⟨rest, rfl⟩ := h
  -- one slash of the pattern ends the directory, and the others come behind it
  refine ⟨List.replicate n '/' ++ rest, ?_⟩
  have hsnoc : withoutSlashes front ++ '/' :: List.replicate n '/' = front ++ ['/'] := by
    rw [← List.replicate_succ, List.replicate_succ', ← List.append_assoc, ← hfront]
  rw [withoutSlashes_concat, ← hsnoc]
  simp

/-! ## A path in two parts -/

/-- Whether a pattern is met in the path `front ++ text` from a place in `front` on. -/
def MeetsInside (front text pattern : List Char) : Prop :=
  if pattern.getLast? = some '/' then
    pattern <+: front ++ text ∨
      StartsInside front text ('/' :: withoutSlashes pattern ++ ['/'] <+: ·)
  else if pattern.take 2 = ['*', '.'] then StartsInside front text (pattern.drop 1 = ·)
  else StartsInside front text (pattern <+: ·)

/-- A pattern excludes a path that goes on behind a slash where it excludes the path from there on,
or where it is met from a place before that on. -/
theorem matchesPattern_append_iff {front text pattern : List Char}
    (hfront : front.getLast? = some '/') :
    matchesPattern (front ++ text) pattern = true ↔
      matchesPattern text pattern = true ∨ MeetsInside front text pattern := by
  simp only [matchesPattern, MeetsInside]
  -- a pattern of a directory, one of an ending, and one of any text
  split
  · next hslash =>
    rw [Bool.or_eq_true, Bool.or_eq_true, List.isPrefixOf_iff_prefix, List.isPrefixOf_iff_prefix,
      Text.contains_iff, Text.contains_iff, Text.infix_append_iff]
    constructor
    · rintro (hbegins | hwithin | hstarts)
      · exact .inr (.inl hbegins)
      · exact .inl (.inr hwithin)
      · exact .inr (.inr hstarts)
    · rintro ((hbegins | hwithin) | hbegins | hstarts)
      · -- the directory stands behind the last slash of the first part
        obtain ⟨before, rfl⟩ := List.getLast?_eq_some_iff.1 hfront
        exact .inr (.inr ⟨before, ['/'], rfl, by simp, prefix_cons_of_prefix hslash hbegins⟩)
      · exact .inr (.inl hwithin)
      · exact .inl hbegins
      · exact .inr (.inr hstarts)
  · split
    · rw [List.isSuffixOf_iff_suffix, List.isSuffixOf_iff_suffix, Text.suffix_append_iff]
    · rw [Text.contains_iff, Text.contains_iff, Text.infix_append_iff]

/-! ## Directories as pieces -/

theorem pieces_ne_nil (cs : List Char) : pieces cs ≠ [] := by
  obtain ⟨first, more, h⟩ := FilePath.exists_pieces_eq_cons cs
  simp [h]

/-- A run without slashes is the first piece of a text where a slash follows it. -/
theorem prefix_iff_eq_piece {directory piece rest : List Char} (hdirectory : '/' ∉ directory)
    (hpiece : '/' ∉ piece) :
    directory ++ ['/'] <+: piece ++ '/' :: rest ↔ directory = piece := by
  constructor
  · rintro ⟨more, heq⟩
    have hpieces := congrArg pieces heq
    rw [List.append_assoc, List.singleton_append, FilePath.pieces_append_slash hdirectory,
      FilePath.pieces_append_slash hpiece] at hpieces
    exact (List.cons.inj hpieces).1
  · rintro rfl
    exact ⟨rest, by simp⟩

/-- The pattern of a directory excludes the paths of which the directory is a piece, but not the
last one. -/
theorem matchesPattern_directory_iff {directory : List Char} (hslash : '/' ∉ directory)
    (text : List Char) :
    matchesPattern text (directory ++ ['/']) = true ↔ directory ∈ (pieces text).dropLast := by
  have hlast : (directory ++ ['/']).getLast? = some '/' := by simp
  rw [matchesPattern, if_pos hlast, withoutSlashes_concat, withoutSlashes_of_not_mem hslash,
    Bool.or_eq_true, List.isPrefixOf_iff_prefix, Text.contains_iff]
  -- piece by piece, by induction on the length of what is left
  induction hn : text.length using Nat.strongRecOn generalizing text with
  | ind n ih =>
    subst hn
    by_cases hmem : '/' ∈ text
    · obtain ⟨piece, rest, rfl, hpiece⟩ := List.eq_append_cons_of_mem hmem
      have hrest := ih rest.length (by simp; omega) rest rfl
      rw [FilePath.pieces_append_slash hpiece, List.dropLast_cons_of_ne_nil (pieces_ne_nil rest),
        List.mem_cons, List.cons_append, Text.infix_append_of_not_mem hpiece, List.infix_cons_iff,
        List.cons_prefix_cons, prefix_iff_eq_piece hslash hpiece]
      simpa using or_congr Iff.rfl hrest
    · -- a text of one piece holds no slash
      have hbegins : ¬directory ++ ['/'] <+: text := fun h => hmem (h.subset (by simp))
      have hwithin : ¬ '/' :: directory ++ ['/'] <:+: text := fun h => hmem (h.subset (by simp))
      rw [FilePath.pieces_of_not_mem hmem, List.dropLast_singleton]
      simpa [hbegins] using hwithin

end SchemaAtlas
