import SchemaAtlas.Proofs.Text.Occurrences
import SchemaAtlas.Wiring.Recovery

/-!
# Recovered includes of a text in parts

The search for includes goes from left to right and never back. So the includes of a wiring
directive come first, whatever stands before it, if that holds no other directive, and then those of
the text behind its list of files, as if this stood alone.

* `filesLists_congr`           the supply of rounds makes no difference
* `nextFilesList?_append`      the list of files behind other arguments
* `Quotes.quoted_eq`           the strings in a list
* `recoveredIncludes_append`   the includes of the whole text
-/

namespace SchemaAtlas.Wiring

open Text (isBlank isWordChar)

variable {cs rest inside : List Char}

/-! ## Taking parts off a text -/

/-- What is left behind a part is the rest of the text. -/
theorem after?_eq_some_iff {part : List Char} :
    after? part cs = some rest ↔ cs = part ++ rest := by
  rw [after?]
  constructor
  · intro h
    split at h
    · next hbegins =>
      obtain ⟨behind, rfl⟩ := List.isPrefixOf_iff_prefix.1 hbegins
      simpa using h
    · cases h
  · rintro rfl
    simp [List.isPrefixOf_iff_prefix]

/-- Nothing is left if the text does not begin with the part. -/
theorem after?_eq_none_iff {part : List Char} : after? part cs = none ↔ ¬part <+: cs := by
  rw [after?, ← List.isPrefixOf_iff_prefix]
  split <;> simp_all

/-- Behind a part comes what stands behind it. -/
theorem after?_append (part rest : List Char) : after? part (part ++ rest) = some rest :=
  after?_eq_some_iff.2 rfl

/-- Blanks before a part are passed over, if the part does not begin with one. -/
theorem afterBlanks?_append {blanks : List Char} (hblanks : ∀ c ∈ blanks, isBlank c = true)
    {c : Char} (hc : isBlank c = false) (part rest : List Char) :
    afterBlanks? (c :: part) (blanks ++ c :: (part ++ rest)) = some rest := by
  rw [afterBlanks?, List.dropWhile_append_of_pos hblanks,
    List.dropWhile_cons_of_neg (by simp [hc]), ← List.cons_append, after?_append]

/-- A part and what is left behind it are as long as the text. -/
theorem length_of_after? {part : List Char} (h : after? part cs = some rest) :
    part.length + rest.length = cs.length := by
  rw [after?_eq_some_iff.1 h, List.length_append]

/-- Behind blanks and a part there is less of the text left. -/
theorem length_of_afterBlanks? {part : List Char} (h : afterBlanks? part cs = some rest) :
    part.length + rest.length ≤ cs.length := by
  rw [length_of_after? h]
  exact (List.dropWhile_sublist _).length_le

/-- A list of files takes some of the text. -/
theorem length_of_filesList? (h : filesList? cs = some (inside, rest)) :
    rest.length < cs.length := by
  simp only [filesList?, Option.bind_eq_bind, Option.bind_eq_some_iff] at h
  obtain ⟨behindWord, hword, behindColon, hcolon, list, hlist, behind, hclose, h⟩ := h
  obtain ⟨-, rfl⟩ := Prod.mk.inj (Option.some.inj h)
  have hword' := length_of_after? hword
  have hcolon' := length_of_afterBlanks? hcolon
  have hlist' := length_of_afterBlanks? hlist
  have hclose' := length_of_after? hclose
  simp only [List.length_drop, List.length_singleton] at hcolon' hlist' hclose'
  omega

/-- The search for a list of files only goes forward. -/
theorem length_of_nextFilesList? {previous : Char}
    (h : nextFilesList? previous cs = some (inside, rest)) : rest.length < cs.length := by
  -- each character is passed over or begins the list
  induction cs generalizing previous with
  | nil => cases h
  | cons c cs ih =>
    rw [nextFilesList?] at h
    split at h
    · next found hfound =>
      obtain rfl := Option.some.inj h
      split at hfound
      · cases hfound
      · exact length_of_filesList? hfound
    · split at h
      · cases h
      · exact Nat.lt_succ_of_lt (ih h)

/-- A directive with a list of files takes some of the text. -/
theorem length_of_wiringDirective? (h : wiringDirective? cs = some (inside, rest)) :
    rest.length < cs.length := by
  simp only [wiringDirective?, Option.bind_eq_bind, Option.bind_eq_some_iff] at h
  obtain ⟨behindName, hname, arguments, harguments, h⟩ := h
  have hname' := length_of_after? hname
  have harguments' := length_of_afterBlanks? harguments
  have hlist := length_of_nextFilesList? h
  omega

/-! ## Rounds of the search -/

/-- A supply of as many rounds as the text has characters is enough, and which one it is makes no
difference. -/
theorem filesLists_congr {supply supply' : List Char} (h : cs.length ≤ supply.length)
    (h' : cs.length ≤ supply'.length) : filesLists supply cs = filesLists supply' cs := by
  -- one round for each character of the supply, of which a round uses up one or more
  induction supply generalizing cs supply' with
  | nil =>
    obtain rfl := List.eq_nil_of_length_eq_zero (Nat.le_zero.1 h)
    simp [filesLists]
  | cons s supply ih =>
    cases cs with
    | nil => simp [filesLists]
    | cons c rest =>
      obtain ⟨s', supply', rfl⟩ := List.exists_cons_of_length_pos
        (Nat.lt_of_lt_of_le (Nat.succ_pos _) h')
      simp only [List.length_cons] at h h'
      rw [filesLists, filesLists]
      cases hdirective : wiringDirective? (c :: rest) with
      | none => exact ih (by omega) (by omega)
      | some found =>
        -- the search goes on behind the list that was found
        have hlength := length_of_wiringDirective? hdirective
        rw [List.length_cons] at hlength
        exact congrArg (found.1 :: ·) (ih (by omega) (by omega))

/-- The search passes over a character at which no directive begins. -/
theorem filesLists_cons_of_none {c : Char} (h : wiringDirective? (c :: rest) = none) :
    filesLists (c :: rest) (c :: rest) = filesLists rest rest := by
  rw [filesLists, h]

/-- Behind a list that was found the search goes on as in a text of its own. -/
theorem filesLists_of_some {c : Char} {behind : List Char}
    (h : wiringDirective? (c :: rest) = some (inside, behind)) :
    filesLists (c :: rest) (c :: rest) = inside :: filesLists behind behind := by
  have hlength := length_of_wiringDirective? h
  rw [List.length_cons] at hlength
  rw [filesLists, h]
  exact congrArg (inside :: ·) (filesLists_congr (by omega) (Nat.le_refl _))

/-! ## Before the directive -/

/-- A word whose first character does not come again in it begins nowhere before the place where it
stands, unless it occurs there as a whole. -/
theorem prefix_of_prefix_append {c : Char} (word : List Char) {front : List Char}
    (hword : c ∉ word) (hne : front ≠ []) (h : c :: word <+: front ++ c :: rest) :
    c :: word <+: front := by
  have hbegins := List.prefix_append front (c :: rest)
  rcases List.prefix_or_prefix_of_prefix h hbegins with hfront | ⟨more, hmore⟩
  · exact hfront
  · -- the word would reach the place, and hold its first character once more
    obtain ⟨d, front, rfl⟩ := List.exists_cons_of_ne_nil hne
    obtain ⟨rfl, htail⟩ := List.cons.inj hmore
    cases more with
    | nil => exact ⟨[], by simpa using htail.symm⟩
    | cons e more =>
      rw [← hmore, List.prefix_append_right_inj, List.cons_prefix_cons] at h
      obtain ⟨rfl, -⟩ := h
      exact absurd (htail ▸ by simp) hword

/-- The search passes over a text without the name of the directive. -/
theorem filesLists_append {front : List Char} (hfront : ¬"@sdl".toList <:+: front)
    (behind : List Char) :
    filesLists (front ++ "@sdl".toList ++ behind) (front ++ "@sdl".toList ++ behind) =
      filesLists ("@sdl".toList ++ behind) ("@sdl".toList ++ behind) := by
  -- no directive begins at any of the characters before the name
  induction front with
  | nil => rfl
  | cons c front ih =>
    have hnone : wiringDirective? (c :: front ++ "@sdl".toList ++ behind) = none := by
      have hname : after? "@sdl".toList (c :: front ++ "@sdl".toList ++ behind) = none := by
        rw [after?_eq_none_iff]
        intro hbegins
        refine hfront (List.IsPrefix.isInfix ?_)
        exact prefix_of_prefix_append (c := '@') "sdl".toList (by decide) (by simp)
          (by simpa using hbegins)
      rw [wiringDirective?, hname]
      rfl
    have hrest : ¬"@sdl".toList <:+: front :=
      fun h => hfront (h.trans (List.suffix_cons c front).isInfix)
    exact (filesLists_cons_of_none hnone).trans (ih hrest)

/-! ## In the directive -/

/-- At the word `files` its list is found. -/
theorem filesList?_append (hinside : ']' ∉ inside) (rest : List Char) :
    filesList? ("files: [".toList ++ inside ++ ']' :: rest) = some (inside, rest) := by
  -- the word, the colon, the bracket and the list in turn
  have hword : after? "files".toList ("files: [".toList ++ inside ++ ']' :: rest) =
      some (':' :: (" [".toList ++ inside ++ ']' :: rest)) :=
    after?_append "files".toList _
  have hcolon : afterBlanks? [':'] (':' :: (" [".toList ++ inside ++ ']' :: rest)) =
      some (" [".toList ++ inside ++ ']' :: rest) :=
    afterBlanks?_append (List.forall_mem_nil _) (by decide) [] _
  have hopening : afterBlanks? ['['] (" [".toList ++ inside ++ ']' :: rest) =
      some (inside ++ ']' :: rest) :=
    afterBlanks?_append (List.forall_mem_singleton.2 (by decide)) (by decide) [] _
  have htake : (inside ++ ']' :: rest).takeWhile (· ≠ ']') = inside := by
    rw [List.takeWhile_append_of_pos fun c hc => by simpa using ne_of_mem_of_not_mem hc hinside]
    simp
  simp only [filesList?, hword, hcolon, hopening, htake, Option.bind_eq_bind, Option.bind_some,
    List.drop_left]
  simp [after?]

/-- The list of files behind other arguments, which do not hold the word `files`, and behind which a
word can begin. -/
theorem nextFilesList?_append {previous : Char} {between : List Char} (hclose : ')' ∉ between)
    (hfiles : ¬"files".toList <:+: between)
    (hedge : ∀ c ∈ (previous :: between).getLast?, isWordChar c = false)
    (hinside : ']' ∉ inside) (rest : List Char) :
    nextFilesList? previous (between ++ ("files: [".toList ++ inside ++ ']' :: rest)) =
      some (inside, rest) := by
  -- character by character, since the word does not begin at any of them
  induction between generalizing previous with
  | nil =>
    have hprevious : isWordChar previous = false := hedge previous rfl
    have hlist := filesList?_append hinside rest
    rw [List.nil_append]
    rw [show "files: [".toList = 'f' :: "iles: [".toList from rfl, List.cons_append,
      List.cons_append] at hlist ⊢
    rw [nextFilesList?, hprevious, hlist]
    rfl
  | cons c between ih =>
    -- the word does not begin here, so the search goes on with the next character
    have hnone :
        filesList? (c :: between ++ ("files: [".toList ++ inside ++ ']' :: rest)) = none := by
      have hword : after? "files".toList
          (c :: between ++ ("files: [".toList ++ inside ++ ']' :: rest)) = none := by
        rw [after?_eq_none_iff]
        intro hbegins
        refine hfiles (List.IsPrefix.isInfix ?_)
        exact prefix_of_prefix_append (c := 'f') "iles".toList (by decide) (by simp)
          hbegins
      rw [filesList?, hword]
      rfl
    have hc : c ≠ ')' := fun heq => hclose (by simp [heq])
    have hedge' : ∀ d ∈ (c :: between).getLast?, isWordChar d = false := by
      simpa [List.getLast?_cons_cons] using hedge
    have hrest := ih (fun h => hclose (List.mem_cons_of_mem _ h))
      (fun h => hfiles (h.trans (List.suffix_cons c between).isInfix)) hedge'
    rw [List.cons_append] at hnone ⊢
    rw [nextFilesList?, hnone, ite_self, if_neg hc]
    exact hrest

/-! ## Strings in a list -/

/-- Strings in quote marks one after another, with neither quote marks nor closing brackets in what
stands before, between and behind them, such as commas and white space. -/
inductive Quotes : List String → List Char → Prop
  | done (gap : List Char) (hgap : '"' ∉ gap ∧ ']' ∉ gap) : Quotes [] gap
  | next (gap : List Char) {path : String} {paths : List String} {cs : List Char}
      (hgap : '"' ∉ gap ∧ ']' ∉ gap) (hpath : '"' ∉ path.toList ∧ ']' ∉ path.toList)
      (hrest : Quotes paths cs) :
      Quotes (path :: paths) (gap ++ '"' :: (path.toList ++ '"' :: cs))

/-- No closing bracket stands among the strings. -/
theorem Quotes.notMem {paths : List String} (h : Quotes paths cs) : ']' ∉ cs := by
  induction h with
  | done gap hgap => exact hgap.2
  | next gap hgap hpath hrest ih => simp [hgap.2, hpath.2, ih]

/-- Outside of quote marks a run without one is passed over. -/
theorem quotedFrom_none_append {gap : List Char} (hgap : '"' ∉ gap) (cs : List Char) :
    quotedFrom none (gap ++ cs) = quotedFrom none cs := by
  induction gap with
  | nil => rfl
  | cons c gap ih =>
    rw [List.mem_cons, not_or] at hgap
    rw [List.cons_append, quotedFrom, if_neg (Ne.symm hgap.1), ih hgap.2]

/-- Inside quote marks a run up to the next one is a string. -/
theorem quotedFrom_some_append {soFar path : List Char} (hpath : '"' ∉ path) (cs : List Char) :
    quotedFrom (some soFar) (path ++ '"' :: cs) =
      (soFar.reverse ++ path) :: quotedFrom none cs := by
  induction path generalizing soFar with
  | nil => simp [quotedFrom]
  | cons c path ih =>
    rw [List.mem_cons, not_or] at hpath
    rw [List.cons_append, quotedFrom, if_neg (Ne.symm hpath.1), ih hpath.2]
    simp

/-- The strings are what is found between the quote marks. -/
theorem Quotes.quoted_eq {paths : List String} (h : Quotes paths cs) :
    quoted cs = paths.map String.toList := by
  rw [quoted]
  induction h with
  | done gap hgap =>
    have hempty := quotedFrom_none_append hgap.1 []
    rwa [List.append_nil] at hempty
  | next gap hgap hpath hrest ih =>
    rw [quotedFrom_none_append hgap.1, quotedFrom, if_pos rfl, quotedFrom_some_append hpath.1, ih]
    rfl

/-! ## The whole text -/

/-- At the directive its list is found. -/
theorem wiringDirective?_append {between : List Char} (hclose : ')' ∉ between)
    (hfiles : ¬"files".toList <:+: between)
    (hedge : ∀ c ∈ between.getLast?, isWordChar c = false) (hinside : ']' ∉ inside)
    (rest : List Char) :
    wiringDirective?
        ("@sdl".toList ++ '(' :: (between ++ ("files: [".toList ++ inside ++ ']' :: rest))) =
      some (inside, rest) := by
  have hopening : afterBlanks? ['('] ('(' :: (between ++ ("files: [".toList ++ inside ++
      ']' :: rest))) = some (between ++ ("files: [".toList ++ inside ++ ']' :: rest)) :=
    afterBlanks?_append (List.forall_mem_nil _) (by decide) [] _
  -- nothing but the bracket stands before the word, if nothing is between them
  have hedge' : ∀ c ∈ ('(' :: between).getLast?, isWordChar c = false := by
    cases between with
    | nil =>
      rintro c ⟨⟩
      decide
    | cons c between => simpa [List.getLast?_cons_cons] using hedge
  simp only [wiringDirective?, after?_append, hopening, Option.bind_eq_bind, Option.bind_some]
  exact nextFilesList?_append hclose hfiles hedge' hinside rest

/-- The includes of a text with a wiring directive in it: the strings in the list of files of the
directive, and then the includes of the text behind the list. Other arguments may stand before the
list, if they do not hold its name and their end is not the start of a longer word. -/
theorem recoveredIncludes_append (front between list behind : String) (paths : List String)
    (hfront : ¬"@sdl".toList <:+: front.toList) (hclose : ')' ∉ between.toList)
    (hfiles : ¬"files".toList <:+: between.toList)
    (hedge : ∀ c ∈ between.toList.getLast?, isWordChar c = false)
    (hlist : Quotes paths list.toList) :
    recoveredIncludes (front ++ "@sdl(" ++ between ++ "files: [" ++ list ++ "]" ++ behind) =
      paths ++ recoveredIncludes behind := by
  have hdirective :=
    wiringDirective?_append hclose hfiles hedge hlist.notMem behind.toList
  have hchars : (front ++ "@sdl(" ++ between ++ "files: [" ++ list ++ "]" ++ behind).toList =
      front.toList ++ "@sdl".toList ++
        '(' :: (between.toList ++ ("files: [".toList ++ list.toList ++ ']' :: behind.toList)) := by
    simp
  -- this list comes first, and the scan goes on behind it
  have hlists := (filesLists_append hfront _).trans (filesLists_of_some hdirective)
  rw [recoveredIncludes, hchars, hlists, List.flatMap_cons, hlist.quoted_eq, List.map_append,
    List.map_map, recoveredIncludes]
  simp

/-- A closing parenthesis and the word `files` in a string do not end the list, and a half-written
directive before it is passed over. -/
theorem recoveredIncludes_append_halfWritten :
    recoveredIncludes ("schema @sd type Broken \x7b " ++ "@sdl(" ++ "executables: [x], " ++
        "files: [" ++ "\"a)\", \"\",\n\"files: [b\"" ++ "]" ++ ") @sdl(files: [\"c\"])") =
      ["a)", "", "files: [b"] ++ recoveredIncludes ") @sdl(files: [\"c\"])" := by
  have hlist : Quotes ["a)", "", "files: [b"] "\"a)\", \"\",\n\"files: [b\"".toList :=
    .next [] (by simp) (by simp) <| .next [',', ' '] (by simp) (by simp) <|
      .next [',', '\n'] (by simp) (by simp) <| .done [] (by simp)
  have hedge : ∀ c ∈ "executables: [x], ".toList.getLast?, Text.isWordChar c = false := by
    rintro c ⟨⟩
    decide
  exact recoveredIncludes_append _ _ _ _ _ (by simp [List.infix_cons_iff]) (by simp)
    (by simp [List.infix_cons_iff]) hedge hlist

end SchemaAtlas.Wiring
