import SchemaAtlas.Proofs.Document.Names

/-!
# Tokens as they are written

How marks, words and plain literals are written one after another, with blanks, commas and comments
before, between and behind them. The tokens of a text that begins so are these, whatever stands
behind them that does not go on with the last one.

* `Token.Written`              characters that write tokens of given kinds
* `Token.Written.scan_append`  the tokens that are read from them
-/

namespace SchemaAtlas

/-! ## Literals -/

/-- Whether a text stands for itself between quote marks. -/
def Quoted.IsPlain (text : String) : Prop :=
  ∀ c ∈ text.toList, c ≠ '"' ∧ c ≠ '\\' ∧ Quoted.isLineEnd c = false

/-- A literal without escapes is read character by character up to its quote mark. -/
theorem Quoted.plain?_of_isPlain {cs : List Char}
    (h : ∀ c ∈ cs, c ≠ '"' ∧ c ≠ '\\' ∧ isLineEnd c = false) (atStart : Bool) (rest : List Char) :
    plain? atStart (cs ++ '"' :: rest) = some (cs, cs.length + 1) := by
  induction cs generalizing atStart with
  | nil => simp [plain?]
  | cons c cs ih =>
    obtain ⟨⟨hquote, hescape, hline⟩, hcs⟩ := List.forall_mem_cons.1 h
    rw [List.cons_append, plain?, if_neg hquote, if_neg hescape, hline, ih hcs]
    rfl

/-- A plain literal is read up to its closing mark. The empty one must not be followed by a third
quote mark. -/
theorem Quoted.read?_of_isPlain {text : String} (h : IsPlain text) {rest : List Char}
    (hrest : rest.head? ≠ some '"') :
    read? (text.toList ++ '"' :: rest) = some (text, text.toList.length + 1) := by
  -- the empty text is told apart from the opening of a block by what follows
  cases hchars : text.toList with
  | nil =>
    have htext : text = "" := by rw [← String.ofList_toList (s := text), hchars]
    subst htext
    rw [List.nil_append, read?]
    · rfl
    · rintro tail rfl
      exact hrest rfl
  | cons c cs =>
    rw [IsPlain, hchars] at h
    have hc : c ≠ '"' := (h c (by simp)).1
    have hplain := plain?_of_isPlain h true rest
    rw [List.cons_append] at hplain ⊢
    rw [read?, hplain, Option.map_some, ← hchars]
    · show some (String.ofList text.toList, _) = _
      rw [String.ofList_toList]
    · rintro tail heq
      exact hc (List.cons.inj heq).1
    · rintro tail heq
      exact hc (List.cons.inj heq).1

namespace Token

/-! ## Kinds of tokens -/

/-- Whether a text is a word: it starts as names do, and goes on as they do. -/
def IsWord (text : String) : Prop :=
  text.toList.head?.any isNameStart = true ∧ ∀ c ∈ text.toList.tail, isNameChar c = true

instance (text : String) : Decidable (IsWord text) :=
  @instDecidableAnd _ _ inferInstance (List.decidableBAll _ _)

/-- A word has a first character. -/
theorem IsWord.exists_cons {text : String} (h : IsWord text) :
    ∃ c tail, text.toList = c :: tail ∧ isNameStart c = true ∧ ∀ d ∈ tail, isNameChar d = true := by
  obtain ⟨hhead, htail⟩ := h
  cases hchars : text.toList with
  | nil => simp [hchars] at hhead
  | cons c tail =>
    rw [hchars] at hhead htail
    exact ⟨c, tail, rfl, by simpa using hhead, htail⟩

/-- Whether characters do not go on with a word or an empty literal before them. -/
def Apart (cs : List Char) : Prop :=
  ∀ c ∈ cs.head?, isNameChar c = false ∧ c ≠ '"'

/-- The end of a text goes on with nothing. -/
theorem apart_nil : Apart [] := by
  intro c hc
  cases hc

/-- What stands first decides whether a word goes on. -/
theorem Apart.append {cs rest : List Char} (hcs : Apart cs) (hrest : Apart rest) :
    Apart (cs ++ rest) := by
  cases cs with
  | nil => exact hrest
  | cons c cs => exact hcs

/-- A comma goes on with no word. -/
theorem apart_comma (cs : List Char) : Apart (',' :: cs) := by
  rintro c ⟨⟩
  decide

/-- A blank goes on with no word. -/
theorem apart_of_isBlank {c : Char} (h : isBlank c = true) (cs : List Char) : Apart (c :: cs) := by
  rintro d ⟨⟩
  simp only [isBlank, Bool.or_eq_true, decide_eq_true_eq] at h
  rcases h with (((rfl | rfl) | rfl) | rfl) | rfl <;> decide

/-- A mark goes on with no word. -/
theorem apart_of_isPunctuator {c : Char} (h : isPunctuator c = true) (cs : List Char) :
    Apart (c :: cs) := by
  rintro d ⟨⟩
  simp only [isPunctuator, List.mem_cons, List.not_mem_nil, or_false, decide_eq_true_eq] at h
  rcases h with rfl | rfl | rfl | rfl | rfl | rfl | rfl | rfl | rfl | rfl | rfl | rfl | rfl <;>
    decide

/-- Characters that write tokens of given kinds: marks, words and plain literals, with blanks,
commas and comments before, between and behind them. -/
inductive Written : List Kind → List Char → Prop
  | nil : Written [] []
  | blank {c : Char} {kinds : List Kind} {cs : List Char} (h : isBlank c = true)
      (hrest : Written kinds cs) : Written kinds (c :: cs)
  | comma {kinds : List Kind} {cs : List Char} (hrest : Written kinds cs) :
      Written kinds (',' :: cs)
  /-- A comment with the end of its line. -/
  | comment {body : List Char} {c : Char} {kinds : List Kind} {cs : List Char}
      (hbody : ∀ d ∈ body, Quoted.isLineEnd d = false) (hend : Quoted.isLineEnd c = true)
      (hrest : Written kinds cs) : Written kinds ('#' :: (body ++ c :: cs))
  | mark {c : Char} {kinds : List Kind} {cs : List Char} (h : isPunctuator c = true)
      (hrest : Written kinds cs) : Written (.mark c :: kinds) (c :: cs)
  | name {word : String} {kinds : List Kind} {cs : List Char} (h : IsWord word) (hapart : Apart cs)
      (hrest : Written kinds cs) : Written (.name word :: kinds) (word.toList ++ cs)
  | string {text : String} {kinds : List Kind} {cs : List Char} (h : Quoted.IsPlain text)
      (hapart : Apart cs) (hrest : Written kinds cs) :
      Written (.string text :: kinds) ('"' :: (text.toList ++ '"' :: cs))

/-- A word in front of a blank or a mark. -/
theorem Written.word {word : String} {c : Char} {kinds : List Kind} {cs : List Char}
    (h : IsWord word) (hc : (isBlank c || isPunctuator c) = true)
    (hrest : Written kinds (c :: cs)) :
    Written (.name word :: kinds) (word.toList ++ c :: cs) := by
  refine .name h ?_ hrest
  rcases Bool.or_eq_true_iff.1 hc with hblank | hmark
  · exact apart_of_isBlank hblank cs
  · exact apart_of_isPunctuator hmark cs

/-! ## What is read from them -/

/-- The end of a line is a blank. -/
theorem isBlank_of_isLineEnd {c : Char} (h : Quoted.isLineEnd c = true) : isBlank c = true := by
  simp only [Quoted.isLineEnd, Bool.or_eq_true, decide_eq_true_eq] at h
  rcases h with rfl | rfl <;> decide

/-- What starts a name neither separates tokens nor is a mark. -/
theorem not_separates_of_isNameStart {c : Char} (h : isNameStart c = true) :
    isBlank c = false ∧ c ≠ ',' ∧ c ≠ '#' ∧ isPunctuator c = false := by
  refine ⟨?_, ?_, ?_, ?_⟩
  -- after what separates nothing goes on as a name, and this character does
  · by_contra hblank
    have hapart := apart_of_isBlank (by simpa using hblank) [] c rfl
    simp [isNameChar_of_isNameStart h] at hapart
  · rintro rfl
    revert h
    decide
  · rintro rfl
    revert h
    decide
  · by_contra hmark
    have hapart := apart_of_isPunctuator (by simpa using hmark) [] c rfl
    simp [isNameChar_of_isNameStart h] at hapart

/-- A mark does not only separate tokens. -/
theorem not_separates_of_isPunctuator {c : Char} (h : isPunctuator c = true) :
    isBlank c = false ∧ c ≠ ',' ∧ c ≠ '#' := by
  simp only [isPunctuator, List.mem_cons, List.not_mem_nil, or_false, decide_eq_true_eq] at h
  rcases h with rfl | rfl | rfl | rfl | rfl | rfl | rfl | rfl | rfl | rfl | rfl | rfl | rfl <;>
    decide

section Scan

variable {cs rest : List Char} {start : Nat} {comma : Bool}

/-- A mark is scanned as a token. -/
theorem scan_mark {c : Char} (h : isPunctuator c = true) :
    ∃ t stop, scan (c :: rest) start comma = t :: scan rest stop false ∧ t.kind = .mark c := by
  obtain ⟨hblank, hcomma, hcomment⟩ := not_separates_of_isPunctuator h
  have hlexeme : lexeme c rest = (.mark c, 0) := by rw [lexeme, if_pos h]
  rw [scan_of_lexeme (by simp [hblank]) hcomma hcomment hlexeme (by simp)]
  exact ⟨_, _, rfl, rfl⟩

/-- A word is scanned as one token if nothing behind it goes on with it. -/
theorem scan_name {word : String} (h : IsWord word) (hapart : Apart rest) :
    ∃ t stop, scan (word.toList ++ rest) start comma = t :: scan rest stop false ∧
      t.kind = .name word := by
  obtain ⟨c, tail, hword, hstart, htail⟩ := h.exists_cons
  obtain ⟨hblank, hcomma, hcomment, hmark⟩ := not_separates_of_isNameStart hstart
  -- the word ends where it is written to end
  have htake : (tail ++ rest).takeWhile isNameChar = tail := by
    rw [List.takeWhile_append_of_pos htail]
    cases rest with
    | nil => simp
    | cons d rest => simp [(hapart d rfl).1]
  have hlexeme : lexeme c (tail ++ rest) = (.name word, tail.length) := by
    have htext : String.ofList (c :: tail) = word := by rw [← hword, String.ofList_toList]
    simp only [lexeme, hmark, hstart, htake, htext, Bool.false_eq_true, if_false, if_true]
  rw [hword, List.cons_append,
    scan_of_lexeme (by simp [hblank]) hcomma hcomment hlexeme (by simp), List.drop_left]
  exact ⟨_, _, rfl, rfl⟩

/-- A plain literal is scanned as one token. -/
theorem scan_string {text : String} (h : Quoted.IsPlain text) (hapart : Apart rest) :
    ∃ t stop, scan ('"' :: (text.toList ++ '"' :: rest)) start comma = t :: scan rest stop false ∧
      t.kind = .string text := by
  have hread := Quoted.read?_of_isPlain h fun hhead => (hapart _ hhead).2 rfl
  have hlexeme : lexeme '"' (text.toList ++ '"' :: rest) =
      (.string text, text.toList.length + 1) := by
    rw [lexeme, if_neg (by decide), if_neg (by decide), if_pos rfl, hread]
  have hdrop : (text.toList ++ '"' :: rest).drop (text.toList.length + 1) = rest := by
    rw [← List.drop_drop, List.drop_left]
    rfl
  rw [scan_of_lexeme (by decide) (by decide) (by decide) hlexeme (by simp), hdrop]
  exact ⟨_, _, rfl, rfl⟩

end Scan

/-- The tokens of a text that begins with characters that write tokens are these, and then those of
the rest of the text. -/
theorem Written.scan_append {kinds : List Kind} {cs rest : List Char} (h : Written kinds cs)
    (hrest : Apart rest) (start : Nat) (comma : Bool) :
    ∃ ts stop comma', scan (cs ++ rest) start comma = ts ++ scan rest stop comma' ∧
      ts.map kind = kinds := by
  -- what separates tokens makes none, and each of the others makes one
  induction h generalizing start comma with
  | nil => exact ⟨[], start, comma, rfl, rfl⟩
  | blank hblank _ ih =>
    rw [List.cons_append, scan_of_blank hblank]
    exact ih _ _
  | comma _ ih =>
    rw [List.cons_append, scan_comma]
    exact ih _ _
  | @comment body c kinds cs hbody hend _ ih =>
    -- the comment is read up to the end of the line, which is a blank
    have htake : (body ++ c :: cs ++ rest).takeWhile (!Quoted.isLineEnd ·) = body := by
      rw [List.append_assoc, List.takeWhile_append_of_pos fun d hd => by simp [hbody d hd]]
      simp [hend]
    rw [List.cons_append, scan_comment, htake, List.append_assoc, List.drop_left, List.cons_append,
      scan_of_blank (isBlank_of_isLineEnd hend)]
    exact ih _ _
  | mark hmark _ ih =>
    obtain ⟨t, stop, hscan, hkind⟩ := scan_mark hmark
    obtain ⟨ts, stop', comma', hts, hkinds⟩ := ih stop false
    rw [List.cons_append, hscan, hts]
    exact ⟨t :: ts, stop', comma', rfl, by rw [List.map_cons, hkind, hkinds]⟩
  | name hword hapart _ ih =>
    obtain ⟨t, stop, hscan, hkind⟩ := scan_name hword (hapart.append hrest)
    obtain ⟨ts, stop', comma', hts, hkinds⟩ := ih stop false
    rw [List.append_assoc, hscan, hts]
    exact ⟨t :: ts, stop', comma', rfl, by rw [List.map_cons, hkind, hkinds]⟩
  | string hplain hapart _ ih =>
    obtain ⟨t, stop, hscan, hkind⟩ := scan_string hplain (hapart.append hrest)
    obtain ⟨ts, stop', comma', hts, hkinds⟩ := ih stop false
    rw [List.cons_append, List.append_assoc, List.cons_append, hscan, hts]
    exact ⟨t :: ts, stop', comma', rfl, by rw [List.map_cons, hkind, hkinds]⟩

end Token

end SchemaAtlas
