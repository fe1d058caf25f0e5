import SchemaAtlas.Proofs.Document.Lexing

/-!
# Names in a text

The names among the tokens of a text stand in the text where they say: a name begins at its offset,
and it ends where no character goes on with it. Tokens come in the order of the text, each one
behind the start of the one before.

* `Token.exists_lexeme_ofText`   every token is read from what stands at its offset
* `Token.standsIn_ofText`   every name stands at its offset
* `Token.pairwise_ofText`, `Token.pairwise_stop_ofText`   tokens start further and further on
-/

namespace SchemaAtlas

/-- Whether a name stands in a text at its offset: it is made of characters that names are made of,
and the one behind it is none of these. -/
def Name.StandsIn (name : Name) (cs : List Char) : Prop :=
  (∀ c ∈ name.text.toList, Token.isNameChar c = true) ∧
    ∃ front behind, cs = front ++ (name.text.toList ++ behind) ∧
      Text.byteLength front = name.start ∧ ∀ c ∈ behind.head?, Token.isNameChar c = false

namespace Token

/-! ## One token -/

/-- What starts a name also goes on with one. -/
theorem isNameChar_of_isNameStart {c : Char} (h : isNameStart c = true) : isNameChar c = true := by
  simp only [isNameStart, isNameChar, Char.isAlphanum, Bool.or_eq_true] at h ⊢
  exact h.imp_left .inl

/-- A token that is a name starts with a character that names start with, and takes all characters
that they go on with. -/
theorem lexeme_of_name {c : Char} {rest : List Char} {text : String} {n : Nat}
    (h : lexeme c rest = (.name text, n)) :
    isNameStart c = true ∧ text = String.ofList (c :: rest.takeWhile isNameChar) ∧
      n = (rest.takeWhile isNameChar).length := by
  by_cases hmark : isPunctuator c = true
  · simp [lexeme, hmark] at h
  by_cases hname : isNameStart c = true
  · rw [lexeme, if_neg hmark, if_pos hname] at h
    obtain ⟨htext, hn⟩ := Prod.mk.inj h
    exact ⟨hname, (Kind.name.inj htext).symm, hn.symm⟩
  · -- no other kind of token is a name
    rw [lexeme, if_neg hmark, if_neg hname] at h
    split at h
    · split at h <;> cases h
    · split at h
      · split at h <;> cases h
      · split at h
        · split at h <;> cases h
        · cases h

/-- A token that is a mark is this one character. -/
theorem lexeme_of_mark {c m : Char} {rest : List Char} {n : Nat}
    (h : lexeme c rest = (.mark m, n)) : c = m ∧ n = 0 := by
  by_cases hmark : isPunctuator c = true
  · rw [lexeme, if_pos hmark] at h
    obtain ⟨hkind, hn⟩ := Prod.mk.inj h
    exact ⟨Kind.mark.inj hkind, hn.symm⟩
  · rw [lexeme, if_neg hmark] at h
    -- no other kind of token is a mark
    split at h
    · cases h
    · split at h
      · split at h <;> cases h
      · split at h
        · split at h <;> cases h
        · split at h
          · split at h <;> cases h
          · cases h

/-- A token that is a literal begins with a quote mark. -/
theorem lexeme_of_string {c : Char} {rest : List Char} {text : String} {n : Nat}
    (h : lexeme c rest = (.string text, n)) : c = '"' := by
  by_contra hquote
  simp only [lexeme, if_neg hquote] at h
  -- each of the other branches gives a token of another kind
  split at h
  · cases h
  · split at h
    · cases h
    · split at h
      · split at h <;> cases h
      · split at h
        · split at h <;> cases h
        · cases h

/-- A token that is a name stands where it starts. -/
theorem standsIn_of_lexeme {c : Char} {done rest : List Char} {text : String} {n : Nat}
    (h : lexeme c rest = (.name text, n)) :
    (⟨text, Text.byteLength done⟩ : Name).StandsIn (done ++ c :: rest) := by
  obtain ⟨hstart, rfl, -⟩ := lexeme_of_name h
  have hchars : (String.ofList (c :: rest.takeWhile isNameChar)).toList =
      c :: rest.takeWhile isNameChar := String.toList_ofList
  refine ⟨?_, done, rest.dropWhile isNameChar, ?_, rfl, ?_⟩
  · rw [hchars, List.forall_mem_cons]
    exact ⟨isNameChar_of_isNameStart hstart, List.all_eq_true.1 List.all_takeWhile⟩
  · rw [hchars, List.cons_append, List.takeWhile_append_dropWhile]
  -- the name was taken for as long as it could go on
  · intro d hd
    have hhead := List.head?_dropWhile_not isNameChar rest
    rw [Option.mem_def.1 hd] at hhead
    simpa using hhead

/-! ## All tokens -/

/-- A token of a text of which `done` has been read is read from what stands at its offset. -/
theorem exists_lexeme_of_mem_scan (cs : List Char) (start : Nat) (comma : Bool) :
    ∀ done, Text.byteLength done = start → ∀ t ∈ scan cs start comma, ∃ front c rest n,
      done ++ cs = front ++ c :: rest ∧ lexeme c rest = (t.kind, n) ∧
        t.start = Text.byteLength front ∧
        t.stop = t.start + Text.byteLength (c :: rest.take n) := by
  -- what is passed over joins `done`, and the others are tokens of what is left
  induction cs, start, comma using scan.induct with
  | case1 start comma =>
    intro done hdone t ht
    rw [scan_nil] at ht
    cases ht
  | case2 start comma c rest hblank ih =>
    intro done hdone t ht
    rw [scan_of_blank hblank] at ht
    have h := ih (done ++ [c]) (by simp [hdone]) t ht
    rwa [List.append_assoc] at h
  | case3 start comma rest hblank ih =>
    intro done hdone t ht
    rw [scan_comma] at ht
    have h := ih (done ++ [',']) (by simp [hdone]) t ht
    rwa [List.append_assoc] at h
  | case4 start comma rest body hblank hcomma ih =>
    intro done hdone t ht
    rw [scan_comment] at ht
    have hrest : body ++ rest.drop body.length = rest :=
      List.prefix_iff_eq_append.1 (List.takeWhile_prefix _)
    have h := ih (done ++ '#' :: body) (by simp [hdone, Nat.add_assoc]) t ht
    rwa [List.append_assoc, List.cons_append, hrest] at h
  | case5 start comma c rest hblank hcomma hcomment n hlexeme =>
    intro done hdone t ht
    rw [scan_of_wrong hblank hcomma hcomment hlexeme] at ht
    obtain rfl := List.mem_singleton.1 ht
    exact ⟨done, c, rest, n, rfl, hlexeme, hdone.symm, Nat.add_assoc ..⟩
  | case6 start comma c rest hblank hcomma hcomment kind n hlexeme stop hkind ih =>
    intro done hdone t ht
    rw [scan_of_lexeme hblank hcomma hcomment hlexeme hkind] at ht
    rcases List.mem_cons.1 ht with rfl | ht
    · -- the token in hand begins behind what has been read
      exact ⟨done, c, rest, n, rfl, hlexeme, hdone.symm, Nat.add_assoc ..⟩
    · have h := ih (done ++ c :: rest.take n) (by simp [hdone, stop, Nat.add_assoc]) t ht
      rwa [List.append_assoc, List.cons_append, List.take_append_drop] at h

/-- A scan finds no token before the place where it starts. -/
theorem start_le_of_mem_scan {cs : List Char} {start : Nat} {comma : Bool} {t : Token}
    (ht : t ∈ scan cs start comma) : start ≤ t.start := by
  -- each step of the scan goes on further behind
  induction cs, start, comma using scan.induct with
  | case1 start comma =>
    rw [scan_nil] at ht
    cases ht
  | case2 start comma c rest hblank ih =>
    rw [scan_of_blank hblank] at ht
    exact Nat.le_trans (Nat.le_add_right _ _) (ih ht)
  | case3 start comma rest hblank ih =>
    rw [scan_comma] at ht
    exact Nat.le_trans (Nat.le_add_right _ _) (ih ht)
  | case4 start comma rest body hblank hcomma ih =>
    rw [scan_comment] at ht
    have h := ih ht
    omega
  | case5 start comma c rest hblank hcomma hcomment n hlexeme =>
    rw [scan_of_wrong hblank hcomma hcomment hlexeme] at ht
    obtain rfl := List.mem_singleton.1 ht
    exact Nat.le_refl _
  | case6 start comma c rest hblank hcomma hcomment kind n hlexeme stop hkind ih =>
    rw [scan_of_lexeme hblank hcomma hcomment hlexeme hkind] at ht
    rcases List.mem_cons.1 ht with rfl | ht
    · exact Nat.le_refl _
    · have h := ih ht
      omega

/-- A token takes a character at least, and the tokens behind it start where it ends or further
on. -/
theorem pairwise_scan (cs : List Char) (start : Nat) (comma : Bool) :
    (scan cs start comma).Pairwise fun t u => t.start < t.stop ∧ t.stop ≤ u.start := by
  induction cs, start, comma using scan.induct with
  | case1 start comma =>
    rw [scan_nil]
    exact .nil
  | case2 start comma c rest hblank ih =>
    rw [scan_of_blank hblank]
    exact ih
  | case3 start comma rest hblank ih =>
    rw [scan_comma]
    exact ih
  | case4 start comma rest body hblank hcomma ih =>
    rw [scan_comment]
    exact ih
  | case5 start comma c rest hblank hcomma hcomment n hlexeme =>
    rw [scan_of_wrong hblank hcomma hcomment hlexeme]
    exact List.pairwise_singleton _ _
  | case6 start comma c rest hblank hcomma hcomment kind n hlexeme stop hkind ih =>
    rw [scan_of_lexeme hblank hcomma hcomment hlexeme hkind]
    -- the next token starts behind the characters of this one
    refine List.pairwise_cons.2 ⟨fun t ht => ⟨?_, start_le_of_mem_scan ht⟩, ih⟩
    have hsize := c.utf8Size_pos
    show start < start + c.utf8Size + _
    omega

/-- Every token of a text is read from what stands at its offset. -/
theorem exists_lexeme_ofText {text : String} {t : Token} (ht : t ∈ ofText text) :
    ∃ front c rest n, text.toList = front ++ c :: rest ∧ lexeme c rest = (t.kind, n) ∧
      t.start = Text.byteLength front ∧ t.stop = t.start + Text.byteLength (c :: rest.take n) :=
  exists_lexeme_of_mem_scan text.toList 0 false [] rfl t ht

/-- Every name among the tokens of a text stands in it. -/
theorem standsIn_ofText {text : String} {t : Token} (ht : t ∈ ofText text) {name : Name}
    (hname : t.name? = some name) : name.StandsIn text.toList := by
  obtain ⟨front, c, rest, n, htext, hlexeme, hstart, -⟩ := exists_lexeme_ofText ht
  obtain ⟨kind, start, stop, afterComma⟩ := t
  cases kind with
  | name word =>
    obtain rfl := Option.some.inj hname
    obtain rfl : start = Text.byteLength front := hstart
    exact htext ▸ standsIn_of_lexeme hlexeme
  | _ => cases hname

/-- The tokens of a text start further and further on, each one behind the end of those before. -/
theorem pairwise_stop_ofText (text : String) :
    (ofText text).Pairwise fun t u => t.start < t.stop ∧ t.stop ≤ u.start :=
  pairwise_scan _ _ _

/-- The tokens of a text start further and further on. -/
theorem pairwise_ofText (text : String) : (ofText text).Pairwise (·.start < ·.start) :=
  (pairwise_stop_ofText text).imp fun h => Nat.lt_of_lt_of_le h.1 h.2

/-- A name starts where its token does. -/
theorem start_of_name? {t : Token} {name : Name} (h : t.name? = some name) :
    name.start = t.start := by
  obtain ⟨kind, start, stop, afterComma⟩ := t
  cases kind with
  | name text =>
    obtain rfl := Option.some.inj h
    rfl
  | _ => cases h

/-- The names among the tokens of a text start further and further on, too. -/
theorem pairwise_names_ofText (text : String) :
    ((ofText text).filterMap name?).Pairwise (·.start < ·.start) := by
  refine List.pairwise_filterMap.2 ((pairwise_ofText text).imp ?_)
  intro t u hlt a ha b hb
  rwa [start_of_name? ha, start_of_name? hb]

end Token

end SchemaAtlas
