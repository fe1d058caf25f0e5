import Mathlib.Data.Option.Basic
import SchemaAtlas.Document.Token

/-!
# Tokens of joined texts

A token never reaches over the end of a line behind it, unless a literal is open there. So the
tokens of a text in which nothing is wrong stay what they are when a line feed and more text follow,
and the tokens of that text come behind them.

* `Quoted.read?_append_lineFeed`   literals
* `number?_append_lineFeed`        numbers
* `lexeme_append_lineFeed`         any token
* `scan_append_lineFeed`           a whole text
-/

namespace SchemaAtlas

/-- A run of characters that a line feed ends is the same with and without it. -/
theorem takeWhile_append_lineFeed {p : Char → Bool} (h : p '\n' = false) (cs more : List Char) :
    (cs ++ '\n' :: more).takeWhile p = cs.takeWhile p := by
  induction cs with
  | nil => simp [h]
  | cons c cs ih =>
    rw [List.cons_append, List.takeWhile_cons, List.takeWhile_cons, ih]

/-- A run that ends inside a text is the same when more follows. -/
theorem takeWhile_append_of_inside {p : Char → Bool} {cs : List Char}
    (h : cs.drop (cs.takeWhile p).length ≠ []) (more : List Char) :
    (cs ++ more).takeWhile p = cs.takeWhile p := by
  induction cs with
  | nil => simp at h
  | cons c cs ih =>
    rw [List.cons_append, List.takeWhile_cons, List.takeWhile_cons]
    cases hc : p c with
    | true =>
      have hcs : cs.drop (cs.takeWhile p).length ≠ [] := by simpa [hc] using h
      simp [ih hcs]
    | false => simp

namespace Quoted

/-! ## Literals -/

/-- Four digits are read from the text that holds them, whatever follows. -/
theorem fourDigits?_append {cs : List Char} {n : Nat} (h : fourDigits? cs = some n)
    (more : List Char) : fourDigits? (cs ++ more) = some n ∧ 4 ≤ cs.length := by
  unfold fourDigits? at h
  split at h
  · exact ⟨h, by simp⟩
  · cases h

/-- An escape by four digits, or by two times four, is read from the text that holds it. -/
theorem fixedEscape_append {cs : List Char} {r : Char × Nat} (h : fixedEscape cs = some r)
    (more : List Char) : fixedEscape (cs ++ more) = some r ∧ r.2 ≤ cs.length + 1 := by
  simp only [fixedEscape, Option.bind_eq_bind, Option.bind_eq_some_iff] at h
  obtain ⟨high, hhigh, h⟩ := h
  obtain ⟨hhigh', hlength⟩ := fourDigits?_append hhigh more
  simp only [fixedEscape, hhigh', Option.bind_eq_bind, Option.bind_some]
  rw [List.drop_append_of_le_length hlength]
  -- the first half of a pair, or a character of its own
  split at h
  · next hrange =>
    rw [if_pos hrange]
    split at h
    · next rest hrest =>
      obtain ⟨low, hlow, h⟩ := Option.bind_eq_some_iff.1 h
      obtain ⟨hlow', hlength'⟩ := fourDigits?_append hlow more
      -- the second half is inside the text
      have hdrop : (cs.drop 4).length = rest.length + 2 := by rw [hrest]; rfl
      rw [List.length_drop] at hdrop
      simp only [hrest, List.cons_append, hlow', Option.bind_some]
      refine ⟨h, ?_⟩
      simp only [Option.bind_eq_some_iff, Option.pure_def, Option.some.injEq] at h
      obtain ⟨-, -, c, -, rfl⟩ := h
      show 11 ≤ _
      omega
    · cases h
  · next hrange =>
    rw [if_neg hrange]
    refine ⟨h, ?_⟩
    simp only [Option.bind_eq_some_iff, Option.pure_def, Option.some.injEq] at h
    obtain ⟨c, -, rfl⟩ := h
    show 5 ≤ _
    omega

/-- An escape that is read ends inside the text, so it is the same when more follows. -/
theorem escape?_append {cs : List Char} {r : Char × Nat} (h : escape? cs = some r)
    (more : List Char) : escape? (cs ++ more) = some r ∧ r.2 ≤ cs.length := by
  -- an escape by digits in braces, by four digits, or by a letter
  unfold escape? at h
  split at h
  case h_9 rest =>
    simp only [Option.bind_eq_bind, Option.bind_eq_some_iff] at h
    obtain ⟨_, hguard, h⟩ := h
    obtain ⟨hdigits, hbrace⟩ : rest.takeWhile Text.isHexDigit ≠ [] ∧
        (rest.drop (rest.takeWhile Text.isHexDigit).length).head? = some '\x7d' :=
      (Option.guard_eq_some' _).1 hguard
    -- a brace ends the digits, so they end inside the text
    have hinside : rest.drop (rest.takeWhile Text.isHexDigit).length ≠ [] := by
      intro hnil
      simp [hnil] at hbrace
    have hlength := List.length_pos_iff.2 hinside
    rw [List.length_drop] at hlength
    have hle : (rest.takeWhile Text.isHexDigit).length ≤ rest.length := by omega
    have hbrace' : ((rest ++ more).drop (rest.takeWhile Text.isHexDigit).length).head? =
        some '\x7d' := by
      rw [List.drop_append_of_le_length hle, List.head?_append, hbrace]
      rfl
    obtain ⟨n, hn, c, hc, hr⟩ := h
    obtain rfl := Option.some.inj hr
    have hguard' := (Option.guard_eq_some' ()).2 (And.intro hdigits hbrace')
    simp only [escape?, List.cons_append, takeWhile_append_of_inside hinside, hguard', hn, hc,
      Option.bind_eq_bind, Option.bind_some, List.length_cons]
    refine ⟨rfl, ?_⟩
    omega
  case h_10 rest hno =>
    obtain ⟨hfixed, hlength⟩ := fixedEscape_append h more
    -- more text makes no brace out of the next character
    have hbrace : ∀ tail, rest ++ more ≠ '\x7b' :: tail := by
      intro tail heq
      cases rest with
      | nil => cases h
      | cons c cs =>
        obtain rfl : c = '\x7b' := (List.cons.inj heq).1
        exact hno cs rfl
    refine ⟨?_, by simpa using hlength⟩
    rw [List.cons_append, escape?]
    · exact hfixed
    · exact hbrace
  case h_11 => cases h
  all_goals
    obtain rfl := Option.some.inj h
    exact ⟨rfl, by simp⟩

/-- A literal in single quote marks that is closed is the same when more follows. -/
theorem plain?_append {atStart : Bool} {cs : List Char} {r : List Char × Nat}
    (h : plain? atStart cs = some r) (more : List Char) :
    plain? atStart (cs ++ more) = some r ∧ r.2 ≤ cs.length := by
  -- the reader goes on behind an escape or a character, which is where it goes on in the longer
  -- text
  induction atStart, cs using plain?.induct generalizing r with
  | case1 atStart => simp [plain?] at h
  | case2 atStart rest =>
    rw [plain?, if_pos rfl] at h
    obtain rfl := Option.some.inj h
    exact ⟨by simp [plain?], by simp⟩
  | case3 atStart rest value n hescape hquote ih =>
    -- an escape ends inside the text
    obtain ⟨hescape', hn⟩ := escape?_append hescape more
    rw [plain?, if_neg hquote, if_pos rfl, hescape] at h
    obtain ⟨⟨cs, m⟩, hrest, rfl⟩ := Option.map_eq_some_iff.1 h
    obtain ⟨hrest', hm⟩ := ih hrest
    rw [List.length_drop] at hm
    have hn : n ≤ rest.length := hn
    have hm : m ≤ rest.length - n := hm
    refine ⟨?_, by simp only [List.length_cons]; omega⟩
    rw [List.cons_append, plain?, if_neg hquote, if_pos rfl, hescape']
    simp only [List.drop_append_of_le_length hn, hrest', Option.map_some]
  | case4 atStart rest hescape hquote =>
    rw [plain?, if_neg hquote, if_pos rfl, hescape] at h
    cases h
  | case5 atStart c rest hquote hescape hline =>
    rw [plain?, if_neg hquote, if_neg hescape, if_pos hline] at h
    cases h
  | case6 atStart c rest hquote hescape hline ih =>
    rw [plain?, if_neg hquote, if_neg hescape, if_neg hline] at h
    obtain ⟨⟨cs, m⟩, hrest, rfl⟩ := Option.map_eq_some_iff.1 h
    obtain ⟨hrest', hm⟩ := ih hrest
    have hm : m ≤ rest.length := hm
    refine ⟨?_, by simp only [List.length_cons]; omega⟩
    rw [List.cons_append, plain?, if_neg hquote, if_neg hescape, if_neg hline, hrest']
    rfl

/-- The closing mark of a block literal has three characters. -/
theorem three_le_of_blockBody? {cs : List Char} {r : List Char × Nat}
    (h : blockBody? cs = some r) : 3 ≤ cs.length := by
  -- the closing mark is at the end of every way through the body
  induction cs using blockBody?.induct generalizing r with
  | case1 tail => simp
  | case2 rest ih => simp
  | case3 c rest hclose hescape ih =>
    rw [blockBody?] at h
    · obtain ⟨found, hfound, -⟩ := Option.map_eq_some_iff.1 h
      have := ih hfound
      simp only [List.length_cons]
      omega
    · exact hclose
    · exact hescape
  | case4 => simp [blockBody?] at h

/-- The body of a block literal that is closed is the same when more follows. -/
theorem blockBody?_append {cs : List Char} {r : List Char × Nat} (h : blockBody? cs = some r)
    (more : List Char) : blockBody? (cs ++ more) = some r ∧ r.2 ≤ cs.length := by
  induction cs using blockBody?.induct generalizing r with
  | case1 tail =>
    rw [blockBody?] at h
    obtain rfl := Option.some.inj h
    exact ⟨by simp [blockBody?], by simp⟩
  | case2 rest ih =>
    rw [blockBody?] at h
    obtain ⟨⟨cs, m⟩, hrest, rfl⟩ := Option.map_eq_some_iff.1 h
    obtain ⟨hrest', hm⟩ := ih hrest
    refine ⟨by simp [blockBody?, hrest'], ?_⟩
    simpa using hm
  | case3 c rest hclose hescape ih =>
    rw [blockBody?] at h
    · obtain ⟨⟨cs, m⟩, hrest, rfl⟩ := Option.map_eq_some_iff.1 h
      obtain ⟨hrest', hm⟩ := ih hrest
      -- three characters of the rest are there, so what follows opens no other case
      obtain ⟨x, y, z, tail, rfl⟩ : ∃ x y z tail, rest = x :: y :: z :: tail := by
        have hlength := three_le_of_blockBody? hrest
        rcases rest with _ | ⟨x, _ | ⟨y, _ | ⟨z, tail⟩⟩⟩
        · simp at hlength
        · simp at hlength
        · simp at hlength
        · exact ⟨x, y, z, tail, rfl⟩
      refine ⟨?_, by simpa using hm⟩
      rw [List.cons_append, blockBody?]
      · rw [hrest']
        rfl
      · intro tail' hc heq
        simp only [List.cons_append, List.cons.injEq] at heq
        exact hclose _ hc (by rw [heq.1, heq.2.1])
      · intro tail' hc heq
        simp only [List.cons_append, List.cons.injEq] at heq
        exact hescape _ hc (by rw [heq.1, heq.2.1, heq.2.2.1])
    · exact hclose
    · exact hescape
  | case4 => simp [blockBody?] at h

/-- A literal that is closed stays what it is when a line feed and more text follow. -/
theorem read?_append_lineFeed {cs : List Char} {r : String × Nat} (h : read? cs = some r)
    (more : List Char) : read? (cs ++ '\n' :: more) = some r ∧ r.2 ≤ cs.length := by
  unfold read? at h
  split at h
  · next rest =>
    obtain ⟨⟨raw, n⟩, hbody, rfl⟩ := Option.map_eq_some_iff.1 h
    obtain ⟨hbody', hn⟩ := blockBody?_append hbody ('\n' :: more)
    refine ⟨by simp [read?, hbody'], ?_⟩
    simpa using hn
  · next tail hblock =>
    obtain rfl := Option.some.inj h
    -- the line feed is no third quote mark
    refine ⟨?_, by simp⟩
    rw [List.cons_append, read?]
    intro rest heq
    cases tail with
    | nil => simp at heq
    | cons c tail => exact hblock tail (by rw [(List.cons.inj heq).1])
  · next hblock hempty =>
    obtain ⟨⟨value, n⟩, hplain, rfl⟩ := Option.map_eq_some_iff.1 h
    obtain ⟨hplain', hn⟩ := plain?_append hplain ('\n' :: more)
    refine ⟨?_, hn⟩
    -- neither a block nor an empty literal begins here, with more text or without
    rw [read?, hplain']
    · rfl
    · intro rest heq
      cases cs with
      | nil => simp at heq
      | cons c cs => exact hempty cs (by rw [(List.cons.inj heq).1])
    · intro rest heq
      cases cs with
      | nil => simp at heq
      | cons c cs => exact hempty cs (by rw [(List.cons.inj heq).1])

end Quoted

namespace Token

/-! ## Numbers -/

/-- A line feed is no digit. -/
theorem digits_append_lineFeed (cs more : List Char) :
    digits (cs ++ '\n' :: more) = digits cs := by
  rw [digits, takeWhile_append_lineFeed (by decide), digits]

/-- The digits at the start of a text are inside it. -/
theorem digits_le (cs : List Char) : digits cs ≤ cs.length :=
  (List.takeWhile_sublist _).length_le

/-- The integer part of a number ends before a line feed. -/
theorem integerPart?_append_lineFeed (cs more : List Char) :
    integerPart? (cs ++ '\n' :: more) = integerPart? cs := by
  cases cs with
  | nil => rfl
  | cons c cs =>
    -- a leading zero stands alone
    by_cases hc : c = '0'
    · subst hc
      simp only [integerPart?, List.cons_append, digits_append_lineFeed]
    · have hother (tail : List Char) : integerPart? (c :: tail) =
          if digits (c :: tail) = 0 then none else some (digits (c :: tail)) := by
        rw [integerPart?]
        intro rest heq
        exact hc (List.cons.inj heq).1
      rw [List.cons_append, hother, hother, ← List.cons_append, digits_append_lineFeed]

/-- The integer part of a number is inside the text. -/
theorem integerPart?_le {cs : List Char} {n : Nat} (h : integerPart? cs = some n) :
    n ≤ cs.length := by
  have hdigits := digits_le cs
  unfold integerPart? at h
  split at h
  · split at h
    · obtain rfl := Option.some.inj h
      simp
    · cases h
  · split at h
    · cases h
    · obtain rfl := Option.some.inj h
      exact hdigits

/-- The fraction of a number ends before a line feed. -/
theorem fraction?_append_lineFeed (cs more : List Char) :
    fraction? (cs ++ '\n' :: more) = fraction? cs := by
  cases cs with
  | nil => rfl
  | cons c cs =>
    -- without a point there is no fraction, with more text or without
    by_cases hc : c = '.'
    · subst hc
      simp only [fraction?, List.cons_append, digits_append_lineFeed]
    · have hother (tail : List Char) : fraction? (c :: tail) = some 0 := by
        rw [fraction?]
        intro rest heq
        exact hc (List.cons.inj heq).1
      rw [List.cons_append, hother, hother]

/-- The fraction of a number is inside the text. -/
theorem fraction?_le {cs : List Char} {n : Nat} (h : fraction? cs = some n) : n ≤ cs.length := by
  unfold fraction? at h
  split at h
  · next rest =>
    have := digits_le rest
    split at h
    · cases h
    · obtain rfl := Option.some.inj h
      simpa using this
  · obtain rfl := Option.some.inj h
    exact Nat.zero_le _

/-- The length of the sign at the start of an exponent or of a number. -/
theorem sign_append_lineFeed (cs more : List Char) (c : Char) (hc : c ≠ '\n') :
    (cs ++ '\n' :: more).head? = some c ↔ cs.head? = some c := by
  cases cs with
  | nil => simp [Ne.symm hc]
  | cons c' cs => simp

/-- The exponent of a number ends before a line feed. -/
theorem exponent?_append_lineFeed (cs more : List Char) :
    exponent? (cs ++ '\n' :: more) = exponent? cs := by
  cases cs with
  | nil => rfl
  | cons c rest =>
    -- a sign is there only if a character is
    have hsign :
        (if rest.head? = some '+' ∨ rest.head? = some '-' then 1 else 0) ≤ rest.length := by
      cases rest with
      | nil => simp
      | cons c rest => split <;> simp
    simp only [exponent?, List.cons_append, sign_append_lineFeed rest more '+' (by decide),
      sign_append_lineFeed rest more '-' (by decide), List.drop_append_of_le_length hsign,
      digits_append_lineFeed]

/-- The exponent of a number is inside the text. -/
theorem exponent?_le {cs : List Char} {n : Nat} (h : exponent? cs = some n) : n ≤ cs.length := by
  unfold exponent? at h
  split at h
  · next c rest =>
    split at h
    · generalize hsign : (if rest.head? = some '+' ∨ rest.head? = some '-' then 1 else 0) = sign
        at h
      -- a sign takes one character at most, and the digits are behind it
      have hdigits := digits_le (rest.drop sign)
      rw [List.length_drop] at hdigits
      simp only at h
      split at h
      · cases h
      · obtain rfl := Option.some.inj h
        simp only [List.length_cons]
        omega
    · obtain rfl := Option.some.inj h
      exact Nat.zero_le _
  · obtain rfl := Option.some.inj h
    exact Nat.zero_le _

/-- A number stays what it is when a line feed and more text follow. -/
theorem number?_append_lineFeed {cs : List Char} {n : Nat} (h : number? cs = some n)
    (more : List Char) : number? (cs ++ '\n' :: more) = some n ∧ n ≤ cs.length := by
  have hminus := sign_append_lineFeed cs more '-' (by decide)
  have hsign : (if cs.head? = some '-' then 1 else 0) ≤ cs.length := by
    cases cs with
    | nil => simp
    | cons c rest => split <;> simp
  simp only [number?, Option.bind_eq_bind, Option.bind_eq_some_iff] at h
  simp only [number?, Option.bind_eq_bind, hminus]
  generalize (if cs.head? = some '-' then 1 else 0) = sign at h hsign ⊢
  obtain ⟨whole, hwhole, point, hpoint, power, hpower, h⟩ := h
  -- each part ends inside the text
  have hwhole' := integerPart?_le hwhole
  rw [List.length_drop] at hwhole'
  have hpoint' := fraction?_le hpoint
  rw [List.length_drop] at hpoint'
  have hpower' := exponent?_le hpower
  rw [List.length_drop] at hpower'
  rw [List.drop_append_of_le_length hsign, integerPart?_append_lineFeed, hwhole, Option.bind_some,
    List.drop_append_of_le_length (by omega), fraction?_append_lineFeed, hpoint, Option.bind_some,
    List.drop_append_of_le_length (by omega), exponent?_append_lineFeed, hpower, Option.bind_some,
    List.drop_append_of_le_length (by omega)]
  -- what stands behind the number is a line feed, or what stood there before
  cases hrest : cs.drop (sign + whole + point + power) with
  | nil =>
    simp only [hrest, List.head?_nil, Option.some.injEq] at h
    subst h
    exact ⟨rfl, by omega⟩
  | cons c rest =>
    simp only [hrest, List.head?_cons] at h
    simp only [List.cons_append, List.head?_cons]
    refine ⟨h, ?_⟩
    split at h
    · cases h
    · obtain rfl := Option.some.inj h
      omega

/-! ## Tokens -/

/-- A token stays what it is when a line feed and more text follow. -/
theorem lexeme_append_lineFeed {c : Char} {rest : List Char} (h : (lexeme c rest).1 ≠ .wrong)
    (more : List Char) :
    lexeme c (rest ++ '\n' :: more) = lexeme c rest ∧ (lexeme c rest).2 ≤ rest.length := by
  -- the first character says which kind of token this is, and it is the same in both texts
  unfold lexeme at h ⊢
  by_cases hmark : isPunctuator c = true
  · rw [if_pos hmark, if_pos hmark]
    exact ⟨rfl, Nat.zero_le _⟩
  rw [if_neg hmark] at h
  rw [if_neg hmark, if_neg hmark]
  by_cases hname : isNameStart c = true
  · rw [if_pos hname, if_pos hname, takeWhile_append_lineFeed (by decide)]
    exact ⟨rfl, (List.takeWhile_sublist _).length_le⟩
  rw [if_neg hname] at h
  rw [if_neg hname, if_neg hname]
  by_cases hquote : c = '"'
  · rw [if_pos hquote] at h
    rw [if_pos hquote, if_pos hquote]
    cases hread : Quoted.read? rest with
    | none => simp [hread] at h
    | some r =>
      obtain ⟨hread', hle⟩ := Quoted.read?_append_lineFeed hread more
      rw [hread']
      exact ⟨rfl, hle⟩
  rw [if_neg hquote] at h
  rw [if_neg hquote, if_neg hquote]
  by_cases hpoint : c = '.'
  · rw [if_pos hpoint] at h
    rw [if_pos hpoint, if_pos hpoint]
    -- two more points are needed, so they are there without the text that follows
    rcases rest with _ | ⟨x, _ | ⟨y, rest⟩⟩
    · simp at h
    · simp at h
    · refine ⟨rfl, ?_⟩
      split <;> simp
  rw [if_neg hpoint] at h
  rw [if_neg hpoint, if_neg hpoint]
  by_cases hnumber : (c.isDigit || c = '-') = true
  · rw [if_pos hnumber] at h
    rw [if_pos hnumber, if_pos hnumber]
    cases hread : number? (c :: rest) with
    | none => simp [hread] at h
    | some n =>
      obtain ⟨hread', hle⟩ := number?_append_lineFeed hread more
      rw [List.cons_append] at hread'
      rw [List.length_cons] at hle
      rw [hread']
      refine ⟨rfl, ?_⟩
      show n - 1 ≤ rest.length
      omega
  · rw [if_neg hnumber] at h
    exact absurd rfl h

/-! ## Steps of a scan -/

section Steps

variable {c : Char} {rest : List Char} {start : Nat} {comma : Bool} {kind : Kind} {n : Nat}

/-- Nothing is scanned at the end of a text. -/
theorem scan_nil (start : Nat) (comma : Bool) : scan [] start comma = [] := by
  rw [scan]

/-- A blank is passed over. -/
theorem scan_of_blank (h : isBlank c = true) :
    scan (c :: rest) start comma = scan rest (start + c.utf8Size) comma := by
  rw [scan, if_pos h]

/-- A comma is passed over, and the token behind it keeps that it was there. -/
theorem scan_comma (rest : List Char) (start : Nat) (comma : Bool) :
    scan (',' :: rest) start comma = scan rest (start + ','.utf8Size) true := by
  have hblank : ¬isBlank ',' = true := by decide
  rw [scan, if_neg hblank, if_pos rfl]

/-- A comment reaches to the end of its line. -/
theorem scan_comment (rest : List Char) (start : Nat) (comma : Bool) :
    scan ('#' :: rest) start comma =
      scan (rest.drop (rest.takeWhile (!Quoted.isLineEnd ·)).length)
        (start + '#'.utf8Size + Text.byteLength (rest.takeWhile (!Quoted.isLineEnd ·))) comma := by
  have hblank : ¬isBlank '#' = true := by decide
  have hcomma : '#' ≠ ',' := by decide
  rw [scan, if_neg hblank, if_neg hcomma, if_pos rfl]

/-- A token is scanned, and the scan goes on behind it. -/
theorem scan_of_lexeme (hblank : ¬isBlank c = true) (hcomma : ¬c = ',') (hcomment : ¬c = '#')
    (hlexeme : lexeme c rest = (kind, n)) (hkind : ¬kind = .wrong) :
    scan (c :: rest) start comma =
      { kind, start, stop := start + c.utf8Size + Text.byteLength (rest.take n)
        afterComma := comma } ::
      scan (rest.drop n) (start + c.utf8Size + Text.byteLength (rest.take n)) false := by
  rw [scan, if_neg hblank, if_neg hcomma, if_neg hcomment, hlexeme]
  simp only [if_neg hkind]

/-- Nothing is scanned behind what is no token. -/
theorem scan_of_wrong (hblank : ¬isBlank c = true) (hcomma : ¬c = ',') (hcomment : ¬c = '#')
    (hlexeme : lexeme c rest = (.wrong, n)) :
    scan (c :: rest) start comma =
      [{ kind := .wrong, start, stop := start + c.utf8Size + Text.byteLength (rest.take n)
         afterComma := comma }] := by
  rw [scan, if_neg hblank, if_neg hcomma, if_neg hcomment, hlexeme]
  rfl

end Steps

/-! ## A whole text -/

/-- The tokens of a text in which nothing is wrong stay what they are when a line feed and more
text follow, and the tokens of that text come behind them. -/
theorem scan_append_lineFeed (cs more : List Char) (start : Nat) (comma : Bool)
    (h : ∀ t ∈ scan cs start comma, t.kind ≠ .wrong) :
    ∃ stop comma', scan (cs ++ '\n' :: more) start comma =
      scan cs start comma ++ scan more stop comma' := by
  -- the scan of the longer text takes the same steps until the shorter one ends
  induction cs, start, comma using scan.induct with
  | case1 start comma =>
    have hblank : isBlank '\n' = true := by decide
    refine ⟨start + '\n'.utf8Size, comma, ?_⟩
    rw [scan_nil, List.nil_append, List.nil_append, scan_of_blank hblank]
  | case2 start comma c rest hblank ih =>
    rw [scan_of_blank hblank] at h
    rw [List.cons_append, scan_of_blank hblank, scan_of_blank hblank]
    exact ih h
  | case3 start comma rest hblank ih =>
    rw [scan_comma] at h
    rw [List.cons_append, scan_comma, scan_comma]
    exact ih h
  | case4 start comma rest body hblank hcomma ih =>
    -- the line feed ends the comment, if nothing before it does
    have hbody : (rest ++ '\n' :: more).takeWhile (!Quoted.isLineEnd ·) = body :=
      takeWhile_append_lineFeed (by decide) rest more
    have hle : body.length ≤ rest.length := (List.takeWhile_sublist _).length_le
    rw [scan_comment] at h
    rw [List.cons_append, scan_comment, scan_comment, hbody, List.drop_append_of_le_length hle]
    exact ih h
  | case5 start comma c rest hblank hcomma hcomment n hlexeme =>
    rw [scan_of_wrong hblank hcomma hcomment hlexeme] at h
    exact absurd rfl (h _ (List.mem_singleton.2 rfl))
  | case6 start comma c rest hblank hcomma hcomment kind n hlexeme stop hkind ih =>
    have hne : (lexeme c rest).1 ≠ .wrong := by
      rw [hlexeme]
      exact hkind
    obtain ⟨hlexeme', hle⟩ := lexeme_append_lineFeed hne more
    rw [hlexeme] at hle hlexeme'
    have hle : n ≤ rest.length := hle
    rw [scan_of_lexeme hblank hcomma hcomment hlexeme hkind] at h ⊢
    obtain ⟨stop', comma', hrest⟩ := ih fun t ht => h t (List.mem_cons_of_mem _ ht)
    -- the token is the same one in the longer text, and so are the places behind it
    refine ⟨stop', comma', ?_⟩
    rw [List.cons_append, scan_of_lexeme hblank hcomma hcomment hlexeme' hkind,
      List.drop_append_of_le_length hle, List.take_append_of_le_length hle, hrest, List.cons_append]

end Token

end SchemaAtlas
