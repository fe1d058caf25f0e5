import SchemaAtlas.Proofs.Document.Parts
import SchemaAtlas.Proofs.Lists
import SchemaAtlas.Proofs.Text.Places

/-!
# The entries of operations and fragments

The range of an entry cuts a piece out of the text that begins as the kind of the entry says and
ends with a closing brace. White space that a node takes in behind its last token is cut off again,
whatever characters it is made of.

* `Text.slice?_eq_some`, `Text.trimEnd_append`   what a range cuts out, and what trimming leaves
* `Document.collectOperations_eq`   where nodes end makes no difference
* `OperationEntry.CutsOut`          what the range of an entry cuts out
* `Document.collectOperations_exact`   the entries of a document without syntax errors
-/

namespace SchemaAtlas

namespace Text

/-! ## Pieces of a text -/

/-- What is left of a text behind some bytes is a piece at its end. -/
theorem dropBytes?_eq_some {cs rest : List Char} {n : Nat} (h : dropBytes? cs n = some rest) :
    ∃ front, cs = front ++ rest ∧ byteLength front = n := by
  -- character by character, each of which takes its own bytes
  induction cs generalizing n with
  | nil =>
    cases n with
    | zero =>
      obtain rfl := Option.some.inj h
      exact ⟨[], rfl, rfl⟩
    | succ n => cases h
  | cons c cs ih =>
    cases n with
    | zero =>
      obtain rfl := Option.some.inj h
      exact ⟨[], rfl, rfl⟩
    | succ n =>
      rw [dropBytes?] at h
      split at h
      · obtain ⟨front, rfl, hfront⟩ := ih h
        exact ⟨c :: front, rfl, by rw [byteLength_cons]; omega⟩
      · cases h

/-- The first bytes of a text are a piece at its start. -/
theorem takeBytes?_eq_some {cs front : List Char} {n : Nat} (h : takeBytes? cs n = some front) :
    ∃ rest, cs = front ++ rest ∧ byteLength front = n := by
  -- character by character, as above
  induction cs generalizing n front with
  | nil =>
    cases n with
    | zero =>
      obtain rfl := Option.some.inj h
      exact ⟨[], rfl, rfl⟩
    | succ n => cases h
  | cons c cs ih =>
    cases n with
    | zero =>
      obtain rfl := Option.some.inj h
      exact ⟨c :: cs, rfl, rfl⟩
    | succ n =>
      rw [takeBytes?] at h
      split at h
      · obtain ⟨front, hfront, rfl⟩ := Option.map_eq_some_iff.1 h
        obtain ⟨rest, rfl, hlength⟩ := ih hfront
        exact ⟨rest, rfl, by rw [byteLength_cons]; omega⟩
      · cases h

/-- What a range cuts out stands in the text between two runs of characters. -/
theorem slice?_eq_some {cs slice : List Char} {start stop : Nat}
    (h : slice? cs start stop = some slice) :
    ∃ front behind, cs = front ++ (slice ++ behind) ∧ byteLength front = start ∧
      start + byteLength slice = stop := by
  rw [slice?] at h
  split at h
  · obtain ⟨rest, hdrop, htake⟩ := Option.bind_eq_some_iff.1 h
    obtain ⟨front, rfl, hfront⟩ := dropBytes?_eq_some hdrop
    obtain ⟨behind, rfl, hslice⟩ := takeBytes?_eq_some htake
    exact ⟨front, behind, rfl, hfront, by omega⟩
  · cases h

/-- A piece of a text begins and ends between characters, and is what its range cuts out. -/
theorem cut_of_append {text : String} {front slice behind : List Char}
    (h : text.toList = front ++ (slice ++ behind)) :
    IsBoundary text (byteLength front) ∧
      IsBoundary text (byteLength front + byteLength slice) ∧
      byteLength front + byteLength slice ≤ text.utf8ByteSize ∧
      slice? text.toList (byteLength front) (byteLength front + byteLength slice) = some slice := by
  have hsize : text.utf8ByteSize = byteLength front + byteLength slice + byteLength behind := by
    rw [← byteLength_toList, h, byteLength_append, byteLength_append, Nat.add_assoc]
  refine ⟨⟨front, slice ++ behind, h, rfl⟩, ⟨front ++ slice, behind, ?_, ?_⟩, by omega, ?_⟩
  · rw [h, List.append_assoc]
  · exact byteLength_append front slice
  · rw [h, slice?_append]

/-- Two ways to split a text at one offset are the same. -/
theorem append_inj_of_byteLength {as bs cs ds : List Char} (h : as ++ bs = cs ++ ds)
    (hlength : byteLength as = byteLength cs) : as = cs ∧ bs = ds := by
  obtain ⟨between, rfl⟩ := prefix_of_byteLength_le h (Nat.le_of_eq hlength)
  rw [byteLength_append] at hlength
  cases between with
  | nil => exact ⟨(List.append_nil as).symm, by simpa using h⟩
  | cons c between =>
    have hc := c.utf8Size_pos
    rw [byteLength_cons] at hlength
    omega

/-- Trimming takes white space away, up to a character that is none. -/
theorem trimEnd_append {slice blanks : List Char} (hblanks : ∀ c ∈ blanks, isBlank c = true)
    (hlast : ∀ c ∈ slice.getLast?, isBlank c = false) : trimEnd (slice ++ blanks) = slice := by
  have hkept : slice.reverse.dropWhile isBlank = slice.reverse := by
    cases hreverse : slice.reverse with
    | nil => rfl
    | cons c cs =>
      have hc : isBlank c = false := hlast c (by rw [← List.head?_reverse, hreverse]; rfl)
      rw [List.dropWhile_cons_of_neg (by simp [hc])]
  rw [trimEnd, List.reverse_append,
    List.dropWhile_append_of_pos fun c hc => hblanks c (List.mem_reverse.1 hc), hkept,
    List.reverse_reverse]

/-- Nothing is trimmed from a text that begins and ends with other characters. -/
theorem trim_eq_self {cs : List Char} (hfirst : ∀ c ∈ cs.head?, isBlank c = false)
    (hlast : ∀ c ∈ cs.getLast?, isBlank c = false) : trim cs = cs := by
  have hdrop : cs.dropWhile isBlank = cs := by
    cases cs with
    | nil => rfl
    | cons c cs => rw [List.dropWhile_cons_of_neg (by simp [hfirst c rfl])]
  have htrim : trim cs = trimEnd (cs ++ []) := by
    rw [trim, hdrop, List.append_nil, trimEnd]
  rw [htrim, trimEnd_append (by simp) hlast]

/-- Whether nothing but white space stands between two offsets of a text. -/
def isBlankBetween (text : String) (start stop : Nat) : Bool :=
  (slice? text.toList start stop).any (·.all isBlank)

/-- White space between two offsets is a piece of the text. -/
theorem exists_blanks {text : String} {start stop : Nat}
    (h : isBlankBetween text start stop = true) :
    ∃ blanks, slice? text.toList start stop = some blanks ∧ ∀ c ∈ blanks, isBlank c = true := by
  rw [isBlankBetween] at h
  cases hslice : slice? text.toList start stop with
  | none => simp [hslice] at h
  | some blanks => exact ⟨blanks, rfl, by simpa [hslice] using h⟩

end Text

/-! ## Tokens and what stands between them -/

namespace Token

variable {text : String} {t first closing : Token}

/-- A name ends behind its last character. -/
theorem stop_of_name (ht : t ∈ ofText text) {name : Name} (hname : t.name? = some name) :
    t.stop = t.start + Text.byteLength name.text.toList := by
  obtain ⟨front, c, rest, n, -, hlexeme, -, hstop⟩ := exists_lexeme_ofText ht
  obtain ⟨kind, start, stop, afterComma⟩ := t
  cases kind with
  | name word =>
    obtain rfl := Option.some.inj hname
    obtain ⟨-, rfl, rfl⟩ := lexeme_of_name hlexeme
    -- the characters taken are all those that a name can go on with
    have htake : rest.take (rest.takeWhile isNameChar).length = rest.takeWhile isNameChar :=
      (List.prefix_iff_eq_take.1 (List.takeWhile_prefix _)).symm
    rw [htake] at hstop
    simpa using hstop
  | _ => cases hname

/-- Tokens in order lie between the first and the last one. -/
theorem inside_of_pairwise {between : List Token}
    (h : (first :: (between ++ [closing])).Pairwise fun t u => t.start < t.stop ∧ t.stop ≤ u.start)
    (hclosing : closing.start ≤ closing.stop) :
    ∀ t ∈ first :: (between ++ [closing]), first.start ≤ t.start ∧ t.stop ≤ closing.stop := by
  obtain ⟨hbehind, hpairwise⟩ := List.pairwise_cons.1 h
  intro t ht
  -- the first token, those between, and the last one
  rcases List.mem_cons.1 ht with rfl | ht
  · have hlast := hbehind closing (by simp)
    omega
  · have hfirst := hbehind t ht
    rcases List.mem_append.1 ht with ht | ht
    · have hlast := (List.pairwise_append.1 hpairwise).2.2 t ht closing (by simp)
      omega
    · obtain rfl := List.mem_singleton.1 ht
      omega

end Token

/-! ## What entries say -/

namespace OperationEntry

/-- The kind, the name and the range of an entry are what the tokens of its part say. -/
structure Describes (entry : OperationEntry) (part : List Token) : Prop where
  kind : Grammar.executableKind? part = some entry.kind
  name : entry.name = ((Grammar.executableName? part).map Name.text).getD anonymousOperation
  range : ∃ first between closing, part = first :: (between ++ [closing]) ∧
    closing.kind = .mark '\x7d' ∧ entry.range = ⟨first.start, closing.stop⟩

/-- How the text of an entry begins: with the keyword of its kind; with a brace, for a query without
a name; or with a literal that stands directly before the name of a fragment called `fragment`. -/
inductive Opens (entry : OperationEntry) (part : List Token) : List Char → Prop
  | keyword {more : List Char} (hmore : ∀ c ∈ more.head?, Token.isNameChar c = false) :
      Opens entry part (entry.kind.keyword.toList ++ more)
  | shorthand {more : List Char} (hkind : entry.kind = .query)
      (hname : entry.name = anonymousOperation) : Opens entry part ('\x7b' :: more)
  | literal {more : List Char} {literal word : Token} {behind : List Token}
      (hpart : part = literal :: word :: behind) (hliteral : literal.isString = true)
      (hword : word.kind = .name "fragment") (hcomma : word.afterComma = false)
      (hkind : entry.kind = .fragment) (hname : entry.name = "fragment") :
      Opens entry part ('"' :: more)

/-- The text of an entry does not begin with white space. -/
theorem Opens.not_isBlank_head {entry : OperationEntry} {part : List Token} {slice : List Char}
    (h : entry.Opens part slice) : ∀ c ∈ slice.head?, Text.isBlank c = false := by
  cases h with
  | keyword =>
    have hkeyword : ∃ c cs, entry.kind.keyword.toList = c :: cs ∧ Text.isBlank c = false := by
      cases entry.kind with
      | query => exact ⟨'q', _, rfl, by decide⟩
      | mutation => exact ⟨'m', _, rfl, by decide⟩
      | subscription => exact ⟨'s', _, rfl, by decide⟩
      | fragment => exact ⟨'f', _, rfl, by decide⟩
    obtain ⟨c, cs, hchars, hc⟩ := hkeyword
    simpa [hchars] using hc
  | shorthand => simpa using (by decide : Text.isBlank '\x7b' = false)
  | literal => simpa using (by decide : Text.isBlank '"' = false)

/-- The range of an entry cuts a piece out of a text: it is not empty, both ends stand between
characters, and the piece begins as the kind says, ends with a brace and has no white space around
it. The name of the entry, if its part gives it one, is a name in the piece. -/
structure CutsOut (entry : OperationEntry) (text : String) (part : List Token) : Prop where
  lt : entry.range.start < entry.range.stop
  le : entry.range.stop ≤ text.utf8ByteSize
  start : Text.IsBoundary text entry.range.start
  stop : Text.IsBoundary text entry.range.stop
  slice : ∃ slice, Text.slice? text.toList entry.range.start entry.range.stop = some slice ∧
    entry.Opens part slice ∧ slice.getLast? = some '\x7d' ∧ Text.trim slice = slice
  name : ∀ name ∈ Grammar.executableName? part, entry.name = name.text ∧
    name.StandsIn text.toList ∧ ∃ t ∈ part, t.name? = some name ∧
      entry.range.start ≤ t.start ∧ t.stop ≤ entry.range.stop

end OperationEntry

section Part

variable {text : String} {executable : Executable} {part : List Token}

/-- The entry of an operation or a fragment says what the tokens of its part say. -/
theorem Executable.IsPart.describes (h : executable.IsPart part) (uri : String)
    (persisted : Bool) : (executable.entry uri persisted).Describes part := by
  obtain ⟨hkind, hname, first, between, closing, hpart, hclosing, hstart, hstop⟩ := h
  refine ⟨hkind, by rw [← hname]; rfl, first, between, closing, hpart, hclosing, ?_⟩
  rw [entry, hstart, hstop]

/-- A token that is read from a run of characters begins with the first of them. -/
theorem Token.exists_head {first : Token} (hfirst : first ∈ Token.ofText text)
    {front middle behind : List Char} (htext : text.toList = front ++ (middle ++ behind))
    (hfront : Text.byteLength front = first.start)
    (hmiddle : first.start < first.start + Text.byteLength middle) :
    ∃ c rest n more, Token.lexeme c rest = (first.kind, n) ∧ middle = c :: more := by
  obtain ⟨front', c, rest, n, htext', hlexeme, hfront', -⟩ := Token.exists_lexeme_ofText hfirst
  -- both cut the text at the same byte, and so at the same character
  obtain ⟨rfl, hrest⟩ := Text.append_inj_of_byteLength (htext.symm.trans htext')
    (hfront.trans hfront')
  cases middle with
  | nil => exact absurd hmiddle (Nat.lt_irrefl _)
  | cons x more =>
    obtain rfl : x = c := (List.cons.inj hrest).1
    exact ⟨x, rest, n, more, hlexeme, rfl⟩

/-- A name that is read from a run of characters before a brace is followed by no character that it
could go on with. -/
theorem Token.exists_tail {first : Token} (hfirst : first ∈ Token.ofText text) {name : Name}
    (hname : first.name? = some name) {front middle behind : List Char}
    (htext : text.toList = front ++ (middle ++ '\x7d' :: behind))
    (hfront : Text.byteLength front = first.start)
    (hmiddle : first.stop ≤ first.start + Text.byteLength middle) :
    ∃ rest, middle ++ ['\x7d'] = name.text.toList ++ rest ∧
      ∀ c ∈ rest.head?, Token.isNameChar c = false := by
  obtain ⟨-, front', behind', htext', hfront', hbehind'⟩ := Token.standsIn_ofText hfirst hname
  have hstart : name.start = first.start := Token.start_of_name? hname
  obtain ⟨rfl, hsame⟩ := Text.append_inj_of_byteLength (htext.symm.trans htext')
    (by rw [hfront, hfront', hstart])
  -- the run goes on at least as far as the name
  have hstop := Token.stop_of_name hfirst hname
  have hshort : Text.byteLength name.text.toList ≤ Text.byteLength middle := by omega
  obtain ⟨between, rfl⟩ := Text.prefix_of_byteLength_le hsame.symm hshort
  have hbehind : behind' = between ++ '\x7d' :: behind := by
    rw [List.append_assoc] at hsame
    exact (List.append_cancel_left hsame).symm
  refine ⟨between ++ ['\x7d'], List.append_assoc .., fun c hc => hbehind' c ?_⟩
  rw [hbehind]
  cases between with
  | nil => exact hc
  | cons x between => exact hc

/-- What stands from the first token of a part on begins as the part says. -/
theorem Executable.IsPart.opens {first : Token} {ts : List Token}
    (h : executable.IsPart (first :: ts)) (hfirst : first ∈ Token.ofText text)
    (hlt : first.start < first.stop) {front middle behind : List Char}
    (htext : text.toList = front ++ (middle ++ '\x7d' :: behind))
    (hfront : Text.byteLength front = first.start)
    (hmiddle : first.stop ≤ first.start + Text.byteLength middle) (uri : String)
    (persisted : Bool) :
    (executable.entry uri persisted).Opens (first :: ts) (middle ++ ['\x7d']) := by
  obtain ⟨c, rest, n, more, hlexeme, hmore⟩ :=
    Token.exists_head hfirst htext hfront (Nat.lt_of_lt_of_le hlt hmiddle)
  have hname : (executable.entry uri persisted).name =
      ((Grammar.executableName? (first :: ts)).map Name.text).getD anonymousOperation := by
    rw [← h.name]
    rfl
  -- the kind was told by the first token in one of three ways
  rcases Grammar.executableKind?_cases h.kind with ⟨hbrace, hkind⟩ | hword | ⟨hstring, hword, hkind⟩
  · -- a selection set
    rw [hbrace] at hlexeme
    obtain ⟨rfl, -⟩ := Token.lexeme_of_mark hlexeme
    have hnone : Grammar.executableName? (first :: ts) = none := by
      cases ts with
      | nil => rfl
      | cons t ts => simp [Grammar.executableName?, Token.isMark, hbrace]
    rw [hnone] at hname
    rw [hmore, List.cons_append]
    exact .shorthand hkind hname
  · -- the keyword
    have hkeyword : first.name? = some ⟨executable.kind.keyword, first.start⟩ := by
      simp [Token.name?, hword]
    obtain ⟨rest, hslice, hrest⟩ := Token.exists_tail hfirst hkeyword htext hfront hmiddle
    rw [hslice]
    exact .keyword hrest
  · -- a literal in place of the keyword, which is the name then
    obtain ⟨value, hliteral⟩ := Salvage.exists_string hstring
    rw [hliteral] at hlexeme
    obtain rfl := Token.lexeme_of_string hlexeme
    obtain ⟨t, ts, rfl, hcomma, ht⟩ := Salvage.Chosen.wordBehind_eq_some hword
    have hfragment : Grammar.executableName? (first :: t :: ts) = some ⟨"fragment", t.start⟩ := by
      simp [Grammar.executableName?, Token.isMark, Token.name?, hliteral, ht]
    rw [hfragment] at hname
    rw [hmore, List.cons_append]
    exact .literal rfl hstring ht hcomma hkind hname

/-- The text of an operation or a fragment can be cut out of the text by its range. -/
theorem Executable.IsPart.cutsOut (h : executable.IsPart part)
    (htokens : ∀ t ∈ part, t ∈ Token.ofText text)
    (hpairwise : part.Pairwise fun t u => t.start < t.stop ∧ t.stop ≤ u.start) (uri : String)
    (persisted : Bool) : (executable.entry uri persisted).CutsOut text part := by
  obtain ⟨first, between, closing, rfl, hclosing, hstart, hstop⟩ := h.ends
  obtain ⟨hlt, hle⟩ := (List.pairwise_cons.1 hpairwise).1 closing (by simp)
  have hfirst : first ∈ Token.ofText text := htokens first (by simp)
  obtain ⟨front, middle, behind, htext, hfront, hmiddle, hbrace⟩ :=
    Token.exists_cut hfirst (htokens closing (by simp)) hle hlt hclosing
  have hopens := h.opens hfirst hlt htext hfront (by omega) uri persisted
  -- the piece goes as far as the closing brace
  have htext' : text.toList = front ++ ((middle ++ ['\x7d']) ++ behind) := by
    rw [htext, List.append_assoc]
    rfl
  have hlength : Text.byteLength (middle ++ ['\x7d']) = Text.byteLength middle + 1 := by
    rw [Text.byteLength_append]
    rfl
  have hstart' : executable.start = Text.byteLength front := hstart.trans hfront.symm
  have hstop' : executable.stop = Text.byteLength front + Text.byteLength (middle ++ ['\x7d']) := by
    omega
  obtain ⟨hfirst', hlast', hsize, hslice⟩ := Text.cut_of_append htext'
  rw [← hstop'] at hlast' hsize hslice
  rw [← hstart'] at hfirst' hslice
  have hlast : (middle ++ ['\x7d']).getLast? = some '\x7d' := List.getLast?_concat
  have htrim : Text.trim (middle ++ ['\x7d']) = middle ++ ['\x7d'] := by
    refine Text.trim_eq_self hopens.not_isBlank_head ?_
    rw [hlast]
    simpa using (by decide : Text.isBlank '\x7d' = false)
  have hlt' : executable.start < executable.stop := by omega
  refine ⟨hlt', hsize, hfirst', hlast', ⟨_, hslice, hopens, hlast, htrim⟩, ?_⟩
  intro name hname
  obtain ⟨t, ht, htname⟩ := Grammar.exists_token_of_executableName? hname
  have hentry : (executable.entry uri persisted).name = name.text := by
    rw [Executable.entry, h.name, Option.mem_def.1 hname]
    rfl
  have hinside := Token.inside_of_pairwise hpairwise (by omega) t ht
  rw [← hstart, ← hstop] at hinside
  exact ⟨hentry, Token.standsIn_ofText (htokens t ht) htname, t, ht, htname, hinside⟩

end Part

/-! ## All entries of a document -/

/-- White space behind a range is trimmed away. -/
theorem trimmedRange_eq {text : String} {start stop stop' : Nat} {slice : List Char}
    (hslice : Text.slice? text.toList start stop = some slice)
    (hlast : ∀ c ∈ slice.getLast?, Text.isBlank c = false)
    (hblank : Text.isBlankBetween text stop stop' = true) :
    trimmedRange text start stop' = ⟨start, stop⟩ := by
  obtain ⟨blanks, hblanks, hall⟩ := Text.exists_blanks hblank
  obtain ⟨front, behind, htext, hstart, hstop⟩ := Text.slice?_eq_some hslice
  obtain ⟨front', behind', htext', hstart', hstop'⟩ := Text.slice?_eq_some hblanks
  -- the white space stands behind the piece
  obtain ⟨rfl, rfl⟩ : front' = front ++ slice ∧ blanks ++ behind' = behind := by
    refine Text.append_inj_of_byteLength ?_ ?_
    · rw [← htext', htext, List.append_assoc]
    · rw [hstart', Text.byteLength_append]
      omega
  have hcut : text.toList = front ++ ((slice ++ blanks) ++ behind') := by
    rw [htext, List.append_assoc]
  have hlength : stop' = Text.byteLength front + Text.byteLength (slice ++ blanks) := by
    rw [Text.byteLength_append]
    omega
  have htrim : Text.trimEnd (slice ++ blanks) = slice :=
    Text.trimEnd_append hall hlast
  rw [trimmedRange, hcut, ← hstart, hlength, Text.slice?_append]
  simp only [htrim]
  rw [hstart, hstop]

namespace Document

variable {text : String}

/-- The operations and fragments of a text without syntax errors are what their parts say, and their
ranges cut them out, each one behind those before. -/
theorem exists_cuttings (h : (ofText text).isSound = true) (uri : String) (persisted : Bool) :
    ∃ parts, Token.ofText text = parts.flatten ∧
      Salvage.ReadsParts parts (ofText text).definitions ∧
      List.Forall₂ (fun part executable =>
          (executable.entry uri persisted).Describes part ∧
            (executable.entry uri persisted).CutsOut text part)
        (parts.filter fun part => (Grammar.executableKind? part).isSome)
        (ofText text).executables ∧
      (ofText text).executables.Pairwise fun a b => a.stop ≤ b.start := by
  obtain ⟨parts, htokens, hreads, hparts⟩ := exists_parts h
  obtain ⟨hinside, hacross⟩ :=
    List.pairwise_flatten.1 (htokens ▸ Token.pairwise_stop_ofText text)
  refine ⟨parts, htokens, hreads, ?_, ?_⟩
  -- each part is made of tokens of the text, in their order
  · have hcut : ∀ part ∈ parts.filter fun part => (Grammar.executableKind? part).isSome,
        (∀ t ∈ part, t ∈ Token.ofText text) ∧
          part.Pairwise fun t u => t.start < t.stop ∧ t.stop ≤ u.start := by
      intro part hpart
      have hmem := (List.mem_filter.1 hpart).1
      exact ⟨fun t ht => htokens ▸ List.mem_flatten.2 ⟨part, hmem, ht⟩, hinside part hmem⟩
    refine ((List.forall₂_and_left _ _).2 ⟨hcut, hparts⟩).imp ?_
    rintro part executable ⟨⟨hmem, hpairwise⟩, hpart⟩
    exact ⟨hpart.describes uri persisted, hpart.cutsOut hmem hpairwise uri persisted⟩
  · -- the last token of a part ends before the first one of a later part
    refine hparts.pairwise_right (hacross.filter _) ?_
    rintro part part' a b ⟨-, -, _, _, closing, rfl, -, -, hstop⟩
      ⟨-, -, first, _, _, rfl, -, hstart, -⟩ hbehind
    have hle := (hbehind closing (by simp) first (by simp)).2
    omega

/-- It makes no difference where nodes end, as long as nothing but white space stands between the
last token of a node and its end. -/
theorem collectOperations_eq (h : (ofText text).isSound = true) {nodeEnd : Executable → Nat}
    (hnodes : ∀ executable ∈ (ofText text).executables,
      Text.isBlankBetween text executable.stop (nodeEnd executable) = true)
    (uri : String) (persisted : Bool) :
    (ofText text).collectOperations text nodeEnd uri persisted =
      (ofText text).operationEntries uri persisted := by
  obtain ⟨parts, -, -, hparts, -⟩ := exists_cuttings h uri persisted
  refine List.map_congr_left fun executable hmem => ?_
  obtain ⟨part, -, -, hcut⟩ := hparts.exists_of_mem_right hmem
  obtain ⟨slice, hslice, -, hlast, -⟩ := hcut.slice
  -- a definition ends with a brace, so trimming stops there
  have hbrace : ∀ c ∈ slice.getLast?, Text.isBlank c = false := by
    rw [hlast]
    simpa using (by decide : Text.isBlank '\x7d' = false)
  have hrange : trimmedRange text executable.start (nodeEnd executable) =
      ⟨executable.start, executable.stop⟩ :=
    trimmedRange_eq hslice hbrace (hnodes executable hmem)
  rw [hrange]
  rfl

/-- The entries of a text without syntax errors are those of its operations and fragments, one for
each part of the text that introduces one, in the order of the text. Each entry is what its part
says, and its range cuts it out of the text, behind the ranges before. White space that nodes take
in behind their last tokens is not part of the ranges. -/
theorem collectOperations_exact (h : (ofText text).isSound = true) {nodeEnd : Executable → Nat}
    (hnodes : ∀ executable ∈ (ofText text).executables,
      Text.isBlankBetween text executable.stop (nodeEnd executable) = true)
    (uri : String) (persisted : Bool) :
    (ofText text).collectOperations text nodeEnd uri persisted =
        (ofText text).operationEntries uri persisted ∧
      (∃ parts, Token.ofText text = parts.flatten ∧
        Salvage.ReadsParts parts (ofText text).definitions ∧
        List.Forall₂ (fun part entry => entry.Describes part ∧ entry.CutsOut text part)
          (parts.filter fun part => (Grammar.executableKind? part).isSome)
          ((ofText text).collectOperations text nodeEnd uri persisted)) ∧
      ((ofText text).collectOperations text nodeEnd uri persisted).Pairwise
        (fun a b => a.range.stop ≤ b.range.start) ∧
      ∀ entry ∈ (ofText text).collectOperations text nodeEnd uri persisted,
        entry.uri = uri ∧ entry.persisted = persisted := by
  obtain ⟨parts, htokens, hreads, hparts, hpairwise⟩ := exists_cuttings h uri persisted
  rw [collectOperations_eq h hnodes]
  refine ⟨rfl, ⟨parts, htokens, hreads, List.forall₂_map_right_iff.2 hparts⟩,
    List.pairwise_map.2 hpairwise, ?_⟩
  intro entry hentry
  obtain ⟨executable, -, rfl⟩ := List.mem_map.1 hentry
  exact ⟨rfl, rfl⟩

/-- A document with a byte order mark, a comment, a comma, characters of several bytes, a definition
that is skipped, and a fragment behind a literal. -/
def mixed : String :=
  "\ufeff# é😀\n\x7b a \x7d \n,query Q \x7b b(s: \"é\") \x7d type T " ++
    "fragment F on T \x7b c \x7d \"d\" fragment on T \x7b e \x7d\n"

/-- Every node of the document takes in the white space character behind its brace. -/
theorem collectOperations_exact_mixed :
    (ofText mixed).isSound = true ∧
      (∀ executable ∈ (ofText mixed).executables,
        Text.isBlankBetween mixed executable.stop (executable.stop + 1) = true) ∧
      (ofText mixed).collectOperations mixed (·.stop + 1) "file:///m.graphql" true =
        [⟨anonymousOperation, .query, "file:///m.graphql", ⟨12, 17⟩, true⟩,
          ⟨"Q", .query, "file:///m.graphql", ⟨20, 42⟩, true⟩,
          ⟨"F", .fragment, "file:///m.graphql", ⟨50, 71⟩, true⟩,
          ⟨"fragment", .fragment, "file:///m.graphql", ⟨72, 95⟩, true⟩] ∧
      ∃ parts : List (List Token), Token.ofText mixed = parts.flatten ∧ parts.length = 5 ∧
        List.Forall₂ (fun part entry => entry.Describes part ∧ entry.CutsOut mixed part)
          (parts.filter fun part => (Grammar.executableKind? part).isSome)
          ((ofText mixed).collectOperations mixed (·.stop + 1) "file:///m.graphql" true) := by
  have hsound : (ofText mixed).isSound = true := by decide +kernel
  have hnodes : ∀ executable ∈ (ofText mixed).executables,
      Text.isBlankBetween mixed executable.stop (executable.stop + 1) = true := by decide +kernel
  obtain ⟨hentries, ⟨parts, htokens, hreads, hparts⟩, -, -⟩ :=
    collectOperations_exact hsound hnodes "file:///m.graphql" true
  have hlength : parts.length = 5 := by
    rw [hreads.length_eq]
    decide +kernel
  exact ⟨hsound, hnodes, hentries.trans (by decide +kernel), parts, htokens, hlength, hparts⟩

/-- The text of a fragment behind a literal begins with the literal, and not with a keyword. -/
theorem entry_behind_literal :
    (ofText "\"d\" fragment on T \x7b a \x7d").isSound = true ∧
      ∃ entry slice,
        (ofText "\"d\" fragment on T \x7b a \x7d").operationEntries "file:///d.graphql" false =
          [entry] ∧
        entry.kind = .fragment ∧ entry.range = ⟨0, 23⟩ ∧
        Text.slice? "\"d\" fragment on T \x7b a \x7d".toList 0 23 = some slice ∧
        ¬entry.kind.keyword.toList <+: slice := by
  refine ⟨by decide +kernel, ⟨"fragment", .fragment, "file:///d.graphql", ⟨0, 23⟩, false⟩,
    "\"d\" fragment on T \x7b a \x7d".toList, ?_, rfl, rfl, ?_, ?_⟩ <;>
  decide +kernel

end Document

end SchemaAtlas
