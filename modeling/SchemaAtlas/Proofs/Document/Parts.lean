import SchemaAtlas.Proofs.Document.Ranges

/-!
# The parts of a document

The tokens of a document are read part by part, one part for each definition. The first tokens of a
part say whether it is an operation or a fragment and of which kind, and the token behind the
keyword is its name.

* `Grammar.executableKind?`, `Grammar.executableName?`   what the first tokens of a part say
* `Grammar.isIntroduced_of_definition`   an operation or a fragment is what its tokens say
* `Document.exists_parts`                the parts of a document without syntax errors
-/

namespace SchemaAtlas

open Salvage

namespace Grammar

open Reader

/-- The kind of the operation or fragment that the first tokens of a definition introduce. -/
def executableKind? (ts : List Token) : Option OperationKind :=
  match ts with
  | [] => none
  | t :: _ =>
    if t.isMark '\x7b' then some .query
    else if t.isWord "fragment" || t.isString && wordBehind ts = some "fragment" then some .fragment
    else operationKind? t

/-- The name that the first tokens of an operation or a fragment give it: the one behind the
keyword. A query without a keyword has none. -/
def executableName? (ts : List Token) : Option Name :=
  match ts with
  | t :: t' :: _ => if t.isMark '\x7b' then none else t'.name?
  | _ => none

/-- What follows two tokens is not looked at. -/
theorem executableKind?_append {part : List Token} (h : 2 ≤ part.length) (rest : List Token) :
    executableKind? (part ++ rest) = executableKind? part := by
  match part, h with
  | t :: t' :: part, _ => rfl

/-- What follows two tokens gives no other name. -/
theorem executableName?_append {part : List Token} (h : 2 ≤ part.length) (rest : List Token) :
    executableName? (part ++ rest) = executableName? part := by
  match part, h with
  | t :: t' :: part, _ => rfl

/-- The name is one of the tokens. -/
theorem exists_token_of_executableName? {ts : List Token} {name : Name}
    (h : executableName? ts = some name) : ∃ t ∈ ts, t.name? = some name := by
  match ts with
  | [] => cases h
  | [t] => cases h
  | t :: t' :: ts =>
    rw [executableName?] at h
    split at h
    · cases h
    · exact ⟨t', by simp, h⟩

/-- Tokens that introduce nothing still do so when what follows them is not there. -/
theorem executableKind?_of_append {part rest : List Token}
    (h : executableKind? (part ++ rest) = none) : executableKind? part = none := by
  match part with
  | [] => rfl
  | t :: t' :: part => exact h
  | [t] =>
    -- nothing stands behind the only token
    have hbehind : wordBehind [t] = none := rfl
    simp only [executableKind?, List.cons_append] at h
    split at h
    · cases h
    · next hbrace =>
      split at h
      · cases h
      · next hfragment =>
        simp_all [executableKind?]

/-- What introduces an operation or a fragment: a brace, its keyword, or a literal directly before
the word `fragment`. -/
theorem executableKind?_cases {t : Token} {ts : List Token} {kind : OperationKind}
    (h : executableKind? (t :: ts) = some kind) :
    (t.kind = .mark '\x7b' ∧ kind = .query) ∨ t.kind = .name kind.keyword ∨
      (t.isString = true ∧ wordBehind (t :: ts) = some "fragment" ∧ kind = .fragment) := by
  rw [executableKind?] at h
  split at h
  · next hbrace =>
    exact .inl ⟨by simpa [Token.isMark] using hbrace, (Option.some.inj h).symm⟩
  · split at h
    · next hfragment =>
      obtain rfl := Option.some.inj h
      rcases Bool.or_eq_true_iff.1 hfragment with hword | hliteral
      · have hkind : t.kind = .name "fragment" := by simpa [Token.isWord] using hword
        exact .inr (.inl hkind)
      · obtain ⟨hstring, hword⟩ := Bool.and_eq_true_iff.1 hliteral
        exact .inr (.inr ⟨hstring, of_decide_eq_true hword, rfl⟩)
    · have hword := List.find?_some (show List.find? _ _ = some kind from h)
      exact .inr (.inl (by simpa [Token.isWord] using hword))

/-! ## What a definition begins with -/

/-- The tokens that an operation or a fragment is read from say its kind and its name. -/
structure IsIntroduced (executable : Executable) (ts : List Token) : Prop where
  kind : executableKind? ts = some executable.kind
  name : executable.name = executableName? ts

/-- The name behind a keyword is the next token, if this is a name. -/
theorem maybe_name_eq_ok {ts rest : List Token} {found : Option Name}
    (h : maybe isName name ts = .ok (found, rest)) : found = ts.head?.bind Token.name? := by
  cases ts with
  | nil =>
    obtain ⟨rfl, -⟩ := Prod.mk.inj (Except.ok.inj h)
    rfl
  | cons t ts =>
    obtain ⟨rfl, rfl⟩ | ⟨n, rfl, hname⟩ := maybe_eq_ok h
    · rw [Follows.maybe_cons] at h
      split at h
      · rw [map_eq_pure_bind] at h
        obtain ⟨_, _, -, hpure⟩ := bind_eq_ok.1 h
        cases (pure_eq_ok.1 hpure).1
      · next hnot => exact (by simpa [isName] using hnot : t.name? = none).symm
    · obtain ⟨_, hts, ht⟩ := take_eq_ok hname
      obtain ⟨rfl, -⟩ := List.cons.inj hts
      exact ht.symm

/-- A query without a keyword is introduced by its brace. -/
theorem isIntroduced_of_shorthandQuery {t : Token} {ts rest : List Token} {executable : Executable}
    (ht : t.kind = .mark '\x7b') (h : shorthandQuery (t :: ts) = .ok (executable, rest)) :
    IsIntroduced executable (t :: ts) := by
  obtain ⟨_, _, -, h⟩ := bind_eq_ok.1 h
  obtain ⟨_, _, -, h⟩ := bind_eq_ok.1 h
  obtain ⟨rfl, -⟩ := pure_eq_ok.1 h
  have hbrace : t.isMark '\x7b' = true := by simp [Token.isMark, ht]
  refine ⟨by rw [executableKind?, if_pos hbrace], ?_⟩
  cases ts with
  | nil => rfl
  | cons t' ts => rw [executableName?, if_pos hbrace]

/-- An operation is introduced by its keyword and the name behind it, if there is one. -/
theorem isIntroduced_of_operation {t : Token} {ts rest : List Token} {executable : Executable}
    (ht : (operationKind? t).isSome = true) (h : operation (t :: ts) = .ok (executable, rest)) :
    IsIntroduced executable (t :: ts) := by
  obtain ⟨first, _, hpeek, h⟩ := bind_eq_ok.1 h
  obtain ⟨-, rfl⟩ := Prod.mk.inj (Except.ok.inj hpeek)
  obtain ⟨kind, _, htake, h⟩ := bind_eq_ok.1 h
  obtain ⟨name, _, hname, h⟩ := bind_eq_ok.1 h
  obtain ⟨_, _, -, h⟩ := bind_eq_ok.1 h
  obtain ⟨_, _, -, h⟩ := bind_eq_ok.1 h
  obtain ⟨_, _, -, h⟩ := bind_eq_ok.1 h
  obtain ⟨rfl, -⟩ := pure_eq_ok.1 h
  obtain ⟨_, hts, hkind⟩ := take_eq_ok htake
  obtain ⟨rfl, rfl⟩ := List.cons.inj hts
  -- the keyword is neither a brace nor a literal nor another keyword
  obtain ⟨word, hword, hne⟩ := exists_word ht
  have hbrace : ¬t.isMark '\x7b' = true := by simp [Token.isMark, hword]
  have hfragment : word ≠ "fragment" := hne _ (by decide)
  refine ⟨?_, ?_⟩
  · rw [← hkind]
    simp [executableKind?, Token.isMark, Token.isWord, Token.isString, hword, hfragment]
  · rw [maybe_name_eq_ok hname]
    cases ts with
    | nil => rfl
    | cons t' ts => rw [executableName?, if_neg hbrace]; rfl

/-- A fragment is introduced by its keyword, or by a literal in front of it, and its name. -/
theorem isIntroduced_of_fragment {t : Token} {ts rest : List Token} {executable : Executable}
    (ht : t.kind = .name "fragment" ∨
      t.isString = true ∧ wordBehind (t :: ts) = some "fragment")
    (h : fragment (t :: ts) = .ok (executable, rest)) : IsIntroduced executable (t :: ts) := by
  obtain ⟨first, _, hfirst, h⟩ := bind_eq_ok.1 h
  obtain ⟨_, hts, -⟩ := take_eq_ok hfirst
  obtain ⟨rfl, rfl⟩ := List.cons.inj hts
  obtain ⟨name, behind, htake, h⟩ := bind_eq_ok.1 h
  obtain ⟨_, _, -, h⟩ := bind_eq_ok.1 h
  obtain ⟨_, _, -, h⟩ := bind_eq_ok.1 h
  obtain ⟨_, _, -, h⟩ := bind_eq_ok.1 h
  obtain ⟨rfl, -⟩ := pure_eq_ok.1 h
  obtain ⟨t', rfl, haccept⟩ := take_eq_ok htake
  have hname : t'.name? = some name := (Option.filter_eq_some_iff.1 haccept).1
  -- neither the keyword nor a literal is a brace
  have hbrace : ¬t.isMark '\x7b' = true := by
    obtain ht | ⟨ht, -⟩ := ht
    · simp [Token.isMark, ht]
    · obtain ⟨text, ht⟩ := exists_string ht
      simp [Token.isMark, ht]
  have hfragment : (t.isWord "fragment" ||
      t.isString && decide (wordBehind (t :: t' :: behind) = some "fragment")) = true := by
    obtain ht | ⟨ht, hword⟩ := ht
    · simp [Token.isWord, ht]
    · simp [ht, hword]
  refine ⟨by rw [executableKind?, if_neg hbrace, if_pos hfragment], ?_⟩
  rw [executableName?, if_neg hbrace, hname]

/-- An operation or a fragment that is read is what its first tokens say. -/
theorem isIntroduced_of_definition {ts rest : List Token} {executable : Executable}
    (h : definition ts = .ok (.executable executable, rest)) : IsIntroduced executable ts := by
  cases isRead_of_definition h with
  | query ht hok => exact isIntroduced_of_shorthandQuery ht hok
  | fragment ht hok => exact isIntroduced_of_fragment ht hok
  | operation ht hok => exact isIntroduced_of_operation ht hok

/-- The first tokens of any other definition introduce no operation and no fragment. -/
theorem executableKind?_of_isOther {ts rest : List Token} {d : Definition}
    (h : definition ts = .ok (d, rest)) (hd : IsOther d) : executableKind? ts = none := by
  have hne {p : Reader Executable} : (Definition.executable <$> p) ts ≠ .ok (d, rest) := by
    intro hok
    have hanswers : (Definition.executable <$> p).Answers fun d => ¬IsOther d :=
      answers_executable (fun executable hother => hother executable rfl) p
    exact hanswers hok hd
  obtain ⟨p, q, hchosen⟩ := exists_chosen_of_ok h
  rw [hchosen.reader_eq] at h
  -- the readers of operations and fragments give no other definition
  cases hchosen with
  | query => exact absurd h hne
  | fragment => exact absurd h hne
  | operation => exact absurd h hne
  | keyword ht hbehind =>
    obtain ⟨⟨-, hfragment, hkind⟩, -⟩ := hbehind.ne_of
    have hnone := operationKind?_eq_none ht hkind
    simp [executableKind?, Token.isMark, Token.isWord, Token.isString, ht, hfragment, hnone]
  | described ht hword hbehind =>
    have hfragment := hbehind.ne_of.1.2.1
    obtain ⟨text, ht⟩ := exists_string ht
    simp [executableKind?, operationKind?, Token.isMark, Token.isWord, ht, hword, hfragment]
  | extension ht _ _ =>
    have hnone := operationKind?_eq_none ht fun kind => by cases kind <;> decide
    simp [executableKind?, Token.isMark, Token.isWord, Token.isString, ht, hnone]

end Grammar

/-! ## Parts -/

/-- Tokens in parts, one for each definition that is read from them. -/
inductive Salvage.ReadsParts : List (List Token) → List Definition → Prop
  | done : ReadsParts [] []
  | next {part : List Token} {parts : List (List Token)} {d : Definition} {ds : List Definition}
      (h : Grammar.definition (part ++ parts.flatten) = .ok (d, parts.flatten))
      (hrest : ReadsParts parts ds) : ReadsParts (part :: parts) (d :: ds)

/-- There is one part for each definition. -/
theorem Salvage.ReadsParts.length_eq {parts : List (List Token)} {ds : List Definition}
    (h : ReadsParts parts ds) : parts.length = ds.length := by
  induction h with
  | done => rfl
  | next _ _ ih => rw [List.length_cons, List.length_cons, ih]

/-- What is read to its end is read in parts. -/
theorem Salvage.Reads.exists_parts {ts : List Token} {ds : List Definition} (h : Reads ts ds) :
    ∃ parts, ts = parts.flatten ∧ ReadsParts parts ds := by
  -- the part of a definition is what is taken for it
  induction h with
  | done => exact ⟨[], rfl, .done⟩
  | @next ts rest d ds hdefinition hrest ih =>
    obtain ⟨parts, rfl, hparts⟩ := ih
    obtain ⟨part, rfl⟩ := Grammar.advances_definition hdefinition
    exact ⟨part :: parts, rfl, .next hdefinition hparts⟩

/-- An operation or a fragment is what the tokens of its part say, and it ranges from the first of
them to the last one, a closing brace. -/
structure Executable.IsPart (executable : Executable) (part : List Token) : Prop where
  kind : Grammar.executableKind? part = some executable.kind
  name : executable.name = Grammar.executableName? part
  ends : ∃ first between closing, part = first :: (between ++ [closing]) ∧
    closing.kind = .mark '\x7d' ∧ executable.start = first.start ∧ executable.stop = closing.stop

/-- The tokens of an operation or a fragment are a part of those that it is read from. -/
theorem Executable.isPart_of_definition {executable : Executable} {part rest : List Token}
    (h : Grammar.definition (part ++ rest) = .ok (.executable executable, rest)) :
    executable.IsPart part := by
  obtain ⟨first, between, closing, htokens, hclosing, hstart, hstop⟩ :=
    Grammar.spansIn_of_definition h
  obtain rfl : part = first :: (between ++ [closing]) := by
    -- what is left behind the definition is the same on both sides
    have happend : part ++ rest = (first :: (between ++ [closing])) ++ rest := by
      simpa using htokens
    exact List.append_cancel_right happend
  have hlength : 2 ≤ (first :: (between ++ [closing])).length := by simp
  obtain ⟨hkind, hname⟩ := Grammar.isIntroduced_of_definition h
  rw [Grammar.executableKind?_append hlength] at hkind
  rw [Grammar.executableName?_append hlength] at hname
  exact ⟨hkind, hname, first, between, closing, rfl, hclosing, hstart, hstop⟩

/-- The operation or fragment that a definition is. -/
def Definition.executable? : Definition → Option Executable
  | .executable found => some found
  | _ => none

/-- The operations and fragments among the definitions are the parts that introduce one, in the
same order. -/
theorem Salvage.ReadsParts.executables {parts : List (List Token)} {ds : List Definition}
    (h : ReadsParts parts ds) :
    List.Forall₂ (fun part executable => executable.IsPart part)
      (parts.filter fun part => (Grammar.executableKind? part).isSome)
      (ds.filterMap Definition.executable?) := by
  induction h with
  | done => exact .nil
  | @next part parts d ds hdefinition hrest ih =>
    -- a part introduces an operation or a fragment if and only if its definition is one
    by_cases hother : Grammar.IsOther d
    · have hnone := Grammar.executableKind?_of_append
        (Grammar.executableKind?_of_isOther hdefinition hother)
      have hd : d.executable? = none := by
        cases d with
        | executable executable => exact absurd rfl (hother executable)
        | _ => rfl
      rw [List.filterMap_cons_none hd, List.filter_cons_of_neg (by simp [hnone])]
      exact ih
    · obtain ⟨executable, rfl⟩ : ∃ executable, d = .executable executable := by
        simpa [Grammar.IsOther] using hother
      have hpart := Executable.isPart_of_definition hdefinition
      have hd : (Definition.executable executable).executable? = some executable := rfl
      rw [List.filterMap_cons_some hd, List.filter_cons_of_pos (by simp [hpart.kind])]
      exact .cons hpart ih

/-- The operations and fragments of a document are those of its definitions, in the same order. -/
theorem Document.executables_eq (document : Document) :
    document.executables = document.definitions.filterMap Definition.executable? := by
  rw [executables]
  congr

/-- The tokens of a text without syntax errors in parts, one for each definition. Its operations and
fragments are the parts that introduce one. -/
theorem Document.exists_parts {text : String} (h : (ofText text).isSound = true) :
    ∃ parts, Token.ofText text = parts.flatten ∧ ReadsParts parts (ofText text).definitions ∧
      List.Forall₂ (fun part executable => executable.IsPart part)
        (parts.filter fun part => (Grammar.executableKind? part).isSome)
        (ofText text).executables := by
  obtain ⟨parts, htokens, hparts⟩ := (reads_ofText h).exists_parts
  rw [executables_eq]
  exact ⟨parts, htokens, hparts, hparts.executables⟩

end SchemaAtlas
