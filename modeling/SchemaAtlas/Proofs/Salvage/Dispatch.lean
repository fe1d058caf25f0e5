import SchemaAtlas.Proofs.Salvage.Definitions

/-!
# Any definition in step

The first tokens of a definition choose the reader and the sweep for it. Both choose alike, so what
holds of each kind of definition holds of whatever is chosen.

* `Salvage.Chosen`                 what the first tokens choose
* `Salvage.exists_chosen`          where nothing is chosen, the sweep passes over a token
* `Salvage.introduces_definition`  every definition is in step
-/

namespace SchemaAtlas

open Token (Alike KindTest)

namespace Salvage

open Reader Follows

/-- What a word introduces that a description may precede, with the sweep behind the word. -/
inductive Behind : String → Reader Definition → Sweep (List Directive) → Prop
  | schema : Behind "schema" Grammar.schemaDefinition schemaDirectives
  | directive : Behind "directive" Grammar.directiveDefinition (do
      passDirectiveDefinition
      return [])
  | type {word : String} {kind : TypeKind} (h : Grammar.typeKind? word = some kind) :
      Behind word (Grammar.typeDefinition kind) (typeDirectives kind)

/-- What a word behind `extend` introduces. -/
inductive Extends : String → Reader Definition → Sweep (List Directive) → Prop
  | schema : Extends "schema" Grammar.schemaExtension schemaDirectives
  | type {word : String} {kind : TypeKind} (h : Grammar.typeKind? word = some kind) :
      Extends word (Grammar.typeExtension kind) (typeDirectives kind)

/-- What the first tokens choose, for the reader and for the sweep. -/
inductive Chosen : List Token → Reader Definition → Sweep (List Directive) → Prop
  | query {t : Token} {ts : List Token} (ht : t.kind = .mark '\x7b') :
      Chosen (t :: ts) (.executable <$> Grammar.shorthandQuery) (do
        passSelectionSet Grammar.depthLimit
        return [])
  | fragment {t : Token} {ts : List Token}
      (ht : t.kind = .name "fragment" ∨
        t.isString = true ∧ Grammar.wordBehind (t :: ts) = some "fragment") :
      Chosen (t :: ts) (.executable <$> Grammar.fragment) (do
        passFragment
        return [])
  | operation {t : Token} {ts : List Token} (ht : (Grammar.operationKind? t).isSome = true) :
      Chosen (t :: ts) (.executable <$> Grammar.operation) (do
        passOperation
        return [])
  | keyword {t : Token} {ts : List Token} {word : String} {p : Reader Definition}
      {q : Sweep (List Directive)} (ht : t.kind = .name word) (h : Behind word p q) :
      Chosen (t :: ts) p (do
        pass
        q)
  | described {t : Token} {ts : List Token} {word : String} {p : Reader Definition}
      {q : Sweep (List Directive)} (ht : t.isString = true)
      (hword : Grammar.wordBehind (t :: ts) = some word) (h : Behind word p q) :
      Chosen (t :: ts) (Grammar.description *> p) (do
        passDescription
        pass
        q)
  | extension {t : Token} {ts : List Token} {word : String} {p : Reader Definition}
      {q : Sweep (List Directive)} (ht : t.kind = .name "extend")
      (hword : Grammar.wordBehind (t :: ts) = some word) (h : Extends word p q) :
      Chosen (t :: ts) p (do
        pass
        pass
        q)

/-- A word introduces a definition for the reader and for the sweep, or for neither. -/
theorem typeSystemDefinition?_cases (word : String) :
    (∃ p q, Behind word p q) ∨
      Grammar.typeSystemDefinition? word = none ∧ typeSystemDefinition? word = none := by
  by_cases hschema : word = "schema"
  · obtain rfl := hschema
    exact .inl ⟨_, _, .schema⟩
  · by_cases hdirective : word = "directive"
    · obtain rfl := hdirective
      exact .inl ⟨_, _, .directive⟩
    · cases hkind : Grammar.typeKind? word with
      | none =>
        refine .inr ⟨?_, ?_⟩
        · simp [Grammar.typeSystemDefinition?, hkind]
        · rw [typeSystemDefinition?, if_neg hdirective, directivesBehind?, if_neg hschema, hkind]
          rfl
      | some kind => exact .inl ⟨_, _, .type hkind⟩

/-- The keyword of a type is another word than those of schemas and directives. -/
theorem ne_of_typeKind? {word : String} {kind : TypeKind} (h : Grammar.typeKind? word = some kind) :
    word ≠ "schema" ∧ word ≠ "directive" := by
  constructor <;>
    · rintro rfl
      simp [Grammar.typeKind?] at h

namespace Behind

variable {word : String} {p : Reader Definition} {q : Sweep (List Directive)}

/-- The reader chooses by the word. -/
theorem reader_eq (h : Behind word p q) : Grammar.typeSystemDefinition? word = some p := by
  -- one case for each way to choose
  cases h with
  | schema => rfl
  | directive => rfl
  | @type word kind hkind =>
    obtain ⟨hschema, hdirective⟩ := ne_of_typeKind? hkind
    unfold Grammar.typeSystemDefinition?
    split
    · exact absurd rfl hschema
    · exact absurd rfl hdirective
    · rw [hkind]
      rfl

/-- The sweep chooses by the word, and passes over a description before it. -/
theorem sweep_eq (h : Behind word p q) :
    typeSystemDefinition? word = some (do
      passDescription
      passIf (·.isWord word)
      q) := by
  cases h with
  | schema => rfl
  | directive => rfl
  | @type word kind hkind =>
    obtain ⟨hschema, hdirective⟩ := ne_of_typeKind? hkind
    rw [typeSystemDefinition?, if_neg hdirective, directivesBehind?, if_neg hschema, hkind]
    rfl

/-- Every definition needs a token behind its keyword. -/
theorem needs (h : Behind word p q) : p.Needs := by
  cases h with
  | schema => exact (needs_take _).bind _
  | directive => exact (needs_take _).bind _
  | type hkind => exact ((needs_take _).bind _).bind _

/-- Behind its keyword every definition is in step, up to a brace. -/
theorem introduces (h : Behind word p q) : Introduces 1 SameDirectives p (do
    pass
    q) := by
  cases h with
  | schema => exact introduces_schemaDefinition
  | directive => exact introduces_directiveDefinition
  | @type word kind hkind => exact (introduces_typeDefinition kind).mono (Nat.le_succ 1)

end Behind

/-- Behind `extend` and its keyword every extension is in step, up to a brace. -/
theorem Extends.introduces {word : String} {p : Reader Definition} {q : Sweep (List Directive)}
    (h : Extends word p q) : Introduces 1 SameDirectives p (do
      pass
      pass
      q) := by
  cases h with
  | schema => exact introduces_schemaExtension.mono (Nat.le_succ 1)
  | @type word kind hkind => exact (introduces_typeExtension kind).mono (by omega)

/-- Whatever is chosen is in step. -/
theorem Chosen.introduces {ts : List Token} {p : Reader Definition} {q : Sweep (List Directive)}
    (h : Chosen ts p q) : Introduces 1 SameDirectives p q := by
  have hexecutable {n : Nat} {reader : Reader Executable} {sweep : Sweep Unit}
      (hpasses : Passes (n + 1) Closed reader sweep) :
      Introduces 1 SameDirectives (.executable <$> reader) (do
        sweep
        return []) := by
    rw [map_eq_pure_bind]
    refine .of_follows (Follows.map_right (R := fun d _ => SameDirectives d [])
      ((hpasses.mono (by omega) fun _ h => h).map_left fun _ _ _ => .nil) fun _ _ hds => hds)
  -- executable definitions keep no directives, and the others are in step by their word
  cases h with
  | query ht => exact hexecutable (n := 2) passes_shorthandQuery
  | fragment ht => exact hexecutable (n := 6) passes_fragment
  | operation ht => exact hexecutable (n := 3) passes_operation
  | keyword ht h => exact h.introduces
  | @described _ _ _ p q ht hword h =>
    have hassoc : Grammar.description *> p = Grammar.description >>= fun _ => p :=
      seqRight_eq_bind _ _
    rw [hassoc]
    -- a description only stands before a word
    exact Introduces.bind_of (n := 0) (m := 1) passes_description (fun _ _ _ => h.introduces)
      fun _ _ _ _ hnil _ => absurd hnil (h.needs _)
  | extension ht hword h => exact h.introduces

/-- A word behind `extend` introduces an extension for the reader and for the sweep, or for neither.
-/
theorem extension?_cases (word : String) :
    (∃ p q, Extends word p q) ∨
      Grammar.extension? word = none ∧ directivesBehind? word = none := by
  by_cases hschema : word = "schema"
  · obtain rfl := hschema
    exact .inl ⟨_, _, .schema⟩
  · rw [Grammar.extension?, if_neg hschema, directivesBehind?, if_neg hschema]
    cases hkind : Grammar.typeKind? word with
    | none => exact .inr ⟨rfl, rfl⟩
    | some kind => exact .inl ⟨_, _, .type hkind⟩

/-- The words that introduce what a description may precede mean nothing else. -/
theorem Behind.ne_of {word : String} {p : Reader Definition} {q : Sweep (List Directive)}
    (h : Behind word p q) :
    (word ≠ "extend" ∧ word ≠ "fragment" ∧ ∀ kind : OperationKind, word ≠ kind.keyword) ∧
      ∀ w ∈ ["implements", "repeatable", "on"], word ≠ w := by
  cases h with
  | schema => exact ⟨⟨by decide, by decide, fun kind => by cases kind <;> decide⟩, by decide⟩
  | directive => exact ⟨⟨by decide, by decide, fun kind => by cases kind <;> decide⟩, by decide⟩
  -- the keyword of a type is none of these words, each of which is tried
  | @type word kind hkind =>
    refine ⟨⟨?_, ?_, fun kind => ?_⟩, fun w hw => ?_⟩
    · rintro rfl
      simp [Grammar.typeKind?] at hkind
    · rintro rfl
      simp [Grammar.typeKind?] at hkind
    · rintro rfl
      cases kind <;> simp [Grammar.typeKind?, OperationKind.keyword] at hkind
    · rintro rfl
      simp only [List.mem_cons, List.not_mem_nil, or_false] at hw
      rcases hw with rfl | rfl | rfl <;> simp [Grammar.typeKind?] at hkind

/-- The reader chooses an extension by its word. -/
theorem Extends.reader_eq {word : String} {p : Reader Definition} {q : Sweep (List Directive)}
    (h : Extends word p q) : Grammar.extension? word = some p := by
  cases h with
  | schema => rfl
  | type hkind => rw [Grammar.extension?, if_neg (ne_of_typeKind? hkind).1, hkind]; rfl

/-- The sweep chooses an extension by its word. -/
theorem Extends.sweep_eq {word : String} {p : Reader Definition} {q : Sweep (List Directive)}
    (h : Extends word p q) : directivesBehind? word = some q := by
  cases h with
  | schema => rfl
  | type hkind => rw [directivesBehind?, if_neg (ne_of_typeKind? hkind).1, hkind]; rfl

/-- A word that is no keyword of an operation starts none. -/
theorem operationKind?_eq_none {t : Token} {word : String} (ht : t.kind = .name word)
    (h : ∀ kind : OperationKind, word ≠ kind.keyword) : Grammar.operationKind? t = none := by
  refine List.find?_eq_none.2 fun kind _ => ?_
  simpa [Token.isWord, ht] using h kind

/-- An operation starts with its keyword, which means nothing else. -/
theorem exists_word {t : Token} (h : (Grammar.operationKind? t).isSome = true) :
    ∃ word, t.kind = .name word ∧
      ∀ w ∈ ["extend", "fragment", "implements", "repeatable", "on"], word ≠ w := by
  obtain ⟨kind, hkind⟩ := Option.isSome_iff_exists.1 h
  have hmem := List.mem_of_find?_eq_some hkind
  refine ⟨kind.keyword, by simpa [Token.isWord] using List.find?_some hkind, ?_⟩
  -- fragments have a keyword of their own
  cases kind with
  | fragment => simp at hmem
  | _ => decide

/-- A string literal has a text. -/
theorem exists_string {t : Token} (h : t.isString = true) : ∃ text, t.kind = .string text := by
  obtain ⟨kind, start, stop, comma⟩ := t
  cases kind with
  | string text => exact ⟨text, rfl⟩
  | _ => cases h

/-- A name that starts neither an extension nor a fragment starts an operation or a definition. -/
theorem definition_of_name {t : Token} {word : String} (ts : List Token)
    (ht : t.kind = .name word) (hextend : word ≠ "extend") (hfragment : word ≠ "fragment") :
    Grammar.definition (t :: ts) =
        ((if (Grammar.operationKind? t).isSome then some (.executable <$> Grammar.operation)
          else Grammar.typeSystemDefinition? word).getD blame) (t :: ts) ∧
      definition t (t :: ts) =
        ((if (Grammar.operationKind? t).isSome then some (do
            passOperation
            return [])
          else typeSystemDefinition? word).getD (do
            pass
            return [])) (t :: ts) := by
  constructor
  · unfold Grammar.definition
    simp only [ht]
  · unfold definition
    simp only [ht]

/-- Where a token is left, the sweep tries a definition. -/
theorem definition?_cons (t : Token) (ts : List Token) :
    definition? (t :: ts) = (some (definition t (t :: ts)).1, (definition t (t :: ts)).2) :=
  rfl

namespace Chosen

variable {ts : List Token} {p : Reader Definition} {q : Sweep (List Directive)}

/-- The reader reads what the first tokens choose. -/
theorem reader_eq (h : Chosen ts p q) : Grammar.definition ts = p ts := by
  -- one case for each way to choose, by the tokens that it is chosen by
  cases h with
  | @query t ts ht =>
    unfold Grammar.definition
    simp only [ht]
    rfl
  | @fragment t ts ht =>
    unfold Grammar.definition
    obtain ht | ⟨ht, hword⟩ := ht
    · simp only [ht]
      rfl
    · obtain ⟨text, hkind⟩ := exists_string ht
      simp only [hkind, hword]
      rfl
  | @operation t ts ht =>
    obtain ⟨word, hname, hne⟩ := exists_word ht
    rw [(definition_of_name ts hname (hne _ (by decide)) (hne _ (by decide))).1, if_pos ht]
    rfl
  | @keyword t ts word p q ht h =>
    obtain ⟨⟨hextend, hfragment, hkind⟩, -⟩ := h.ne_of
    rw [(definition_of_name ts ht hextend hfragment).1, operationKind?_eq_none ht hkind,
      h.reader_eq]
    rfl
  | @described t ts word p q ht hword h =>
    obtain ⟨text, hkind⟩ := exists_string ht
    unfold Grammar.definition
    simp only [hkind, hword, Option.bind_eq_bind, Option.bind_some, if_neg h.ne_of.1.2.1,
      h.reader_eq]
    rfl
  | @extension t ts word p q ht hword h =>
    unfold Grammar.definition
    simp only [ht, hword, Option.bind_some, h.reader_eq]
    rfl

/-- A token that passes the test is passed over. -/
theorem passIf_cons {test : Token → Bool} {u : Token} {us : List Token} (hu : test u = true) :
    passIf test (u :: us) = ((), us) := by
  rw [passIf, whenever_apply, if_pos (by simpa using hu)]
  rfl

/-- A token that fails the test stays in hand. -/
theorem passIf_cons_of_not {test : Token → Bool} {u : Token} {us : List Token}
    (hu : test u = false) : passIf test (u :: us) = ((), u :: us) := by
  rw [passIf, whenever_apply, if_neg (by simp [hu])]

/-- The word behind a token is the next token. -/
theorem wordBehind_eq_some {t : Token} {ts : List Token} {word : String}
    (h : Grammar.wordBehind (t :: ts) = some word) :
    ∃ t' ts', ts = t' :: ts' ∧ t'.afterComma = false ∧ t'.kind = .name word := by
  cases ts with
  | nil => cases h
  | cons t' ts =>
    obtain ⟨kind, start, stop, comma⟩ := t'
    cases comma with
    | true => cases h
    | false =>
      cases kind with
      | name text =>
        obtain rfl : text = word := Option.some.inj h
        exact ⟨_, ts, rfl, rfl, rfl⟩
      | _ => cases h

/-- The name of a word is that word. -/
theorem isWord_of_kind {t : Token} {word : String} (h : t.kind = .name word) :
    t.isWord word = true := by
  simp [Token.isWord, h]

/-- The sweep goes through what the first tokens choose. -/
theorem sweep_eq (h : Chosen ts p q) : definition? ts = (some (q ts).1, (q ts).2) := by
  have hdefinition {t : Token} {ts : List Token} {q : Sweep (List Directive)}
      (hq : definition t (t :: ts) = q (t :: ts)) :
      definition? (t :: ts) = (some (q (t :: ts)).1, (q (t :: ts)).2) := by
    rw [definition?_cons, hq]
  -- again one case for each way to choose
  cases h with
  | @query t ts ht =>
    refine hdefinition ?_
    unfold definition
    simp only [ht]
    rfl
  | @fragment t ts ht =>
    refine hdefinition ?_
    unfold definition
    obtain ht | ⟨ht, hword⟩ := ht
    · simp only [ht]
      rfl
    · obtain ⟨text, hkind⟩ := exists_string ht
      simp only [hkind, hword]
      rfl
  | @operation t ts ht =>
    refine hdefinition ?_
    obtain ⟨word, hname, hne⟩ := exists_word ht
    rw [(definition_of_name ts hname (hne _ (by decide)) (hne _ (by decide))).2, if_pos ht]
    rfl
  | @keyword t ts word p q ht h =>
    refine hdefinition ?_
    obtain ⟨⟨hextend, hfragment, hkind⟩, -⟩ := h.ne_of
    rw [(definition_of_name ts ht hextend hfragment).2, operationKind?_eq_none ht hkind, h.sweep_eq]
    -- no description is in hand, so none is passed over
    have hstring : t.isString = false := by simp [Token.isString, ht]
    show ((passDescription >>= fun _ => _ : Sweep (List Directive))) (t :: ts) = _
    rw [bind_apply, passDescription, passIf_cons_of_not hstring, bind_apply,
      passIf_cons (isWord_of_kind ht)]
    rfl
  | @described t ts word p q ht hword h =>
    refine hdefinition ?_
    obtain ⟨text, hkind⟩ := exists_string ht
    -- the word stands behind the description
    obtain ⟨t', ts, rfl, -, ht'⟩ := wordBehind_eq_some hword
    unfold definition
    simp only [hkind, hword, Option.bind_eq_bind, Option.bind_some, if_neg h.ne_of.1.2.1,
      h.sweep_eq]
    show (do
        passIf (·.isWord word)
        q : Sweep (List Directive)) (passDescription (t :: t' :: ts)).2 = (do
        pass
        q : Sweep (List Directive)) (passDescription (t :: t' :: ts)).2
    rw [passDescription, passIf_cons ht, bind_apply, passIf_cons (isWord_of_kind ht')]
    rfl
  | @extension t ts word p q ht hword h =>
    refine hdefinition ?_
    unfold definition
    simp only [ht, hword, Option.bind_some, h.sweep_eq]
    rfl

/-- What stands behind the first two tokens is not chosen by. -/
theorem wordBehind_alike {more us : List Token} {t u : Token} {word : String}
    (halike : Alike more (t :: ts) (u :: us)) (h : Grammar.wordBehind (t :: ts) = some word) :
    Grammar.wordBehind (u :: us) = some word := by
  obtain ⟨t', ts, rfl, hcomma, hkind⟩ := wordBehind_eq_some h
  cases halike with
  | next _ hhead hrest =>
    cases hrest with
    | @next _ u' _ us hkind' _ _ =>
      -- nothing stands between the two, so no comma was passed over
      have hcomma' : u'.afterComma = false := by simpa [hcomma] using hhead t' rfl
      obtain ⟨kind, start, stop, comma⟩ := u'
      obtain rfl : comma = false := hcomma'
      obtain rfl : t'.kind = kind := hkind'
      simp [Grammar.wordBehind, Token.name?, hkind]

/-- Tokens that are alike choose alike. -/
theorem alike {more us : List Token} (h : Chosen ts p q) (halike : Alike more ts us) :
    Chosen us p q := by
  -- what is chosen by is a kind, or a word with no comma before it
  have hstring {t u : Token} (hkind : t.kind = u.kind) (ht : t.isString = true) :
      u.isString = true := Token.kindTest_isString t u hkind ▸ ht
  cases h with
  | query ht =>
    obtain ⟨u, us, rfl, hkind, -⟩ := halike.exists_cons
    exact .query (hkind ▸ ht)
  | fragment ht =>
    obtain ⟨u, us, rfl, hkind, -⟩ := halike.exists_cons
    obtain ht | ⟨ht, hword⟩ := ht
    · exact .fragment (.inl (hkind ▸ ht))
    · exact .fragment (.inr ⟨hstring hkind ht, wordBehind_alike halike hword⟩)
  | @operation t ts ht =>
    obtain ⟨u, us, rfl, hkind, -⟩ := halike.exists_cons
    have hsame : Grammar.operationKind? t = Grammar.operationKind? u := by
      simp only [Grammar.operationKind?, Token.isWord, hkind]
    exact .operation (hsame ▸ ht)
  | keyword ht h =>
    obtain ⟨u, us, rfl, hkind, -⟩ := halike.exists_cons
    exact .keyword (hkind ▸ ht) h
  | described ht hword h =>
    obtain ⟨u, us, rfl, hkind, -⟩ := halike.exists_cons
    exact .described (hstring hkind ht) (wordBehind_alike halike hword) h
  | extension ht hword h =>
    obtain ⟨u, us, rfl, hkind, -⟩ := halike.exists_cons
    exact .extension (hkind ▸ ht) (wordBehind_alike halike hword) h

end Chosen

/-! ## What is not chosen -/

/-- The reader fails at a token, and the sweep passes over it. -/
def Unchosen (t : Token) (ts : List Token) : Prop :=
  Grammar.definition (t :: ts) = .error (t :: ts) ∧ definition? (t :: ts) = (some [], ts)

/-- The definition that is tried is the only one, so what comes of it is what comes of the tokens.
-/
theorem unchosen_of {t : Token} {ts : List Token}
    (hreader : Grammar.definition (t :: ts) = .error (t :: ts))
    (hsweep : definition t (t :: ts) = ([], ts)) : Unchosen t ts := by
  refine ⟨hreader, ?_⟩
  rw [definition?_cons, hsweep]

/-- A string literal describes what the word behind it introduces, or it starts nothing. -/
theorem exists_chosen_of_string {t : Token} {text : String} (ts : List Token)
    (hkind : t.kind = .string text) : (∃ p q, Chosen (t :: ts) p q) ∨ Unchosen t ts := by
  have hstring : t.isString = true := by simp [Token.isString, hkind]
  -- the word behind the description decides
  cases hword : Grammar.wordBehind (t :: ts) with
  | none =>
    refine .inr (unchosen_of ?_ ?_)
    · simp [Grammar.definition, hkind, hword]
      rfl
    · simp [definition, hkind, hword]
      rfl
  | some word =>
    by_cases hfragment : word = "fragment"
    · exact .inl ⟨_, _, .fragment (.inr ⟨hstring, hfragment ▸ hword⟩)⟩
    · obtain ⟨p, q, h⟩ | ⟨hreader, hsweep⟩ := typeSystemDefinition?_cases word
      · exact .inl ⟨_, _, .described hstring hword h⟩
      · refine .inr (unchosen_of ?_ ?_)
        · simp [Grammar.definition, hkind, hword, hfragment, hreader]
          rfl
        · simp [definition, hkind, hword, hfragment, hsweep]
          rfl

/-- An extension is told by the word behind `extend`. -/
theorem exists_chosen_of_extend {t : Token} (ts : List Token) (hkind : t.kind = .name "extend") :
    (∃ p q, Chosen (t :: ts) p q) ∨ Unchosen t ts := by
  -- the word behind it says what is extended
  cases hword : Grammar.wordBehind (t :: ts) with
  | none =>
    refine .inr (unchosen_of ?_ ?_)
    · simp [Grammar.definition, hkind, hword]
      rfl
    · simp [definition, hkind, hword]
      rfl
  | some word =>
    obtain ⟨p, q, h⟩ | ⟨hreader, hsweep⟩ := extension?_cases word
    · exact .inl ⟨_, _, .extension hkind hword h⟩
    · refine .inr (unchosen_of ?_ ?_)
      · simp [Grammar.definition, hkind, hword, hreader]
        rfl
      · simp [definition, hkind, hword, hsweep]
        rfl

/-- A name starts an extension, a fragment, an operation, a definition, or nothing. -/
theorem exists_chosen_of_name {t : Token} {word : String} (ts : List Token)
    (hkind : t.kind = .name word) : (∃ p q, Chosen (t :: ts) p q) ∨ Unchosen t ts := by
  by_cases hextend : word = "extend"
  · exact exists_chosen_of_extend ts (hextend ▸ hkind)
  by_cases hfragment : word = "fragment"
  · exact .inl ⟨_, _, .fragment (.inl (hfragment ▸ hkind))⟩
  obtain ⟨hreader, hsweep⟩ := definition_of_name ts hkind hextend hfragment
  -- the keyword of an operation, one of a definition, or no keyword
  by_cases hoperation : (Grammar.operationKind? t).isSome = true
  · exact .inl ⟨_, _, .operation hoperation⟩
  · rw [if_neg hoperation] at hreader hsweep
    obtain ⟨p, q, h⟩ | ⟨hnoreader, hnosweep⟩ := typeSystemDefinition?_cases word
    · exact .inl ⟨_, _, .keyword hkind h⟩
    · rw [hnoreader] at hreader
      rw [hnosweep] at hsweep
      exact .inr (unchosen_of hreader hsweep)

/-- Where nothing is chosen, the reader fails and the sweep passes over a token. -/
theorem exists_chosen (t : Token) (ts : List Token) :
    (∃ p q, Chosen (t :: ts) p q) ∨ Unchosen t ts := by
  -- braces, string literals and names can start a definition, and nothing else can
  cases hkind : t.kind with
  | mark c =>
    by_cases hc : c = '\x7b'
    · exact .inl ⟨_, _, .query (hc ▸ hkind)⟩
    · have hmark : Token.Kind.mark c ≠ .mark '\x7b' := fun h => hc (Token.Kind.mark.inj h)
      refine .inr (unchosen_of ?_ ?_)
      · simp [Grammar.definition, hkind]
        rfl
      · simp [definition, hkind]
        rfl
  | string text => exact exists_chosen_of_string ts hkind
  | name word => exact exists_chosen_of_name ts hkind
  | _ =>
    refine .inr (unchosen_of ?_ ?_)
    · simp [Grammar.definition, hkind]
      rfl
    · simp [definition, hkind]
      rfl

/-! ## Where a definition starts -/

/-- What a definition starts with does not go on with the one before. -/
theorem closed_of_kind {t : Token} (ts : List Token)
    (h : t.isString = true ∨ t.kind = .mark '\x7b' ∨
      ∃ word, t.kind = .name word ∧ ∀ w ∈ ["implements", "repeatable", "on"], word ≠ w) :
    Closed (t :: ts) := by
  rintro t' ht'
  obtain rfl : t = t' := by simpa using ht'
  obtain hstring | hkind | ⟨word, hkind, hne⟩ := h
  · obtain ⟨text, hkind⟩ := exists_string hstring
    exact ⟨by simp [Token.isMark, hkind], by simp [Token.isWord, hkind]⟩
  · refine ⟨fun c hc => ?_, by simp [Token.isWord, hkind]⟩
    simp only [Token.isMark, hkind, decide_eq_true_eq, Token.Kind.mark.injEq] at hc
    exact hc.symm
  · refine ⟨by simp [Token.isMark, hkind], fun w hw => ?_⟩
    simpa [Token.isWord, hkind] using hne w hw

/-- A definition starts with tokens that do not go on with the one before. -/
theorem Chosen.closed {ts : List Token} {p : Reader Definition} {q : Sweep (List Directive)}
    (h : Chosen ts p q) : Closed ts := by
  -- the keywords of definitions are none of the words that go on with one
  cases h with
  | query ht => exact closed_of_kind _ (.inr (.inl ht))
  | fragment ht =>
    obtain ht | ⟨ht, -⟩ := ht
    · exact closed_of_kind _ (.inr (.inr ⟨_, ht, by decide⟩))
    · exact closed_of_kind _ (.inl ht)
  | operation ht =>
    obtain ⟨word, hname, hne⟩ := exists_word ht
    exact closed_of_kind _ (.inr (.inr ⟨word, hname, fun w hw => hne w (by simp_all)⟩))
  | keyword ht h => exact closed_of_kind _ (.inr (.inr ⟨_, ht, h.ne_of.2⟩))
  | described ht _ _ => exact closed_of_kind _ (.inl ht)
  | extension ht _ _ => exact closed_of_kind _ (.inr (.inr ⟨_, ht, by decide⟩))

/-- A definition that is read was chosen by its first tokens. -/
theorem exists_chosen_of_ok {ts rest : List Token} {d : Definition}
    (h : Grammar.definition ts = .ok (d, rest)) : ∃ p q, Chosen ts p q := by
  cases ts with
  | nil => cases h
  | cons t ts =>
    obtain hchosen | ⟨herror, -⟩ := exists_chosen t ts
    · exact hchosen
    · rw [herror] at h
      cases h

/-- Every definition that is read is in step, up to a brace behind the last one. -/
theorem introduces_definition :
    Introduces 1 (fun d found => ∃ ds, found = some ds ∧ SameDirectives d ds) Grammar.definition
      definition? := by
  intro more ts us d rest halike h hend
  obtain ⟨p, q, hchosen⟩ := exists_chosen_of_ok h
  rw [hchosen.reader_eq] at h
  rw [(hchosen.alike halike).sweep_eq]
  obtain ⟨hds, hrest⟩ := hchosen.introduces halike h hend
  exact ⟨⟨_, rfl, hds⟩, hrest⟩

end Salvage

end SchemaAtlas
