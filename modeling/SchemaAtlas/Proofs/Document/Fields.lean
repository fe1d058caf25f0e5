import SchemaAtlas.Proofs.Document.TypeExpressions

/-!
# Fields as they are written

An object type whose fields, and the arguments that they take, have types that are not nested too
deeply is read without a fault from every text that writes it, and the types of its fields and
arguments are read as the expressions that they are written with.

* `FieldExpr.Renders`            a field is read as it is written
* `Grammar.takes_field`          a field is read from its tokens
* `Document.renders_objectType`  a text that is an object type
-/

namespace SchemaAtlas

open Token (Kind)

/-- A field as it is written: its name, the arguments that it takes, with the type of each, and its
own type. -/
structure FieldExpr where
  name : String
  arguments : List (String × TypeExpr)
  type : TypeExpr

namespace FieldExpr

/-- The types of a field and of its arguments. -/
def types (f : FieldExpr) : List TypeExpr :=
  f.type :: f.arguments.map Prod.snd

/-- The kinds of the tokens of an argument. -/
def argumentKinds (a : String × TypeExpr) : List Kind :=
  .name a.1 :: .mark ':' :: a.2.kinds

/-- The kinds of the tokens of all arguments, which stand in parentheses, if there are any. -/
def argumentsKinds (arguments : List (String × TypeExpr)) : List Kind :=
  if arguments.isEmpty then []
  else .mark '(' :: (arguments.flatMap argumentKinds ++ [.mark ')'])

/-- The kinds of the tokens of the field. -/
def kinds (f : FieldExpr) : List Kind :=
  .name f.name :: (argumentsKinds f.arguments ++ .mark ':' :: f.type.kinds)

/-- The kinds of the tokens of an object type with given fields. -/
def objectKinds (name : String) (fs : List FieldExpr) : List Kind :=
  .name "type" :: .name name :: .mark '\x7b' :: (fs.flatMap kinds ++ [.mark '\x7d'])

/-- Whether a value that is read for an argument has its name, and its type the readings of what is
written. -/
structure RendersArgument (a : String × TypeExpr) (value : InputValue) : Prop where
  name : value.name.text = a.1
  type : a.2.Renders value.type.signature? value.type.base? value.type.isList

/-- Whether a field that is read has the name and the arguments of one that is written, and its type
the readings of what is written. -/
structure Renders (f : FieldExpr) (field : Field) : Prop where
  name : field.name.text = f.name
  arguments : List.Forall₂ RendersArgument f.arguments field.arguments
  type : f.type.Renders field.type.signature? field.type.base? field.type.isList

end FieldExpr

namespace Grammar

open Reader

variable {part : List Token}

/-! ## What follows a type -/

/-- Whether nothing follows that belongs to the type of a field or an argument, or goes on with its
definition: no non-null mark, no default value and no directive. -/
def BehindTyping (rest : List Token) : Prop :=
  rest.head?.any (fun t => t.isMark '!' || t.isMark '=' || t.isMark '@') = false

/-- None of the three marks follows. -/
theorem BehindTyping.not_isMark {rest : List Token} (h : BehindTyping rest) :
    rest.head?.any (·.isMark '!') = false ∧ rest.head?.any (·.isMark '=') = false ∧
      rest.head?.any (·.isMark '@') = false := by
  cases rest with
  | nil => exact ⟨rfl, rfl, rfl⟩
  | cons t rest => simpa [BehindTyping, and_assoc] using h

/-- A description or a name goes on with no type before it. -/
theorem behindTyping_of_isDescribedName {rest : List Token}
    (h : rest.head?.any isDescribedName = true) : BehindTyping rest := by
  cases rest with
  | nil => rfl
  | cons t rest =>
    -- a mark is neither a literal nor a name
    have hmark (c : Char) : t.isMark c = false := by
      by_contra hnot
      have hkind : t.kind = .mark c := by simpa [Token.isMark] using hnot
      simp [isDescribedName, isName, Token.isString, Token.name?, hkind] at h
    simp [BehindTyping, hmark]

/-- Other marks go on with no type before them. -/
theorem behindTyping_of_kind {t : Token} {c : Char} (h : t.kind = .mark c)
    (hc : c ≠ '!' ∧ c ≠ '=' ∧ c ≠ '@') (rest : List Token) : BehindTyping (t :: rest) := by
  simp [BehindTyping, Token.isMark, h, hc]

/-! ## Fields and arguments -/

/-- A description can be left out. -/
theorem takes_description_nil :
    description.Takes (·.head?.any Token.isString = false) [] () :=
  (takes_maybe_nil _ _).bind_pure fun _ => rfl

/-- Directives can be left out. -/
theorem takes_directives_nil : (directives true depthLimit).Takes BehindTyping [] [] :=
  (Takes.many _ .nil).mono fun _ hrest => hrest.not_isMark.2.2

/-- A colon and a type are read from their tokens. -/
theorem takes_typing {colon : Token} {t : TypeExpr} (hcolon : colon.kind = .mark ':')
    (hlevels : t.lists ≤ depthLimit) (hkinds : part.map Token.kind = t.kinds) :
    typing.Takes BehindTyping (colon :: part) t.ref := by
  refine (takes_mark hcolon).cons ((t.takes hlevels hkinds).mono ?_)
  intro rest hrest _
  exact hrest.not_isMark.1

/-- Without a description, a name comes first. -/
theorem takes_named {α : Type} {p : Name → Reader α} {n : Token} {word : String} {a : α}
    {E : List Token → Prop} (hn : n.kind = .name word)
    (h : (p ⟨word, n.start⟩).Takes E part a) :
    (do description; p (← name)).Takes E (n :: part) a := by
  refine takes_description_nil.bind_nil ((takes_name hn).cons h) ?_
  intro rest _
  simp [Token.isString, hn]

/-- A default value can be left out. -/
theorem takes_defaultValue_nil : defaultValue.Takes BehindTyping [] () :=
  ((takes_maybe_nil _ _).bind_pure fun _ => rfl).mono fun _ hrest => hrest.not_isMark.2.1

/-- An argument is read from its tokens. -/
theorem takes_inputValue {a : String × TypeExpr}
    (hkinds : part.map Token.kind = FieldExpr.argumentKinds a) (hlevels : a.2.lists ≤ depthLimit) :
    ∃ value, FieldExpr.RendersArgument a value ∧ part.head?.any isDescribedName = true ∧
      inputValue.Takes BehindTyping part value := by
  obtain ⟨n, _, rfl, hn, hrest⟩ := List.map_eq_cons_iff.1 hkinds
  obtain ⟨colon, _, rfl, hcolon, htype⟩ := List.map_eq_cons_iff.1 hrest
  refine ⟨⟨⟨a.1, n.start⟩, a.2.ref⟩, ⟨rfl, a.2.renders_ref⟩,
    by simp [isDescribedName, isName, Token.name?, hn], takes_named hn ?_⟩
  -- neither a default value nor a directive follows the type
  have hbehind := takes_defaultValue_nil.bind_of
    (f := fun _ => do
      let _ ← directives true depthLimit
      return (⟨⟨a.1, n.start⟩, a.2.ref⟩ : InputValue))
    (takes_directives_nil.bind_pure fun _ => rfl) fun rest hrest => hrest
  have htyping := (takes_typing hcolon hlevels htype).bind_of
    (f := fun type => do
      defaultValue
      let _ ← directives true depthLimit
      return (⟨⟨a.1, n.start⟩, type⟩ : InputValue)) hbehind fun rest hrest => hrest
  rw [List.append_nil, List.append_nil] at htyping
  exact htyping

/-- Items between two marks, at least one, are read from their tokens. -/
theorem takes_block {α β : Type} {p : Reader β} {P : α → β → Prop} {kindsOf : α → List Kind}
    {as : List α} {o d : Char} (hne : as ≠ []) (hd : d ≠ '!' ∧ d ≠ '=' ∧ d ≠ '@')
    (h : ∀ a ∈ as, ∀ part, part.map Token.kind = kindsOf a →
      ∃ b, P a b ∧ part.head?.any isDescribedName = true ∧ p.Takes BehindTyping part b)
    (hkinds : part.map Token.kind = .mark o :: (as.flatMap kindsOf ++ [.mark d])) :
    ∃ bs, List.Forall₂ P as bs ∧ (do
      let _ ← mark o
      let bs ← many1 isDescribedName p
      let _ ← mark d
      return bs : Reader (List β)).Takes Anywhere part bs ∧
      part.head?.any (·.isMark o) = true := by
  obtain ⟨opening, _, rfl, hopening, hrest⟩ := List.map_eq_cons_iff.1 hkinds
  obtain ⟨inner, _, rfl, hinner, hrest⟩ := List.map_eq_append_iff.1 hrest
  obtain ⟨closing, _, rfl, hclosing, hrest⟩ := List.map_eq_cons_iff.1 hrest
  obtain rfl := List.map_eq_nil_iff.1 hrest
  obtain ⟨parts, bs, rfl, hbs, hparts⟩ := exists_parts h hinner
  -- there is a part for each item
  have hparts' : parts ≠ [] := by
    rintro rfl
    cases hparts
    cases hbs
    exact hne rfl
  refine ⟨bs, hbs, ?_, by simp [Token.isMark, hopening]⟩
  refine (takes_mark hopening).cons ?_
  have hmany := Takes.many1_of hparts (fun _ => behindTyping_of_isDescribedName) hparts'
  refine hmany.bind_of ((takes_mark hclosing).bind_pure fun _ => rfl) ?_
  intro rest _
  exact ⟨behindTyping_of_kind hclosing hd rest, by simp [isDescribedName, isName, Token.isString,
    Token.name?, hclosing]⟩

/-- The arguments of a field, if there are any, are read from their tokens. -/
theorem takes_arguments {as : List (String × TypeExpr)}
    (hkinds : part.map Token.kind = FieldExpr.argumentsKinds as)
    (hlevels : ∀ a ∈ as, a.2.lists ≤ depthLimit) :
    ∃ found : Option (List InputValue),
      List.Forall₂ FieldExpr.RendersArgument as (found.getD []) ∧
      (maybe (·.isMark '(') (inputValues '(' ')')).Takes (·.head?.any (·.isMark '(') = false)
        part found := by
  rw [FieldExpr.argumentsKinds] at hkinds
  -- no arguments are written as nothing at all
  split at hkinds
  · next hempty =>
    obtain rfl := List.isEmpty_iff.1 hempty
    obtain rfl := List.map_eq_nil_iff.1 hkinds
    exact ⟨none, .nil, takes_maybe_nil _ _⟩
  · next hempty =>
    obtain ⟨values, hvalues, htakes, hhead⟩ := takes_block (by simpa using hempty) (by decide)
      (fun a ha part hpart => takes_inputValue hpart (hlevels a ha)) hkinds
    refine ⟨some values, hvalues, ?_⟩
    cases part with
    | nil => cases hhead
    | cons t part =>
      have hmaybe := htakes.maybe (·.isMark '(') (by simpa using hhead)
      exact hmaybe.mono fun _ _ => trivial

/-- A field is read from its tokens. -/
theorem takes_field {f : FieldExpr} (hkinds : part.map Token.kind = f.kinds)
    (hlevels : ∀ t ∈ f.types, t.lists ≤ depthLimit) :
    ∃ field, f.Renders field ∧ part.head?.any isDescribedName = true ∧
      Grammar.field.Takes BehindTyping part field := by
  obtain ⟨htype, harguments⟩ := List.forall_mem_cons.1 hlevels
  obtain ⟨n, _, rfl, hn, hrest⟩ := List.map_eq_cons_iff.1 hkinds
  obtain ⟨inner, _, rfl, hinner, hrest⟩ := List.map_eq_append_iff.1 hrest
  obtain ⟨colon, _, rfl, hcolon, hkinds'⟩ := List.map_eq_cons_iff.1 hrest
  obtain ⟨found, hfound, hmaybe⟩ := takes_arguments hinner fun a ha =>
    harguments a.2 (List.mem_map_of_mem ha)
  refine ⟨⟨⟨f.name, n.start⟩, found.getD [], f.type.ref, []⟩, ⟨rfl, hfound, f.type.renders_ref⟩,
    by simp [isDescribedName, isName, Token.name?, hn], takes_named hn ?_⟩
  -- the colon ends the arguments, and what follows the type ends the field
  refine hmaybe.bind_of ?_ fun rest _ => by simp [Token.isMark, hcolon]
  have htyping := (takes_typing hcolon htype hkinds').bind_of
    (f := fun type => do
      let directives ← directives true depthLimit
      return (⟨⟨f.name, n.start⟩, found.getD [], type, directives⟩ : Field))
    (takes_directives_nil.bind_pure fun _ => rfl) fun rest hrest => hrest
  rw [List.append_nil] at htyping
  exact htyping

/-- The parts of an object type before its fields. -/
theorem takes_typeHead {keyword n brace : Token} {name : String} (hn : n.kind = .name name)
    (hbrace : brace.kind = .mark '\x7b') :
    (typeHead .object false).Takes (·.head? = some brace) [keyword, n]
      (⟨.object, false, ⟨name, n.start⟩, [], []⟩, false) := by
  refine (takes_take rfl).cons ((takes_name hn).cons ?_)
  have hdirectives : (do
      let directives ← directives true depthLimit
      return (⟨.object, false, ⟨name, n.start⟩, directives, []⟩, false) :
        Reader (TypeDeclaration × Bool)).Takes BehindTyping []
          (⟨.object, false, ⟨name, n.start⟩, [], []⟩, false) :=
    takes_directives_nil.bind_pure fun _ => rfl
  -- the brace comes next, so there are no interfaces either
  have hnone := takes_maybe_nil (·.isWord "implements") implementedInterfaces
  intro rest hrest
  obtain ⟨us, rfl⟩ := List.head?_eq_some_iff.1 hrest
  have hinterfaces : (brace :: us).head?.any (·.isWord "implements") = false := by
    simp [Token.isWord, hbrace]
  refine bind_eq_ok.2 ⟨none, brace :: us, hnone _ hinterfaces, ?_⟩
  exact hdirectives _ (behindTyping_of_kind hbrace (by decide) us)

/-- An object type with at least one field is read from its tokens. -/
theorem takes_objectType {name : String} {fs : List FieldExpr} (hne : fs ≠ [])
    (hkinds : part.map Token.kind = FieldExpr.objectKinds name fs)
    (hlevels : ∀ f ∈ fs, ∀ t ∈ f.types, t.lists ≤ depthLimit) :
    ∃ declaration, List.Forall₂ FieldExpr.Renders fs declaration.fields ∧
      (typeDefinition .object).Takes Anywhere part (.type declaration) := by
  obtain ⟨keyword, _, rfl, -, hrest⟩ := List.map_eq_cons_iff.1 hkinds
  obtain ⟨n, body, rfl, hn, hbody⟩ := List.map_eq_cons_iff.1 hrest
  -- the keyword and the name are followed by the block of fields
  obtain ⟨fields, hfields, htakes, hhead⟩ := takes_block hne (by decide)
    (fun f hf part hpart => takes_field hpart (hlevels f hf)) hbody
  cases body with
  | nil => cases hhead
  | cons brace body =>
    have hbrace : brace.kind = .mark '\x7b' := by simpa [Token.isMark] using hhead
    refine ⟨⟨.object, false, ⟨name, n.start⟩, [], fields⟩, hfields, ?_⟩
    have hmaybe := htakes.maybe (·.isMark '\x7b') (by simpa using hhead)
    exact (takes_typeHead hn hbrace).bind_of (hmaybe.bind_pure fun _ => rfl) fun rest _ => rfl

/-- The word `type` introduces an object type. -/
theorem definition_of_type {t : Token} (h : t.kind = .name "type") (ts : List Token) :
    definition (t :: ts) = typeDefinition .object (t :: ts) := by
  obtain ⟨kind, start, stop, afterComma⟩ := t
  obtain rfl : kind = .name "type" := h
  rfl

end Grammar

/-- A text whose tokens are one definition has no fault. -/
theorem Document.ofText_eq {text : String} {d : Definition}
    (h : Grammar.definition (Token.ofText text) = .ok (d, [])) :
    ofText text = { definitions := [d], fault := none } := by
  rw [ofText]
  cases htokens : Token.ofText text with
  | nil =>
    rw [htokens] at h
    cases h
  | cons t ts =>
    rw [htokens] at h
    -- one definition is read, and nothing is left to read another one from
    have hfrom : definitionsFrom (t :: ts) (t :: ts) = ([d], none) := by
      rw [definitionsFrom, h]
      cases ts <;> rfl
    simp [hfrom]

/-- A text that writes an object type is read without a fault, and the readings of the types of its
fields, and of their arguments, are what is written. -/
theorem Document.renders_objectType {name : String} {fs : List FieldExpr} {text : String}
    (hne : fs ≠ []) (hlevels : ∀ f ∈ fs, ∀ t ∈ f.types, t.lists ≤ Grammar.depthLimit)
    (htext : Token.Written (FieldExpr.objectKinds name fs) text.toList) :
    ∃ declaration, ofText text = { definitions := [.type declaration], fault := none } ∧
      List.Forall₂ FieldExpr.Renders fs declaration.fields := by
  obtain ⟨ts, stop, comma, hscan, hkinds⟩ := htext.scan_append Token.apart_nil 0 false
  have htokens : Token.ofText text = ts := by
    rw [List.append_nil] at hscan
    rw [Token.ofText, hscan]
    simp [Token.scan]
  obtain ⟨declaration, hfields, htakes⟩ := Grammar.takes_objectType hne hkinds hlevels
  refine ⟨declaration, ofText_eq ?_, hfields⟩
  -- the first token chooses the reader
  obtain ⟨keyword, rest, rfl, hkeyword, -⟩ := List.map_eq_cons_iff.1 hkinds
  rw [htokens, Grammar.definition_of_type hkeyword]
  simpa using htakes [] trivial

end SchemaAtlas
