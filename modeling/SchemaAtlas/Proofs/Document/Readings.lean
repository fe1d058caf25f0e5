import SchemaAtlas.Document.TypeRef
import SchemaAtlas.Proofs.Document.Names
import SchemaAtlas.Proofs.Salvage.Texts

/-!
# What definitions are read from

The names of the types and fields that a document declares are names among its tokens, in the same
order, and every field has a complete type. As in the grammar there is one lemma for each way to put
readers together, and one for each production that keeps names.

* `Reader.Yields`            a reader finds the names of its answer among the tokens that it takes
* `Grammar.yields_definition`   so does the reader of definitions
* `Document.names_sublist`      the names of a whole document
-/

namespace SchemaAtlas

open Salvage

/-! ## The names of a definition -/

/-- The names of a type and of its fields, in text order. -/
def TypeDeclaration.names (declaration : TypeDeclaration) : List Name :=
  declaration.name :: declaration.fields.map Field.name

/-- The names of the type that a definition declares and of its fields, in text order. -/
def Definition.names : Definition → List Name
  | .type declaration => declaration.names
  | _ => []

/-- Whether a field has a complete type. -/
def Field.IsTyped (field : Field) : Prop :=
  field.type.base?.isSome = true

/-- Whether all fields of the type that a definition declares have complete types. -/
def Definition.IsTyped : Definition → Prop
  | .type declaration => ∀ field ∈ declaration.fields, field.IsTyped
  | _ => True

/-- Whether a definition declares a type. -/
def Definition.isType : Definition → Bool
  | .type _ => true
  | _ => false

/-- A definition that declares no type has no names of types and fields. -/
theorem Definition.names_eq_nil {d : Definition} (h : d.isType = false) : d.names = [] := by
  cases d with
  | type => cases h
  | _ => rfl

/-- A definition that declares no type has no field whose type could be missing. -/
theorem Definition.isTyped_of_not_isType {d : Definition} (h : d.isType = false) : d.IsTyped := by
  cases d with
  | type => cases h
  | _ => trivial

namespace Reader

variable {α β γ : Type}

/-! ## Readers that take tokens from the front -/

/-- Whether a reader takes tokens from the front and leaves those behind them. -/
def Advances (p : Reader α) : Prop :=
  ∀ ⦃ts a rest⦄, p ts = .ok (a, rest) → ∃ used, ts = used ++ rest

/-- What a sweep follows takes tokens from the front. -/
theorem advances_of_follows {n : Nat} {E : List Token → Prop} {R : α → β → Prop} {p : Reader α}
    {q : Sweep β} (h : Follows n E R p q) (hE : E []) : p.Advances := by
  intro ts a rest hp
  obtain ⟨-, k, -, -, rfl, -⟩ := h (Token.Alike.refl ts) hp fun _ => hE
  exact ⟨ts.take k, (List.take_append_drop k ts).symm⟩

/-- What a sweep follows up to a brace does so as well: no brace is behind all tokens. -/
theorem advances_of_introduces {n : Nat} {R : α → β → Prop} {p : Reader α} {q : Sweep β}
    (h : Introduces n R p q) : p.Advances := by
  intro ts a rest hp
  obtain ⟨-, ⟨k, -, -, rfl, -⟩ | ⟨-, t, more, hmore, -⟩⟩ :=
    h (Token.Alike.refl ts) hp fun _ => closed_nil
  · exact ⟨ts.take k, (List.take_append_drop k ts).symm⟩
  · cases hmore

/-- Whether all answers of a reader are as `P` says. -/
def Answers (P : α → Prop) (p : Reader α) : Prop :=
  ∀ ⦃ts a rest⦄, p ts = .ok (a, rest) → P a

/-- A reader that takes nothing answers what it is given. -/
theorem answers_pure {P : α → Prop} {a : α} (h : P a) : (pure a : Reader α).Answers P := by
  intro ts c rest hok
  obtain ⟨rfl, -⟩ := pure_eq_ok.1 hok
  exact h

/-- What the last reader answers is the answer. -/
theorem answers_bind {P : γ → Prop} {p : Reader α} {f : α → Reader γ}
    (h : ∀ a, (f a).Answers P) : (p >>= f).Answers P := by
  intro ts c rest hok
  obtain ⟨a, mid, -, hc⟩ := bind_eq_ok.1 hok
  exact h a hc

/-- A reader that takes nothing leaves all tokens. -/
theorem advances_pure (a : α) : (pure a : Reader α).Advances := by
  intro ts c rest h
  obtain ⟨-, rfl⟩ := pure_eq_ok.1 h
  exact ⟨[], rfl⟩

/-- A token is taken from the front. -/
theorem advances_take (accept : Token → Option α) : (take accept).Advances := by
  intro ts a rest h
  obtain ⟨t, rfl, -⟩ := take_eq_ok h
  exact ⟨[t], rfl⟩

/-- The tokens of the next reader are behind those of the first one. -/
theorem Advances.bind {p : Reader α} (hp : p.Advances) {f : α → Reader γ}
    (hf : ∀ a, (f a).Advances) : (p >>= f).Advances := by
  intro ts c rest h
  obtain ⟨a, mid, hok, hrest⟩ := bind_eq_ok.1 h
  obtain ⟨front, rfl⟩ := hp hok
  obtain ⟨used, rfl⟩ := hf a hrest
  exact ⟨front ++ used, (List.append_assoc ..).symm⟩

/-- A part that may be left out is read or not, as the token in hand says. -/
theorem maybe_eq_ok {starts : Token → Bool} {p : Reader α} {ts rest : List Token} {found : Option α}
    (h : maybe starts p ts = .ok (found, rest)) :
    (found = none ∧ ts = rest) ∨ ∃ a, found = some a ∧ p ts = .ok (a, rest) := by
  cases ts with
  | nil =>
    obtain ⟨rfl, rfl⟩ := Prod.mk.inj (Except.ok.inj h)
    exact .inl ⟨rfl, rfl⟩
  | cons t ts =>
    rw [Follows.maybe_cons] at h
    -- the token in hand starts one, or none is read
    split at h
    · rw [map_eq_pure_bind, bind_eq_ok] at h
      obtain ⟨a, mid, hok, hpure⟩ := h
      obtain ⟨rfl, rfl⟩ := pure_eq_ok.1 hpure
      exact .inr ⟨a, rfl, hok⟩
    · obtain ⟨rfl, rfl⟩ := Prod.mk.inj (Except.ok.inj h)
      exact .inl ⟨rfl, rfl⟩

/-- A part that may be left out is at the front, or no token is taken. -/
theorem Advances.maybe {p : Reader α} (hp : p.Advances) (starts : Token → Bool) :
    (maybe starts p).Advances := by
  intro ts found rest h
  obtain ⟨-, rfl⟩ | ⟨a, -, hok⟩ := maybe_eq_ok h
  · exact ⟨[], rfl⟩
  · exact hp hok

/-! ## Readers that keep names -/

/-- Whether the answers of a reader are as `P` says and their names are found, in this order, among
`front` and the names that the reader takes. -/
def Yields (front : List Name) (names : α → List Name) (P : α → Prop) (p : Reader α) : Prop :=
  ∀ ⦃ts a rest⦄, p ts = .ok (a, rest) → P a ∧ ∃ used, ts = used ++ rest ∧
    (names a).Sublist (front ++ used.filterMap Token.name?)

variable {front : List Name} {names : α → List Name} {names' : γ → List Name} {P : α → Prop}
  {Q : γ → Prop} {p : Reader α}

/-- A reader whose names are of no account keeps those that were found before. -/
theorem Advances.yields (hp : p.Advances) (front : List Name) :
    p.Yields front (fun _ => front) fun _ => True := by
  intro ts a rest h
  obtain ⟨used, rfl⟩ := hp h
  exact ⟨trivial, used, rfl, List.sublist_append_left ..⟩

/-- A reader that takes nothing keeps what was found before. -/
theorem yields_pure {a : α} (hP : P a) (h : (names a).Sublist front) :
    (pure a : Reader α).Yields front names P := by
  intro ts c rest hok
  obtain ⟨rfl, rfl⟩ := pure_eq_ok.1 hok
  exact ⟨hP, [], rfl, by simpa using h⟩

/-- A reader that fails answers nothing, so there is nothing to keep. -/
theorem yields_blame : (blame : Reader α).Yields front names P := by
  intro ts c rest hok
  cases hok

/-- Names can be left out of what a reader keeps. -/
theorem Yields.imp {names' : α → List Name} {Q : α → Prop} (hp : p.Yields front names P)
    (h : ∀ a, P a → Q a ∧ (names' a).Sublist (names a)) : p.Yields front names' Q := by
  intro ts a rest hok
  obtain ⟨hP, used, rfl, hnames⟩ := hp hok
  obtain ⟨hQ, hsublist⟩ := h a hP
  exact ⟨hQ, used, rfl, hsublist.trans hnames⟩

/-- The name that is read comes behind those that were found before. -/
theorem yields_name (front : List Name) :
    name.Yields front (fun n => front ++ [n]) fun _ => True := by
  intro ts n rest h
  obtain ⟨t, rfl, ht⟩ := take_eq_ok h
  exact ⟨trivial, [t], rfl, by simp [ht]⟩

/-- The names of one reader come before those of the next one. -/
theorem Yields.bind {f : α → Reader γ} (hp : p.Yields front names P)
    (hf : ∀ a, P a → (f a).Yields (names a) names' Q) : (p >>= f).Yields front names' Q := by
  intro ts c rest h
  obtain ⟨a, mid, hok, hrest⟩ := bind_eq_ok.1 h
  obtain ⟨hP, taken, rfl, hnames⟩ := hp hok
  obtain ⟨hQ, used, rfl, hnames'⟩ := hf a hP hrest
  refine ⟨hQ, taken ++ used, (List.append_assoc ..).symm, ?_⟩
  rw [List.filterMap_append, ← List.append_assoc]
  exact hnames'.trans (hnames.append_right _)

/-- A part without names leaves what was found before to the next reader. -/
theorem Advances.yields_bind {f : α → Reader γ} (hp : p.Advances)
    (hf : ∀ a, (f a).Yields front names' Q) : (p >>= f).Yields front names' Q :=
  (hp.yields front).bind fun a _ => hf a

/-- What was found before comes first. -/
theorem Yields.behind (hp : p.Yields [] names P) (front : List Name) :
    p.Yields front (fun a => front ++ names a) P := by
  intro ts a rest h
  obtain ⟨hP, used, rfl, hnames⟩ := hp h
  exact ⟨hP, used, rfl, (List.nil_append _ ▸ hnames).append_left front⟩

/-- The part that may be left out has no names then. -/
theorem Yields.maybe (hp : p.Yields [] names P) (starts : Token → Bool) :
    (maybe starts p).Yields [] (fun found => found.toList.flatMap names)
      fun found => ∀ a ∈ found, P a := by
  intro ts found rest h
  obtain ⟨rfl, rfl⟩ | ⟨a, rfl, hok⟩ := maybe_eq_ok h
  · exact ⟨by simp, [], rfl, by simp⟩
  · obtain ⟨hP, used, rfl, hnames⟩ := hp hok
    exact ⟨by simpa using hP, used, rfl, by simpa using hnames⟩

/-- The names of one round come before those of the next one. -/
theorem Yields.many (hp : p.Yields [] names P) (starts : Token → Bool) :
    (many starts p).Yields [] (List.flatMap names) fun as => ∀ a ∈ as, P a := by
  have hfrom (supply : List Token) :
      (manyFrom starts p supply).Yields [] (List.flatMap names) fun as => ∀ a ∈ as, P a := by
    -- one round for each token of the supply
    induction supply with
    | nil => exact yields_pure (by simp) (by simp)
    | cons s supply ih =>
      refine (hp.maybe starts).bind fun found hfound => ?_
      cases found with
      | none => exact yields_pure (by simp) (by simp)
      | some a =>
        refine (ih.behind _).bind fun as has => ?_
        exact yields_pure (List.forall_mem_cons.2 ⟨hfound a rfl, has⟩) (by simp)
  intro ts as rest h
  exact hfrom ts h

/-- The names of the first round come before those of the others. -/
theorem Yields.many1 (hp : p.Yields [] names P) (starts : Token → Bool) :
    (many1 starts p).Yields [] (List.flatMap names) fun as => ∀ a ∈ as, P a := by
  refine hp.bind fun a ha => ((hp.many starts).behind _).bind fun as has => ?_
  exact yields_pure (List.forall_mem_cons.2 ⟨ha, has⟩) (by simp)

end Reader

namespace Grammar

open Reader

/-! ## Types are complete -/

/-- A type that is read has a name inside all wrappers. -/
theorem isSome_base?_of_typeOf {nested : Reader TypeRef}
    (hnested : ∀ ⦃ts type rest⦄, nested ts = .ok (type, rest) → type.base?.isSome = true)
    {ts rest : List Token} {type : TypeRef} (h : typeOf nested ts = .ok (type, rest)) :
    type.base?.isSome = true := by
  unfold typeOf at h
  obtain ⟨list, mid, hlist, h⟩ := bind_eq_ok.1 h
  obtain ⟨rfl, -⟩ | ⟨item, rfl, hitem⟩ := maybe_eq_ok hlist
  · -- a name
    obtain ⟨base, _, -, h⟩ := bind_eq_ok.1 h
    obtain ⟨_, _, hpure, h⟩ := bind_eq_ok.1 h
    obtain ⟨rfl, -⟩ := pure_eq_ok.1 hpure
    obtain ⟨found, _, -, h⟩ := bind_eq_ok.1 h
    cases found <;> (obtain ⟨rfl, -⟩ := pure_eq_ok.1 h; rfl)
  · -- a list, which is as complete as its items
    obtain ⟨_, _, -, hitem⟩ := bind_eq_ok.1 hitem
    obtain ⟨inner, _, hinner, hitem⟩ := bind_eq_ok.1 hitem
    obtain ⟨_, _, -, hitem⟩ := bind_eq_ok.1 hitem
    obtain ⟨rfl, -⟩ := pure_eq_ok.1 hitem
    obtain ⟨_, _, hpure, h⟩ := bind_eq_ok.1 h
    obtain ⟨rfl, -⟩ := pure_eq_ok.1 hpure
    obtain ⟨found, _, -, h⟩ := bind_eq_ok.1 h
    have hbase : inner.base?.isSome = true := hnested hinner
    cases found <;> (obtain ⟨rfl, -⟩ := pure_eq_ok.1 h; exact hbase)

/-- However many lists it nests, a type that is read has a name inside them. -/
theorem isSome_base?_of_typeRef (levels : Nat) ⦃ts : List Token⦄ ⦃type : TypeRef⦄
    ⦃rest : List Token⦄ (h : typeRef levels ts = .ok (type, rest)) : type.base?.isSome = true := by
  -- at the bottom a list would have no item, so the type is a name
  induction levels generalizing ts type rest with
  | zero => exact isSome_base?_of_typeOf (fun ts type rest h => by cases h) h
  | succ levels ih => exact isSome_base?_of_typeOf ih h

/-! ## Parts without names of their own -/

/-- A description is taken from the front. -/
theorem advances_description : description.Advances :=
  ((advances_take _).maybe _).bind fun _ => advances_pure _

/-- Directives are taken from the front. -/
theorem advances_directives : (directives true depthLimit).Advances :=
  advances_of_follows (follows_directives true (Nat.le_refl _)) closed_nil

/-- Arguments and input fields are taken from the front. -/
theorem advances_inputValues (opening closing : Char) : (inputValues opening closing).Advances :=
  advances_of_follows (passes_inputValues (E := Anywhere) opening closing) trivial

/-- A colon and the type behind it are taken from the front. -/
theorem advances_typing : typing.Advances :=
  (advances_take _).bind fun _ => advances_of_follows (follows_typeRef depthLimit) closed_nil

/-- A type has no name that counts, and is complete. -/
theorem yields_typing (front : List Name) :
    typing.Yields front (fun _ => front) fun type => type.base?.isSome = true := by
  intro ts type rest h
  obtain ⟨_, _, -, htype⟩ := bind_eq_ok.1 h
  exact ⟨isSome_base?_of_typeRef depthLimit htype, (advances_typing.yields front h).2⟩

/-! ## Types and fields -/

/-- A field yields its name. -/
theorem yields_field : field.Yields [] (fun f => [f.name]) Field.IsTyped := by
  refine advances_description.yields_bind fun _ => ?_
  -- the arguments, the type and the directives behind the name have none that counts
  refine (yields_name []).bind fun name _ => ?_
  refine ((advances_inputValues _ _).maybe _).yields_bind fun arguments => ?_
  refine (yields_typing _).bind fun type htype => ?_
  exact advances_directives.yields_bind fun _ => yields_pure htype (.refl _)

/-- Fields between braces yield their names. -/
theorem yields_fields :
    fields.Yields [] (List.map Field.name) fun fs => ∀ f ∈ fs, f.IsTyped := by
  refine (advances_take _).yields_bind fun _ => ?_
  refine (yields_field.many1 _).bind fun fs hfs => ?_
  refine (advances_take _).yields_bind fun _ => yields_pure hfs ?_
  rw [List.map_eq_flatMap]

/-- The head of a type yields the name of the type. -/
theorem yields_typeHead (kind : TypeKind) (isExtension : Bool) :
    (typeHead kind isExtension).Yields [] (fun head => [head.1.name]) fun _ => True := by
  refine (advances_take _).yields_bind fun _ => ?_
  refine (yields_name []).bind fun name _ => ?_
  have hdirectives (interfaces : Option Unit) : (do
      let directives ← directives true depthLimit
      return (({ kind, isExtension, name, directives, fields := [] } : TypeDeclaration),
        interfaces.isSome) : Reader (TypeDeclaration × Bool)).Yields [name]
        (fun head => [head.1.name]) fun _ => True :=
    advances_directives.yields_bind fun _ => yields_pure trivial (.refl _)
  have himplements : (maybe (·.isWord "implements") implementedInterfaces).Advances :=
    (advances_of_follows passes_interfaces closed_nil).maybe _
  -- objects and interfaces implement others, no other kind does
  cases kind with
  | object => exact himplements.yields_bind hdirectives
  | interface => exact himplements.yields_bind hdirectives
  | _ => exact hdirectives none

/-- The body of a type whose fields are not kept. -/
theorem yields_empty {α : Type} {p : Reader α} (hp : p.Advances) (starts : Token → Bool) :
    (do return (← maybe starts p).map fun _ => [] : Reader (Option (List Field))).Yields []
      (fun body => (body.getD []).map Field.name) fun body => ∀ f ∈ body.getD [], f.IsTyped := by
  refine (hp.maybe starts).yields_bind fun found => ?_
  cases found with
  | none => exact yields_pure (by simp) (by simp)
  | some a => exact yields_pure (by simp) (by simp)

/-- The body of a type yields the names of the fields that are kept. -/
theorem yields_typeBody (kind : TypeKind) :
    (typeBody kind).Yields [] (fun body => (body.getD []).map Field.name)
      fun body => ∀ f ∈ body.getD [], f.IsTyped := by
  have hfields : (maybe (·.isMark '\x7b') fields).Yields []
      (fun body => (body.getD []).map Field.name) fun body => ∀ f ∈ body.getD [], f.IsTyped :=
    -- a body that is left out is one without fields
    (yields_fields.maybe _).imp fun body hbody => by cases body <;> simp_all
  -- only objects and interfaces keep their fields
  cases kind with
  | scalar => exact yields_pure (by simp) (by simp)
  | object => exact hfields
  | interface => exact hfields
  | union => exact yields_empty (advances_of_follows passes_members closed_nil) _
  | enum => exact yields_empty (advances_of_follows (passes_enumValues (E := Anywhere)) trivial) _
  | input => exact yields_empty (advances_inputValues _ _) _

/-- A type with its body. -/
theorem yields_type {declaration : TypeDeclaration} {fields : List Field}
    (h : ∀ f ∈ fields, f.IsTyped) :
    (return .type { declaration with fields } : Reader Definition).Yields
      (declaration.name :: fields.map Field.name) Definition.names Definition.IsTyped :=
  yields_pure h (.refl _)

/-- A type yields its name and then those of its fields. -/
theorem yields_typeDefinition (kind : TypeKind) :
    (typeDefinition kind).Yields [] Definition.names Definition.IsTyped := by
  refine (yields_typeHead kind false).bind fun head _ => ?_
  -- the name of the head is in front of those of the body
  refine ((yields_typeBody kind).behind _).bind fun body hbody => ?_
  exact yields_type hbody

/-- An extension of a type yields the name of the type and then those of the fields that it adds. -/
theorem yields_typeExtension (kind : TypeKind) :
    (typeExtension kind).Yields [] Definition.names Definition.IsTyped := by
  refine (advances_take _).yields_bind fun _ => ?_
  refine (yields_typeHead kind true).bind fun head _ => ?_
  refine ((yields_typeBody kind).behind _).bind fun body hbody => ?_
  -- an extension must have a part
  split
  · exact yields_type hbody
  · exact yields_blame

/-! ## Definitions -/

section Answers

variable {P : Definition → Prop}

/-- An operation or a fragment is answered as such. -/
theorem answers_executable (h : ∀ executable, P (.executable executable)) (p : Reader Executable) :
    (Definition.executable <$> p).Answers P := by
  rw [map_eq_pure_bind]
  exact answers_bind fun executable => answers_pure (h executable)

/-- A schema definition is answered as such. -/
theorem answers_schemaDefinition (h : ∀ directives, P (.schema directives)) :
    schemaDefinition.Answers P :=
  answers_bind fun _ => answers_bind fun _ => answers_bind fun _ => answers_pure (h _)

/-- An extension of the schema is answered like a schema definition. -/
theorem answers_schemaExtension (h : ∀ directives, P (.schema directives)) :
    schemaExtension.Answers P := by
  refine answers_bind fun _ => answers_bind fun _ => answers_bind fun _ => answers_bind fun _ => ?_
  -- an extension must have a part
  split
  · exact fun ts d rest hok => absurd hok (blame_ne_ok ts _)
  · exact answers_pure (h _)

/-- The definition of a directive is answered as such. -/
theorem answers_directiveDefinition (h : P .directive) : directiveDefinition.Answers P :=
  answers_bind fun _ => answers_bind fun _ => answers_bind fun _ => answers_bind fun _ =>
    answers_bind fun _ => answers_bind fun _ => answers_bind fun _ => answers_pure h

end Answers

/-- Where no type is answered, there is no name to keep. -/
theorem yields_of_typeless {p : Reader Definition} (h : p.Answers (·.isType = false))
    (hp : p.Advances) : p.Yields [] Definition.names Definition.IsTyped := by
  intro ts d rest hok
  have hd := h hok
  obtain ⟨used, rfl⟩ := hp hok
  rw [Definition.names_eq_nil hd]
  exact ⟨Definition.isTyped_of_not_isType hd, used, rfl, List.nil_sublist _⟩

/-- What is read behind a keyword yields the names of the type that it declares, if it declares one.
-/
theorem yields_of_behind {word : String} {p : Reader Definition} {q : Sweep (List Directive)}
    (h : Behind word p q) : p.Yields [] Definition.names Definition.IsTyped := by
  have hp : p.Advances := advances_of_introduces h.introduces
  -- only a type has names
  cases h with
  | schema => exact yields_of_typeless (answers_schemaDefinition fun _ => rfl) hp
  | directive => exact yields_of_typeless (answers_directiveDefinition rfl) hp
  | @type _ kind => exact yields_typeDefinition kind

/-- What is read behind the keyword of an extension yields the names of the type that it extends, if
it extends one. -/
theorem yields_of_extends {word : String} {p : Reader Definition} {q : Sweep (List Directive)}
    (h : Extends word p q) : p.Yields [] Definition.names Definition.IsTyped := by
  have hp : p.Advances := advances_of_introduces h.introduces
  cases h with
  | schema => exact yields_of_typeless (answers_schemaExtension fun _ => rfl) hp
  | @type _ kind => exact yields_typeExtension kind

/-- Every definition yields the names of the type that it declares, if it declares one. -/
theorem yields_definition : definition.Yields [] Definition.names Definition.IsTyped := by
  intro ts d rest hok
  obtain ⟨p, q, hchosen⟩ := exists_chosen_of_ok hok
  have hp : p.Advances := advances_of_introduces hchosen.introduces
  rw [hchosen.reader_eq] at hok
  -- operations and fragments have no names, a keyword leads to the lemmas above
  cases hchosen with
  | query => exact yields_of_typeless (answers_executable (fun _ => rfl) _) hp hok
  | fragment => exact yields_of_typeless (answers_executable (fun _ => rfl) _) hp hok
  | operation => exact yields_of_typeless (answers_executable (fun _ => rfl) _) hp hok
  | keyword _ h => exact yields_of_behind h hok
  | @described _ _ _ p q _ _ h =>
    have hassoc : description *> p = description >>= fun _ => p := seqRight_eq_bind _ _
    rw [hassoc] at hok
    exact advances_description.yields_bind (fun _ => yields_of_behind h) hok
  | extension _ _ h => exact yields_of_extends h hok

end Grammar

/-! ## Documents -/

/-- The names of definitions that are read one after the other are found in the same order. -/
theorem Salvage.Reads.yields {ts : List Token} {ds : List Definition} (h : Reads ts ds) :
    (ds.flatMap Definition.names).Sublist (ts.filterMap Token.name?) ∧ ∀ d ∈ ds, d.IsTyped := by
  -- definition by definition, each behind the tokens of those before it
  induction h with
  | done => exact ⟨.slnil, by simp⟩
  | @next ts rest d ds hdefinition hrest ih =>
    obtain ⟨hd, used, rfl, hnames⟩ := Grammar.yields_definition hdefinition
    rw [List.filterMap_append, List.flatMap_cons]
    exact ⟨hnames.append ih.1, List.forall_mem_cons.2 ⟨hd, ih.2⟩⟩

namespace Document

/-- The names of the types and fields of a document, in text order. -/
def names (document : Document) : List Name :=
  document.definitions.flatMap Definition.names

variable {text : String}

/-- The names of the types and fields of a sound text are names among its tokens. -/
theorem names_sublist (h : (ofText text).isSound = true) :
    (ofText text).names.Sublist ((Token.ofText text).filterMap Token.name?) :=
  (reads_ofText h).yields.1

/-- The names of a sound text come in the order of the text. -/
theorem pairwise_names (h : (ofText text).isSound = true) :
    (ofText text).names.Pairwise (·.start < ·.start) :=
  (Token.pairwise_names_ofText text).sublist (names_sublist h)

/-- The names of a sound text stand in it. -/
theorem standsIn_of_mem_names (h : (ofText text).isSound = true) {name : Name}
    (hname : name ∈ (ofText text).names) : name.StandsIn text.toList := by
  obtain ⟨t, ht, hname⟩ := List.mem_filterMap.1 ((names_sublist h).subset hname)
  exact Token.standsIn_ofText ht hname

/-- The fields of a sound text have complete types. -/
theorem isTyped_of_mem_definitions (h : (ofText text).isSound = true) {d : Definition}
    (hd : d ∈ (ofText text).definitions) : d.IsTyped :=
  (reads_ofText h).yields.2 d hd

end Document

end SchemaAtlas
