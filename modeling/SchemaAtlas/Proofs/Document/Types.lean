import SchemaAtlas.Project.Projection
import SchemaAtlas.Proofs.Document.Fields
import SchemaAtlas.Proofs.Salvage.Queries

/-!
# Types of fields and arguments

In a text without syntax errors the type of every field, and of every argument that a field takes,
is the type expression that is written behind its name, and there is only one. So what an index
shows of it is what is written there.

* `Token.TypedAs`           the expression behind a name
* `Reader.Finds`            a reader finds the parts of its answer among the tokens
* `Document.types_exact`    the types of a whole text
-/

namespace SchemaAtlas

open Salvage

/-! ## Where a type is written -/

/-- What is behind brackets is where the brackets end, so there is one place only. -/
theorem Inside.eq_of_inside {next next' us : List Token} {σ : List Char} (h : Inside next σ us)
    (h' : Inside next' σ us) : next = next' := by
  -- the same token is in hand on both ways, and it says which bracket opens or closes
  induction h with
  | out =>
    cases h'
    rfl
  | @plain t c σ us ht h ih =>
    cases h' with
    | plain _ h' => exact ih h'
    | colon hcolon _ _ _ =>
      simp [Token.isPlain, hcolon] at ht
    | opening ht' ho _ => simp [Token.isPlain_of_kind ht' ho] at ht
    | closing ht' hc _ => simp [Token.isPlain, ht', hc] at ht
  | colon ht _ _ _ ih => exact ih (h'.of_colon ht).2.2
  | opening ht ho _ ih => exact ih (h'.of_opening ht ho)
  | closing ht hc _ ih => exact ih (h'.of_closer hc).2

/-- Whether tokens are given ones, or parentheses and these behind them. -/
inductive BehindArguments (next : List Token) : List Token → Prop
  | bare : BehindArguments next next
  | parentheses {t : Token} {us : List Token} (ht : t.kind = .mark '(')
      (h : Inside next [')'] us) : BehindArguments next (t :: us)

/-- Whether a type expression is written behind a name among tokens: behind the arguments, if there
are any in parentheses, and a colon. -/
def Token.TypedAs (ts : List Token) (name : Name) (t : TypeExpr) : Prop :=
  ∃ front n mid colon us, ts = front ++ n :: mid ∧ n.name? = some name ∧
    BehindArguments (colon :: us) mid ∧ colon.kind = .mark ':' ∧ t.Begins us

/-- What is written behind a name stays there when tokens are put in front. -/
theorem Token.TypedAs.append {ts : List Token} {name : Name} {t : TypeExpr}
    (h : TypedAs ts name t) (front : List Token) : TypedAs (front ++ ts) name t := by
  obtain ⟨front', n, mid, colon, us, rfl, hn, hmid, hcolon, hus⟩ := h
  exact ⟨front ++ front', n, mid, colon, us, (List.append_assoc ..).symm, hn, hmid, hcolon, hus⟩

/-- Tokens that start further and further on are told apart by where they start. -/
theorem Token.eq_of_start_eq {front front' mid mid' : List Token} {n n' : Token}
    (hpairwise : (front ++ n :: mid).Pairwise (·.start < ·.start))
    (h : front ++ n :: mid = front' ++ n' :: mid') (hstart : n.start = n'.start) : mid = mid' := by
  -- if one front ended earlier, its token would start before the other one
  induction front generalizing front' with
  | nil =>
    cases front' with
    | nil => exact (List.cons.inj h).2
    | cons t front' =>
      -- the other token would be one of those behind
      obtain ⟨-, rfl⟩ := List.cons.inj h
      have hlt := (List.pairwise_cons.1 hpairwise).1 n' (by simp)
      omega
  | cons t front ih =>
    cases front' with
    | nil =>
      obtain ⟨rfl, -⟩ := List.cons.inj h
      have hlt := (List.pairwise_cons.1 hpairwise).1 n (by simp)
      omega
    | cons t' front' => exact ih (List.pairwise_cons.1 hpairwise).2 (List.cons.inj h).2

/-- Behind a name there is one type expression at most. -/
theorem Token.TypedAs.eq {text : String} {name : Name} {t t' : TypeExpr}
    (h : TypedAs (ofText text) name t) (h' : TypedAs (ofText text) name t') : t = t' := by
  obtain ⟨front, n, mid, colon, us, hts, hn, hmid, hcolon, hus⟩ := h
  obtain ⟨front', n', mid', colon', us', hts', hn', hmid', hcolon', hus'⟩ := h'
  have hstart : n.start = n'.start := by rw [← start_of_name? hn, ← start_of_name? hn']
  -- a name says where it starts, so both expressions are behind the same token
  obtain rfl := eq_of_start_eq (hts ▸ pairwise_ofText text) (hts.symm.trans hts') hstart
  have hne {t : Token} (ht : t.kind = .mark '(') : t.kind ≠ .mark ':' := by simp [ht]
  -- both expressions are behind the same parentheses, or there are none
  have hcons : colon :: us = colon' :: us' := by
    cases hmid with
    | bare =>
      cases hmid' with
      | bare => rfl
      | parentheses ht _ => exact absurd hcolon (hne ht)
    | parentheses ht hinside =>
      cases hmid' with
      | bare => exact absurd hcolon' (hne ht)
      | parentheses _ hinside' => exact hinside.eq_of_inside hinside'
  obtain ⟨-, rfl⟩ := List.cons.inj hcons
  exact TypeExpr.eq_of_begins hus hus'

namespace Reader

variable {α β γ : Type} {q : Reader β} {p : Reader α} {items : α → List β} {items' : γ → List β}

/-! ## Parts of an answer -/

/-- Whether a reader answers `b` somewhere among tokens. -/
def ReadsIn (q : Reader β) (ts : List Token) (b : β) : Prop :=
  ∃ front us rest, ts = front ++ us ∧ q us = .ok (b, rest)

/-- What is answered among tokens is answered among more of them. -/
theorem ReadsIn.append {ts : List Token} {b : β} (h : q.ReadsIn ts b) (front : List Token) :
    q.ReadsIn (front ++ ts) b := by
  obtain ⟨front', us, rest, rfl, hok⟩ := h
  exact ⟨front ++ front', us, rest, (List.append_assoc ..).symm, hok⟩

/-- Whether the items of what a reader answers are answers of `q` among the same tokens. -/
def Finds (q : Reader β) (items : α → List β) (p : Reader α) : Prop :=
  ∀ ⦃ts a rest⦄, p ts = .ok (a, rest) → ∀ b ∈ items a, q.ReadsIn ts b

/-- A reader finds its own answer. -/
theorem finds_self (q : Reader β) : q.Finds (fun b => [b]) q := by
  intro ts b rest h b' hb'
  obtain rfl := List.mem_singleton.1 hb'
  exact ⟨[], ts, rest, rfl, h⟩

/-- Whatever was read before, the items are found behind it. -/
theorem Advances.finds_bind (hp : p.Advances) {f : α → Reader γ}
    (hf : ∀ a, q.Finds items' (f a)) : q.Finds items' (p >>= f) := by
  intro ts c rest h b hb
  obtain ⟨a, mid, hok, hrest⟩ := bind_eq_ok.1 h
  obtain ⟨used, rfl⟩ := hp hok
  exact (hf a hrest b hb).append used

/-- What is read behind the items leaves them as they are. -/
theorem Finds.bind (hp : q.Finds items p) {f : α → Reader γ}
    (hf : ∀ a, (f a).Answers fun c => ∀ b ∈ items' c, b ∈ items a) :
    q.Finds items' (p >>= f) := by
  intro ts c rest h b hb
  obtain ⟨a, mid, hok, hrest⟩ := bind_eq_ok.1 h
  exact hp hok b (hf a hrest b hb)

/-- A part that may be left out has no items then. -/
theorem Finds.maybe (hp : q.Finds items p) (starts : Token → Bool) :
    q.Finds (fun found => found.toList.flatMap items) (maybe starts p) := by
  intro ts found rest h b hb
  obtain ⟨rfl, -⟩ | ⟨a, rfl, hok⟩ := maybe_eq_ok h
  · cases hb
  · exact hp hok b (by simpa using hb)

/-- A loop finds the items of each round, by induction on the tokens that bound its rounds. -/
theorem Finds.many (hp : q.Finds items p) (hadvances : p.Advances) (starts : Token → Bool) :
    q.Finds (List.flatMap items) (many starts p) := by
  have hfrom (supply : List Token) : q.Finds (List.flatMap items) (manyFrom starts p supply) := by
    -- one round for each token of the supply
    induction supply with
    | nil =>
      intro ts as rest h b hb
      obtain ⟨rfl, -⟩ := pure_eq_ok.1 h
      cases hb
    | cons s supply ih =>
      intro ts as rest h b hb
      obtain ⟨found, mid, hmaybe, h⟩ := bind_eq_ok.1 h
      obtain ⟨rfl, rfl⟩ | ⟨a, rfl, hok⟩ := maybe_eq_ok hmaybe
      · obtain ⟨rfl, -⟩ := pure_eq_ok.1 h
        cases hb
      · obtain ⟨more, mid', hmore, h⟩ := bind_eq_ok.1 h
        obtain ⟨rfl, -⟩ := pure_eq_ok.1 h
        -- an item is one of this round or of those behind it
        rw [List.flatMap_cons, List.mem_append] at hb
        rcases hb with hb | hb
        · exact hp hok b hb
        · obtain ⟨used, rfl⟩ := hadvances hok
          exact (ih hmore b hb).append used
  intro ts as rest h
  exact hfrom ts h

/-- The first round finds its items too, and the others do behind it. -/
theorem Finds.many1 (hp : q.Finds items p) (hadvances : p.Advances) (starts : Token → Bool) :
    q.Finds (List.flatMap items) (many1 starts p) := by
  intro ts as rest h b hb
  obtain ⟨a, mid, hok, h⟩ := bind_eq_ok.1 h
  obtain ⟨more, mid', hmore, h⟩ := bind_eq_ok.1 h
  obtain ⟨rfl, -⟩ := pure_eq_ok.1 h
  rw [List.flatMap_cons, List.mem_append] at hb
  rcases hb with hb | hb
  · exact hp hok b hb
  · obtain ⟨used, rfl⟩ := hadvances hok
    exact (hp.many hadvances starts hmore b hb).append used

end Reader

/-- A reader that keeps names takes tokens from the front. -/
theorem Reader.Yields.advances {α : Type} {front : List Name} {names : α → List Name}
    {P : α → Prop} {p : Reader α} (h : p.Yields front names P) : p.Advances := by
  intro ts a rest hok
  obtain ⟨-, used, hused, -⟩ := h hok
  exact ⟨used, hused⟩

/-- The fields of the type that a definition declares. -/
def Definition.fields : Definition → List Field
  | .type declaration => declaration.fields
  | _ => []

namespace Grammar

open Reader

/-! ## Arguments in parentheses -/

/-- A description has no brackets. -/
theorem wraps_description {P : Char → Prop} : Wraps P description := by
  refine Wraps.bind (Wraps.maybe (Wraps.take fun t ht => ?_)) fun _ => .pure _
  have hstring : t.isString = true := by
    by_contra hnot
    simp [hnot] at ht
  obtain ⟨text, hkind⟩ := exists_string hstring
  simp [Token.isPlain, hkind]

/-- The mark behind a type is no bracket. -/
theorem wraps_nonNullMark {P : Char → Prop} (base : TypeRef) : Wraps P (nonNullMark base) := by
  refine (Wraps.mark (by decide)).maybe.bind fun found => ?_
  cases found with
  | none => exact .pure _
  | some t => exact .pure _

/-- The brackets of a type match, however many lists it nests. -/
theorem wraps_typeRef (levels : Nat) : Wraps AnyBracket (typeRef levels) := by
  have htypeOf {nested : Reader TypeRef} (hnested : Wraps AnyBracket nested) :
      Wraps AnyBracket (typeOf nested) := by
    have hlist : Wraps AnyBracket (listType nested) :=
      .block (d := ']') hnested trivial rfl fun item _ => TypeRef.list item
    -- a list in brackets or a name, and then the mark
    rw [typeOf_eq]
    refine hlist.maybe.bind fun found => ?_
    cases found with
    | none => exact Wraps.name.bind fun n => wraps_nonNullMark _
    | some list => exact wraps_nonNullMark _
  -- list by list
  induction levels with
  | zero => exact htypeOf .blame
  | succ levels ih => exact htypeOf ih

/-- Behind a colon there is a type, which begins with no closing bracket. -/
theorem wraps_typing : Wraps MayNameValues typing := by
  refine .colon (wraps_typeRef depthLimit).named fun ts r h => ?_
  have hstarts := begins_typeRef depthLimit ts r h
  cases ts with
  | nil => cases hstarts
  | cons t ts =>
    simp only [List.head?_cons, Option.any_some, startsType, Bool.or_eq_true] at hstarts ⊢
    rw [Bool.not_eq_true']
    -- neither a name nor an opening bracket closes anything
    rcases hstarts with hname | hmark
    · exact Token.isCloser_of_isName hname
    · exact Token.isCloser_of_isMark hmark (by decide)

/-- The brackets of an argument match, those of its default value and its directives as well. -/
theorem wraps_inputValue : Wraps MayNameValues inputValue := by
  have hvalue : Wraps MayNameValues defaultValue := by
    refine Wraps.bind (Wraps.maybe ?_) fun _ => .pure _
    exact (Wraps.mark (by decide)).bind fun _ =>
      (wraps_value true depthLimit).named.bind fun _ => .pure _
  refine wraps_description.bind fun _ => Wraps.name.bind fun name => ?_
  refine wraps_typing.bind fun type => hvalue.bind fun _ => ?_
  exact (wraps_directives true depthLimit).named.bind fun _ => .pure _

/-- What is left of a field behind its arguments is behind parentheses, if there are any. -/
theorem behindArguments_of_maybe {ts rest : List Token} {found : Option (List InputValue)}
    (h : maybe (·.isMark '(') (inputValues '(' ')') ts = .ok (found, rest)) :
    BehindArguments rest ts := by
  obtain ⟨-, rfl⟩ | ⟨values, -, hvalues⟩ := maybe_eq_ok h
  · exact .bare
  · obtain ⟨t, ts', rfl, ht, hinside⟩ :=
      Wraps.inside_of_block (d := ')') wraps_inputValue.many1 (by show ')' ≠ ']'; decide) rfl
        hvalues .out
    exact .parentheses ht hinside

/-! ## Types of fields and arguments -/

variable {ts rest : List Token}

/-- The type that is read behind a colon is a type expression there. -/
theorem exists_typeExpr_of_typing {type : TypeRef} (h : typing ts = .ok (type, rest)) :
    ∃ colon us t, ts = colon :: us ∧ colon.kind = .mark ':' ∧ TypeExpr.Begins t us ∧
      type = t.ref := by
  obtain ⟨colon, us, hcolon, htype⟩ := bind_eq_ok.1 h
  obtain ⟨rfl, hkind⟩ := mark_eq_ok hcolon
  obtain ⟨t, hbegins, href⟩ := exists_typeExpr htype
  exact ⟨colon, us, t, rfl, hkind, hbegins, href⟩

/-- The type of an argument is written behind its name. -/
theorem exists_typedAs_of_inputValue {value : InputValue}
    (h : inputValue ts = .ok (value, rest)) :
    ∃ t, Token.TypedAs ts value.name t ∧ value.type = t.ref := by
  obtain ⟨_, _, hdescription, hbehind⟩ := bind_eq_ok.1 h
  obtain ⟨name, mid, hname, hbehind⟩ := bind_eq_ok.1 hbehind
  obtain ⟨type, _, htyping, hbehind⟩ := bind_eq_ok.1 hbehind
  obtain ⟨_, _, -, hbehind⟩ := bind_eq_ok.1 hbehind
  obtain ⟨_, _, -, hbehind⟩ := bind_eq_ok.1 hbehind
  obtain ⟨rfl, -⟩ := pure_eq_ok.1 hbehind
  -- the description comes before the name and the type directly behind it
  obtain ⟨used, rfl⟩ := advances_description hdescription
  obtain ⟨n, rfl, hn⟩ := take_eq_ok hname
  obtain ⟨colon, us, t, rfl, hcolon, hbegins, rfl⟩ := exists_typeExpr_of_typing htyping
  exact ⟨t, ⟨used, n, _, colon, us, rfl, hn, .bare, hcolon, hbegins⟩, rfl⟩

/-- The type of a field is written behind its name and its arguments. -/
theorem exists_typedAs_of_field {f : Field} (h : field ts = .ok (f, rest)) :
    ∃ t, Token.TypedAs ts f.name t ∧ f.type = t.ref := by
  obtain ⟨_, _, hdescription, hbehind⟩ := bind_eq_ok.1 h
  obtain ⟨name, mid, hname, hbehind⟩ := bind_eq_ok.1 hbehind
  obtain ⟨arguments, _, harguments, hbehind⟩ := bind_eq_ok.1 hbehind
  obtain ⟨type, _, htyping, hbehind⟩ := bind_eq_ok.1 hbehind
  obtain ⟨_, _, -, hbehind⟩ := bind_eq_ok.1 hbehind
  obtain ⟨rfl, -⟩ := pure_eq_ok.1 hbehind
  obtain ⟨used, rfl⟩ := advances_description hdescription
  obtain ⟨n, rfl, hn⟩ := take_eq_ok hname
  obtain ⟨colon, us, t, rfl, hcolon, hbegins, rfl⟩ := exists_typeExpr_of_typing htyping
  -- the arguments are passed over, since the type is behind their parentheses
  have hmid := behindArguments_of_maybe harguments
  exact ⟨t, ⟨used, n, _, colon, us, rfl, hn, hmid, hcolon, hbegins⟩, rfl⟩

/-! ## Fields and arguments among the tokens -/

/-- An argument is taken from the front. -/
theorem advances_inputValue : inputValue.Advances :=
  advances_of_follows passes_inputValue closed_nil

/-- A field is taken from the front. -/
theorem advances_field : field.Advances :=
  advances_of_follows passes_field closed_nil

/-- The arguments of a field are read among its tokens. -/
theorem finds_arguments : inputValue.Finds Field.arguments field := by
  have hvalues : inputValue.Finds id (inputValues '(' ')') := by
    refine (advances_take _).finds_bind fun _ => ?_
    refine ((finds_self _).many1 advances_inputValue _).bind fun values => ?_
    exact answers_bind fun _ => answers_pure (by simp)
  -- what is read behind the arguments leaves them as they are
  refine advances_description.finds_bind fun _ => (advances_take _).finds_bind fun name => ?_
  refine (hvalues.maybe _).bind fun arguments => answers_bind fun _ => answers_bind fun _ => ?_
  exact answers_pure (by cases arguments <;> simp)

/-- Fields between braces are read there. -/
theorem finds_fields : field.Finds id fields := by
  refine (advances_take _).finds_bind fun _ => ?_
  refine ((finds_self _).many1 advances_field _).bind fun fs => ?_
  exact answers_bind fun _ => answers_pure (by simp)

/-- The fields that the body of a type keeps are read among its tokens. -/
theorem finds_typeBody (kind : TypeKind) :
    field.Finds (fun body => body.getD []) (typeBody kind) := by
  have hfields : field.Finds (fun body => body.getD []) (maybe (·.isMark '\x7b') fields) := by
    intro ts body rest h f hf
    cases body with
    | none => cases hf
    | some fs => exact finds_fields.maybe _ h f (by simpa using hf)
  -- only objects and interfaces keep their fields
  have hnone {α : Type} (p : Reader α) (starts : Token → Bool) : field.Finds
      (fun body => body.getD []) (do return (← maybe starts p).map fun _ => []) := by
    intro ts body rest h f hf
    obtain ⟨found, _, -, h⟩ := bind_eq_ok.1 h
    obtain ⟨rfl, -⟩ := pure_eq_ok.1 h
    cases found <;> cases hf
  cases kind with
  | scalar =>
    intro ts body rest h f hf
    obtain ⟨rfl, -⟩ := pure_eq_ok.1 h
    cases hf
  | object => exact hfields
  | interface => exact hfields
  | union => exact hnone _ _
  | enum => exact hnone _ _
  | input => exact hnone _ _

/-- The fields of a type are read behind its head. -/
theorem finds_typeDefinition (kind : TypeKind) :
    field.Finds Definition.fields (typeDefinition kind) := by
  refine (yields_typeHead kind false).advances.finds_bind fun head => ?_
  exact (finds_typeBody kind).bind fun body => answers_pure fun f hf => hf

/-- The fields that an extension adds are read behind its head. -/
theorem finds_typeExtension (kind : TypeKind) :
    field.Finds Definition.fields (typeExtension kind) := by
  refine (advances_take _).finds_bind fun _ => ?_
  refine (yields_typeHead kind true).advances.finds_bind fun head => ?_
  refine (finds_typeBody kind).bind fun body => ?_
  -- an extension must have a part
  split
  · exact answers_pure fun f hf => hf
  · exact fun ts d rest h => absurd h (blame_ne_ok ts _)

/-- Where no type is answered, there is no field to find. -/
theorem finds_of_typeless {p : Reader Definition} (h : p.Answers (·.isType = false)) :
    field.Finds Definition.fields p := by
  intro ts d rest hok f hf
  have hd := h hok
  cases d with
  | type declaration => cases hd
  | _ => cases hf

/-- What is read behind a keyword finds the fields of the type that it declares, if it declares one.
-/
theorem finds_of_behind {word : String} {p : Reader Definition} {q : Sweep (List Directive)}
    (h : Behind word p q) : field.Finds Definition.fields p := by
  cases h with
  | schema => exact finds_of_typeless (answers_schemaDefinition fun _ => rfl)
  | directive => exact finds_of_typeless (answers_directiveDefinition rfl)
  | @type _ kind => exact finds_typeDefinition kind

/-- What is read behind the keyword of an extension finds the fields that it adds, if it adds any.
-/
theorem finds_of_extends {word : String} {p : Reader Definition} {q : Sweep (List Directive)}
    (h : Extends word p q) : field.Finds Definition.fields p := by
  cases h with
  | schema => exact finds_of_typeless (answers_schemaExtension fun _ => rfl)
  | @type _ kind => exact finds_typeExtension kind

/-- The fields of every definition are read among its tokens. -/
theorem finds_definition : field.Finds Definition.fields definition := by
  intro ts d rest hok
  obtain ⟨p, q, hchosen⟩ := exists_chosen_of_ok hok
  rw [hchosen.reader_eq] at hok
  cases hchosen with
  | query => exact finds_of_typeless (answers_executable (fun _ => rfl) _) hok
  | fragment => exact finds_of_typeless (answers_executable (fun _ => rfl) _) hok
  | operation => exact finds_of_typeless (answers_executable (fun _ => rfl) _) hok
  | keyword _ h => exact finds_of_behind h hok
  | @described _ _ _ p q _ _ h =>
    -- the description is passed over
    have hassoc : description *> p = description >>= fun _ => p := seqRight_eq_bind _ _
    rw [hassoc] at hok
    exact advances_description.finds_bind (fun _ => finds_of_behind h) hok
  | extension _ _ h => exact finds_of_extends h hok

end Grammar

/-! ## A whole text -/

/-- The fields of definitions that are read one after the other are read among all tokens. -/
theorem Salvage.Reads.finds {ts : List Token} {ds : List Definition} (h : Reads ts ds) :
    ∀ d ∈ ds, ∀ f ∈ d.fields, Grammar.field.ReadsIn ts f := by
  -- definition by definition, each behind the tokens of those before it
  induction h with
  | done => simp
  | @next ts rest d ds hdefinition hrest ih =>
    refine List.forall_mem_cons.2 ⟨Grammar.finds_definition hdefinition, fun d' hd f hf => ?_⟩
    obtain ⟨used, rfl⟩ := Grammar.yields_definition.advances hdefinition
    exact (ih d' hd f hf).append used

/-- Whether a type is the one expression that is written behind a name, and its readings are what
the expression says. -/
def TypeRef.IsWritten (type : TypeRef) (ts : List Token) (name : Name) : Prop :=
  ∃ t : TypeExpr, (∀ t', Token.TypedAs ts name t' ↔ t' = t) ∧
    t.Renders type.signature? type.base? type.isList

/-- A type that is written has a signature. -/
theorem TypeRef.IsWritten.exists_signature {type : TypeRef} {ts : List Token} {name : Name}
    (h : type.IsWritten ts name) : ∃ signature, type.signature? = some signature := by
  obtain ⟨t, -, hrenders⟩ := h
  exact ⟨t.text, hrenders.signature⟩

/-- The expression behind a name is the only one there, so the type that it makes is written. -/
theorem TypeRef.isWritten_of_typedAs {text : String} {name : Name} {t : TypeExpr}
    (h : Token.TypedAs (Token.ofText text) name t) :
    t.ref.IsWritten (Token.ofText text) name := by
  refine ⟨t, fun t' => ⟨fun h' => h'.eq h, ?_⟩, t.renders_ref⟩
  rintro rfl
  exact h

/-- An index keeps every argument whose type has a signature, in the same order. -/
theorem Projection.forall₂_typedArguments {arguments : List InputValue}
    (h : ∀ argument ∈ arguments, ∃ signature, argument.type.signature? = some signature) :
    List.Forall₂ (fun (argument : InputValue) (typed : TypedArgument) =>
      typed.name = argument.name.text ∧ argument.type.signature? = some typed.type)
        arguments (typedArguments arguments) := by
  induction arguments with
  | nil => exact .nil
  | cons argument arguments ih =>
    obtain ⟨⟨signature, hsignature⟩, hmore⟩ := List.forall_mem_cons.1 h
    -- an argument with a signature is not left out
    have htyped : typedArguments (argument :: arguments) =
        { name := argument.name.text, type := signature } :: typedArguments arguments :=
      List.filterMap_cons_some (by rw [hsignature]; rfl)
    rw [htyped]
    exact .cons ⟨rfl, hsignature⟩ (ih hmore)

namespace Document

variable {text : String}

/-- The types of the fields of a sound text, and of their arguments, are what is written behind
their names. -/
theorem isWritten_of_mem_fields (h : (ofText text).isSound = true) {d : Definition}
    (hd : d ∈ (ofText text).definitions) {field : Field} (hfield : field ∈ d.fields) :
    field.type.IsWritten (Token.ofText text) field.name ∧
      ∀ argument ∈ field.arguments,
        argument.type.IsWritten (Token.ofText text) argument.name := by
  obtain ⟨front, us, rest, hts, hread⟩ := (reads_ofText h).finds d hd field hfield
  constructor
  · -- what is behind a name in a part of the tokens is behind it in all of them
    obtain ⟨t, htyped, href⟩ := Grammar.exists_typedAs_of_field hread
    have htyped' := htyped.append front
    rw [← hts] at htyped'
    exact href ▸ TypeRef.isWritten_of_typedAs htyped'
  · intro argument hargument
    obtain ⟨front', us', rest', rfl, hread'⟩ := Grammar.finds_arguments hread argument hargument
    obtain ⟨t, htyped, href⟩ := Grammar.exists_typedAs_of_inputValue hread'
    have htyped' := (htyped.append front').append front
    rw [← hts] at htyped'
    exact href ▸ TypeRef.isWritten_of_typedAs htyped'

/-- Type signatures survive. In a text without syntax errors, the readings of the type of every
field, and of every argument that a field takes, are what the one type expression says that is
written behind its name, and an index keeps all arguments with these signatures. Every text that
writes an object type is such a text, with any ignored characters between the tokens, if no type is
nested too deeply. The readings of a syntax tree for an expression are the same, and on any tree,
complete or not, there is a signature if and only if there is a name. -/
theorem types_exact (text : String) (h : (ofText text).isSound = true) :
    (∀ d ∈ (ofText text).definitions, ∀ field ∈ d.fields,
      field.type.IsWritten (Token.ofText text) field.name ∧
      (∀ argument ∈ field.arguments,
        argument.type.IsWritten (Token.ofText text) argument.name) ∧
      List.Forall₂ (fun (argument : InputValue) (typed : TypedArgument) =>
        typed.name = argument.name.text ∧ argument.type.signature? = some typed.type)
          field.arguments (Projection.typedArguments field.arguments)) ∧
    (∀ (name : String) (fs : List FieldExpr) (written : String), fs ≠ [] →
      (∀ f ∈ fs, ∀ t ∈ f.types, t.lists ≤ Grammar.depthLimit) →
      Token.Written (FieldExpr.objectKinds name fs) written.toList →
        (ofText written).isSound = true ∧
        ∃ declaration, (ofText written).definitions = [.type declaration] ∧
          List.Forall₂ FieldExpr.Renders fs declaration.fields) ∧
    (∀ t : TypeExpr, t.IsWordy → Token.Written t.kinds t.text.toList) ∧
    (∀ t : TypeExpr, t.Renders t.tree.signature? t.tree.base? t.tree.isList) ∧
    (∀ type : TypeRef, type.signature? = none ↔ type.base? = none) ∧
    ∀ tree : TypeTree, tree.signature? = none ↔ tree.base? = none := by
  refine ⟨fun d hd field hfield => ?_, fun name fs written hne hlevels hwritten => ?_,
    fun t ht => t.written_text ht, TypeExpr.renders_tree, TypeRef.signature?_eq_none_iff,
    TypeTree.signature?_eq_none_iff⟩
  -- what is written is rendered, so every argument has a signature
  · obtain ⟨htype, harguments⟩ := isWritten_of_mem_fields h hd hfield
    exact ⟨htype, harguments, Projection.forall₂_typedArguments fun argument hargument =>
      (harguments argument hargument).exists_signature⟩
  · obtain ⟨declaration, htext, hfields⟩ := renders_objectType hne hlevels hwritten
    exact ⟨by rw [htext]; rfl, declaration, by rw [htext], hfields⟩

/-- A type whose fields and arguments have types that are wrapped and broken across lines. -/
def wrapped : String :=
  "type Q \x7b\n  f(a: [Int!], b: ID): [ [ID!] # [\n  ,] ! g: Int\n\x7d"

/-- Types wrapped twice, with arguments, are rendered as they are written. -/
theorem types_exact_wrapped :
    (ofText wrapped).isSound = true ∧
      ((ofText wrapped).definitions.flatMap Definition.fields).map (fun field =>
        (field.type.signature?, field.type.base?, field.type.isList,
          field.arguments.map fun a => a.type.signature?)) =
        [(some "[[ID!]]!", some "ID", true, [some "[Int!]", some "ID"]),
          (some "Int", some "Int", false, [])] ∧
      ∀ d ∈ (ofText wrapped).definitions, ∀ field ∈ d.fields,
        field.type.IsWritten (Token.ofText wrapped) field.name ∧
          ∀ argument ∈ field.arguments,
            argument.type.IsWritten (Token.ofText wrapped) argument.name := by
  have hsound : (ofText wrapped).isSound = true := by decide +kernel
  refine ⟨hsound, by decide +kernel, fun d hd field hfield => ?_⟩
  obtain ⟨htype, harguments, -⟩ := (types_exact wrapped hsound).1 d hd field hfield
  exact ⟨htype, harguments⟩

end Document

end SchemaAtlas
