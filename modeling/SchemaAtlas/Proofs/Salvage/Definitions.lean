import SchemaAtlas.Proofs.Salvage.Astray

/-!
# Definitions in step

The sweep keeps the directives that the reader of documents finds on a definition, and ends where
the reader ends. Only where a definition without its block is the last one, and a brace follows it,
the sweep takes that brace for the beginning of the block.

* `Introduces`                         a part in step, up to a brace behind it
* `Salvage.introduces_typeDefinition`  types, and in the same way schemas and their extensions
* `Salvage.introduces_directiveDefinition`   directives
-/

namespace SchemaAtlas

open Token (Alike KindTest)

namespace Salvage

open Reader Follows

/-! ## Up to a brace -/

/-- A sweep that has taken up a block that starts `more`, and goes on behind the first brace. -/
def Swallows (more us : List Token) : Prop :=
  ∃ t more', more = t :: more' ∧ t.isMark '\x7b' = true ∧
    ∃ block : Sweep Unit, Closes '\x7d' block ∧ us = (block more').2

/-- The sweep follows the reader, and if all tokens are taken, it may swallow a brace behind
them. -/
def Introduces {α β : Type} (n : Nat) (R : α → β → Prop) (p : Reader α) (q : Sweep β) : Prop :=
  ∀ ⦃more ts us a rest⦄, Alike more ts us → p ts = .ok (a, rest) → (rest = [] → Closed more) →
    R a (q us).1 ∧ (Together n ts us rest (q us).2 ∨ rest = [] ∧ Swallows more (q us).2)

namespace Introduces

variable {α β γ δ : Type} {n m : Nat} {R : α → β → Prop} {S : γ → δ → Prop} {p : Reader α}
  {q : Sweep β}

/-- Fewer tokens may be promised. -/
theorem mono (h : Introduces n R p q) (hm : m ≤ n) : Introduces m R p q := by
  intro more ts us a rest halike hp hend
  obtain ⟨hR, htogether | hswallows⟩ := h halike hp hend
  · exact ⟨hR, .inl (htogether.mono hm)⟩
  · exact ⟨hR, .inr hswallows⟩

/-- What follows the reader swallows no brace. -/
theorem of_follows (h : Follows n Closed R p q) : Introduces n R p q := by
  intro more ts us a rest halike hp hend
  obtain ⟨hR, htogether⟩ := h halike hp hend
  exact ⟨hR, .inl htogether⟩

/-- A block in braces that may be left out. -/
theorem block {block : Sweep Unit} (hblock : Passes m Anywhere p (pass >>= fun _ => block))
    (hcloses : Closes '\x7d' block) :
    Introduces 0 (fun _ _ => True) (maybe (·.isMark '\x7b') p)
      (whenever (·.isMark '\x7b') (pass >>= fun _ => block)) := by
  intro more ts us a rest halike h hend
  refine ⟨trivial, ?_⟩
  -- no token is left: a brace behind all of them is swallowed
  cases ts with
  | nil =>
    obtain ⟨-, rfl⟩ : none = a ∧ [] = rest := by simpa [maybe_nil] using h
    rw [halike.eq_of_nil, whenever_apply]
    -- whether a brace stands behind all of them
    split
    · next hbrace =>
      cases more with
      | nil => cases hbrace
      | cons t more =>
        exact .inr ⟨rfl, t, more, rfl, by simpa using hbrace, block, hcloses, rfl⟩
    · exact .inl (.refl _ _)
  | cons t ts =>
    -- a token is left, so the block is told by it
    exact .inl (maybe_ite_cons (E := Anywhere) () hblock (Token.kindTest_isMark '\x7b') halike h
      fun _ => trivial).2

/-- A part in front that follows the reader, whatever is asked of the tokens behind it. -/
theorem bind_of {E : List Token → Prop} {f : α → Reader γ} {g : β → Sweep δ}
    (hp : Follows n E R p q) (hf : ∀ a b, R a b → Introduces m S (f a) (g b))
    (hend : ∀ a c rest more, f a [] = .ok (c, rest) → (rest = [] → Closed more) → E more) :
    Introduces (n + m) S (p >>= f) (q >>= g) := by
  intro more ts us c rest halike h hrest
  obtain ⟨a, mid, hmid, hlast⟩ := Reader.bind_eq_ok.1 h
  obtain ⟨hR, htogether⟩ := hp halike hmid fun hnil => hend a c rest more (hnil ▸ hlast) hrest
  -- only the part behind can swallow a brace
  obtain ⟨hS, htogether' | hswallows⟩ := hf a _ hR (htogether.alike halike) hlast hrest
  · exact ⟨hS, .inl (htogether.trans htogether')⟩
  · exact ⟨hS, .inr hswallows⟩

/-- A part in front whose successor makes no tokens. -/
theorem bind {f : α → Reader γ} {g : β → Sweep δ} (hp : Follows n Closed R p q)
    (hf : ∀ a b, R a b → Introduces m S (f a) (g b)) (hsteady : ∀ a, (f a).Steady) :
    Introduces (n + m) S (p >>= f) (q >>= g) :=
  bind_of hp hf fun a c rest _ h hend => hend (hsteady a c rest h)

/-- A part in front that follows the reader wherever it stands. -/
theorem bind_anywhere {f : α → Reader γ} {g : β → Sweep δ} (hp : Follows n Anywhere R p q)
    (hf : ∀ a b, R a b → Introduces m S (f a) (g b)) :
    Introduces (n + m) S (p >>= f) (q >>= g) :=
  bind_of hp hf fun _ _ _ _ _ _ => trivial

/-- A token in front, which is passed over whatever it is. -/
theorem take_bind {accept : Token → Option α} {f : α → Reader γ} {g : Sweep δ}
    (hf : ∀ a, Introduces m S (f a) g) (hneeds : ∀ a, (f a).Needs) :
    Introduces (1 + m) S (take accept >>= f) (pass >>= fun _ => g) := by
  intro more ts us c rest halike h hend
  obtain ⟨a, mid, htake, hbehind⟩ := Reader.bind_eq_ok.1 h
  obtain ⟨t, rfl, -⟩ := take_eq_ok htake
  cases halike with
  | @next _ u _ us hkind hcomma hrest =>
    obtain ⟨hS, htogether | hswallows⟩ := hf a hrest hbehind hend
    -- the part behind needs a token, so the one in front is not the last
    · exact ⟨hS, .inl (htogether.cons (fun hnil => hneeds a _ (hnil ▸ hbehind)) t u)⟩
    · exact ⟨hS, .inr hswallows⟩

/-- The reader may look at its answer in the end, if it takes no more tokens. -/
theorem check {f : α → Reader γ} {S : γ → β → Prop} (h : Introduces n R p q)
    (hf : ∀ a ts c rest, f a ts = .ok (c, rest) → ts = rest ∧ ∀ b, R a b → S c b) :
    Introduces n S (p >>= f) q := by
  intro more ts us c rest halike hok hend
  obtain ⟨a, mid, hp, hcheck⟩ := Reader.bind_eq_ok.1 hok
  obtain ⟨rfl, hS⟩ := hf a mid c rest hcheck
  obtain ⟨hR, hrest⟩ := h halike hp hend
  exact ⟨hS _ hR, hrest⟩

/-- What the reader makes of its answer can be compared as well. -/
theorem map_left {f : α → γ} {S : γ → β → Prop} (h : Introduces n R p q)
    (hS : ∀ a b, R a b → S (f a) b) : Introduces n S (p >>= fun a => pure (f a)) q := by
  refine h.check fun a ts c rest hpure => ?_
  obtain ⟨rfl, rfl⟩ := Reader.pure_eq_ok.1 hpure
  exact ⟨rfl, hS a⟩

/-- What the sweep makes of its answer can be compared as well. -/
theorem map_right {g : β → δ} {S : α → δ → Prop} (h : Introduces n R p q)
    (hS : ∀ a b, R a b → S a (g b)) : Introduces n S p (q >>= fun b => pure (g b)) := by
  intro more ts us a rest halike hok hend
  obtain ⟨hR, hrest⟩ := h halike hok hend
  exact ⟨hS _ _ hR, hrest⟩

end Introduces

/-! ## The parts of a definition -/

/-- Separated items, of which the last one may be the last token. -/
theorem passes_separated {item : Reader Name} {q : Sweep Unit} {separator : Char}
    (h : separator ≠ '\x7b') (hitem : Passes 1 Closed item q) (hneeds : item.Needs) :
    Passes 1 Closed (Grammar.separatedNames separator item) (separated separator q) := by
  have hend (more : List Token) (hmore : Closed more) :
      more.head?.any (·.isMark separator) = false := hmore.mark h
  -- a mark may stand before the first item
  have hmark : Passes 0 Closed (maybe (·.isMark separator) (mark separator))
      (passIf (·.isMark separator)) :=
    maybe_whenever (mark_pass separator) (Token.kindTest_isMark separator) hend
  -- each further item stands behind a mark
  have hround : Passes 2 Closed
      (do
        let _ ← mark separator
        item)
      (do
        pass
        q) := (mark_pass separator).bind_anywhere fun _ _ _ => hitem
  have hrounds := many_many hround (Token.kindTest_isMark separator)
    ((begins_mark separator).bind _) hend
  refine hmark.bind (m := 1) (fun _ _ _ => ?_) fun _ => (hneeds.bind _).steady
  refine hitem.bind (m := 0) (fun _ _ _ => ?_) fun _ => (steady_many _ _).bind fun _ =>
    steady_pure _
  exact (hrounds.map_left (S := fun _ _ => True) fun _ _ _ => trivial).map_right
    fun _ _ _ => trivial

/-- The interfaces that a type implements are passed over. -/
theorem passes_interfaces : Passes 2 Closed Grammar.implementedInterfaces (do
    pass
    separated '&' passName) :=
  (word_pass _).bind_anywhere fun _ _ _ => passes_separated (by decide) name_passName (needs_take _)

/-- The members of a union are passed over. -/
theorem passes_members : Passes 2 Closed Grammar.unionMembers (do
    pass
    separated '|' passName) :=
  (mark_pass '=').bind_anywhere fun _ _ _ =>
    passes_separated (by decide) name_passName (needs_take _)

/-- A value of an enum is passed over. -/
theorem passes_enumValue : Passes 1 Closed Grammar.enumValue (do
    passDescription
    passName
    passDirectives) := by
  refine passes_description.bind_inner (m := 1) (fun _ _ _ => ?_) fun _ => (needs_take _).bind _
  refine (nameExcept_passName _).bind_anywhere (m := 0) fun _ _ _ => ?_
  exact (follows_passDirectives true (Nat.le_refl _)).map_left fun _ _ _ => trivial

/-- A value of an enum begins with a description or a name. -/
theorem begins_enumValue : Begins Grammar.isDescribedName Grammar.enumValue :=
  begins_described (begins_take fun _ h => isName_of_filter h) _

/-- The values of an enum are passed over between their braces. -/
theorem passes_enumValues {E : List Token → Prop} :
    Passes 3 E Grammar.enumValues (passBlock '\x7d' do
      passDescription
      passName
      passDirectives) :=
  passes_block '\x7b' '\x7d' (fun _ => ()) passes_enumValue begins_enumValue

/-- The block of a type makes no tokens, whatever kind it is of. -/
theorem steady_typeBody (kind : TypeKind) : (Grammar.typeBody kind).Steady := by
  cases kind with
  | scalar => exact steady_pure _
  | object => exact steady_maybe _ _
  | interface => exact steady_maybe _ _
  | union => exact (steady_maybe _ _).bind fun _ => steady_pure _
  | enum => exact (steady_maybe _ _).bind fun _ => steady_pure _
  | input => exact (steady_maybe _ _).bind fun _ => steady_pure _

/-- A type up to its block, behind its keyword. -/
def typeFront (kind : TypeKind) (isExtension : Bool) : Reader (TypeDeclaration × Bool) := do
  let name ← name
  let interfaces ←
    if kind = .object ∨ kind = .interface then
      maybe (·.isWord "implements") Grammar.implementedInterfaces
    else pure none
  let directives ← Grammar.directives true Grammar.depthLimit
  return ({ kind, isExtension, name, directives, fields := [] }, interfaces.isSome)

/-- The directives of a type up to its block. -/
def frontDirectives (kind : TypeKind) : Sweep (List Directive) := do
  passName
  if kind = .object ∨ kind = .interface then
    whenever (·.isWord "implements") do
      pass
      separated '&' passName
  directives

/-- Passes over the block of a type. -/
def passTypeBody : TypeKind → Sweep Unit
  | .scalar => pure ()
  | .object | .interface => whenever (·.isMark '\x7b') (passBlock '\x7d' passField)
  | .input => whenever (·.isMark '\x7b') (passBlock '\x7d' passInputValue)
  | .enum => whenever (·.isMark '\x7b') <| passBlock '\x7d' do
      passDescription
      passName
      passDirectives
  | .union => whenever (·.isMark '=') do
      pass
      separated '|' passName

/-- The directives of a type are found before its block is passed over. -/
theorem typeDirectives_eq (kind : TypeKind) :
    typeDirectives kind = (do
      let directives ← frontDirectives kind
      passTypeBody kind
      return directives) := by
  cases kind <;> rfl

/-- The sweep finds the directives of a type up to its block. -/
theorem follows_front (kind : TypeKind) (isExtension : Bool) :
    Follows 1 Closed (fun head ds => List.Forall₂ SameDirective head.1.directives ds)
      (typeFront kind isExtension) (frontDirectives kind) := by
  -- the directives are the only part that is kept
  have hdirectives (interfaces : Option Unit) (name : Name) :
      Follows 0 Closed (fun head ds => List.Forall₂ SameDirective head.1.directives ds)
        (do
          let directives ← Grammar.directives true Grammar.depthLimit
          return (({ kind, isExtension, name, directives, fields := [] } : TypeDeclaration),
            interfaces.isSome))
        directives :=
    (follows_directives true (Nat.le_refl _)).map_left fun _ _ hds => hds
  have himplements := maybe_whenever passes_interfaces (Token.kindTest_isWord "implements")
    fun more hmore => hmore.word (by decide)
  -- what stands behind the interfaces makes no tokens
  have hsteady (interfaces : Option Unit) (name : Name) : (do
      let directives ← Grammar.directives true Grammar.depthLimit
      return (({ kind, isExtension, name, directives, fields := [] } : TypeDeclaration),
        interfaces.isSome) : Reader (TypeDeclaration × Bool)).Steady :=
    (steady_many _ _).bind fun _ => steady_pure _
  refine name_passName.bind_anywhere (m := 0) fun name _ _ => ?_
  have hplain := hdirectives none name
  have himplementing := himplements.bind (m := 0)
    (fun interfaces _ _ => hdirectives interfaces name) fun interfaces => hsteady interfaces name
  -- objects and interfaces implement others, no other kind does
  cases kind with
  | object => exact himplementing
  | interface => exact himplementing
  | _ => exact hplain

/-- The block of a type is in step, with a brace behind a missing one. -/
theorem introduces_body (kind : TypeKind) :
    Introduces 0 (fun _ _ => True) (Grammar.typeBody kind) (passTypeBody kind) := by
  -- only a union has its members behind a mark that is no brace
  cases kind with
  | scalar => exact .of_follows (.pure trivial)
  | object => exact .block passes_fields (closes_block '\x7d' stays_passField)
  | interface => exact .block passes_fields (closes_block '\x7d' stays_passField)
  | union =>
    refine .of_follows (Follows.map_left (R := fun _ _ => True) ?_ fun _ _ _ => trivial)
    exact maybe_whenever passes_members (Token.kindTest_isMark '=') fun more hmore =>
      hmore.mark (by decide)
  | enum =>
    exact (Introduces.block passes_enumValues (closes_block '\x7d' stays_passEnumValue)).map_left
      fun _ _ _ => trivial
  | input =>
    exact (Introduces.block (passes_inputValues _ _)
      (closes_block '\x7d' stays_passInputValue)).map_left fun _ _ _ => trivial

/-- A type behind its keyword, with its block. -/
def typeParts (kind : TypeKind) (isExtension : Bool) :
    Reader ((TypeDeclaration × Bool) × Option (List Field)) := do
  let front ← typeFront kind isExtension
  let body ← Grammar.typeBody kind
  return (front, body)

/-- A type needs a name behind its keyword. -/
theorem needs_typeParts (kind : TypeKind) (isExtension : Bool) :
    (typeParts kind isExtension).Needs :=
  ((needs_take _).bind _).bind _

/-- A type behind its keyword is in step, up to a brace. -/
theorem introduces_typeParts (kind : TypeKind) (isExtension : Bool) :
    Introduces 1 (fun parts ds => List.Forall₂ SameDirective parts.1.1.directives ds)
      (typeParts kind isExtension) (typeDirectives kind) := by
  rw [typeDirectives_eq]
  refine Introduces.bind (m := 0) (follows_front kind isExtension) (fun front ds hds => ?_)
    fun front => (steady_typeBody kind).bind fun _ => steady_pure _
  exact ((introduces_body kind).map_left fun _ _ _ => hds).map_right fun _ _ hds => hds

/-- Whether directives are written like those of a definition. -/
def SameDirectives (d : Definition) (ds : List Directive) : Prop :=
  List.Forall₂ SameDirective d.directives ds

/-- The definition of a type is in step, up to a brace. -/
theorem introduces_typeDefinition (kind : TypeKind) :
    Introduces 2 SameDirectives (Grammar.typeDefinition kind) (do
      pass
      typeDirectives kind) := by
  -- the parts in the order in which they are read
  have hassoc : Grammar.typeDefinition kind = (do
      let _ ← take some
      let parts ← typeParts kind false
      return .type { parts.1.1 with fields := parts.2.getD [] }) := by
    simp only [Grammar.typeDefinition, Grammar.typeHead, typeParts, typeFront, bind_assoc,
      pure_bind]
  rw [hassoc]
  refine Introduces.take_bind (m := 1) (fun _ => ?_) fun _ => (needs_typeParts _ _).bind _
  exact (introduces_typeParts kind false).map_left fun _ _ hds => hds

/-- The extension of a type is in step, up to a brace. -/
theorem introduces_typeExtension (kind : TypeKind) :
    Introduces 3 SameDirectives (Grammar.typeExtension kind) (do
      pass
      pass
      typeDirectives kind) := by
  -- the parts in the order in which they are read, with the check at the end
  have hassoc : Grammar.typeExtension kind = (do
      let _ ← word "extend"
      let _ ← take some
      let parts ← typeParts kind true
      if parts.1.2 || !parts.1.1.directives.isEmpty || parts.2.isSome then
        return .type { parts.1.1 with fields := parts.2.getD [] }
      else blame) := by
    simp only [Grammar.typeExtension, Grammar.typeHead, typeParts, typeFront, bind_assoc,
      pure_bind]
  rw [hassoc]
  refine Introduces.bind_anywhere (n := 1) (m := 2) (word_pass _) fun _ _ _ => ?_
  refine Introduces.take_bind (m := 1) (fun _ => ?_) fun _ => (needs_typeParts _ _).bind _
  refine (introduces_typeParts kind true).check fun parts ts d rest h => ?_
  split at h
  · obtain ⟨rfl, rfl⟩ := Reader.pure_eq_ok.1 h
    exact ⟨rfl, fun _ hds => hds⟩
  · cases h

/-- A root operation is passed over. -/
theorem passes_rootOperation : Passes 2 Inner Grammar.rootOperation (do
    pass
    whenever (·.isMark ':') do
      pass
      passName) := by
  refine (take_pass rejects_operationKind?).bind_anywhere (m := 1) fun _ _ _ => ?_
  refine whenever_of_begins ?_ (Token.kindTest_isMark ':') ((begins_mark ':').bind _)
  refine (mark_pass ':').bind_anywhere (m := 0) fun _ _ _ => ?_
  -- a type may be missing behind the colon, which the sweep does not mind
  exact (maybe_whenever name_pass Token.kindTest_isName fun _ h => h.elim).map_left
    fun _ _ _ => trivial

/-- The kind of an operation is told by a name. -/
theorem isName_of_operationKind? {t : Token} (h : (Grammar.operationKind? t).isSome = true) :
    Grammar.isName t = true := by
  obtain ⟨kind, hkind⟩ := Option.isSome_iff_exists.1 h
  have hword : t.isWord kind.keyword = true := by simpa using List.find?_some hkind
  exact isName_of_isWord hword

/-- A root operation begins with the name of its kind. -/
theorem begins_rootOperation : Begins Grammar.isName Grammar.rootOperation :=
  Begins.bind (begins_take fun _ ht => isName_of_operationKind? ht) _

/-- Root operations in braces. -/
theorem passes_rootOperations {γ : Type} {items : Reader (List Unit)} (make : List Unit → γ)
    (hitems : Passes 0 Inner items (many Grammar.isName do
      pass
      whenever (·.isMark ':') do
        pass
        passName)) :
    Passes 2 Anywhere
      (do
        let _ ← mark '\x7b'
        let operations ← items
        let _ ← mark '\x7d'
        return make operations)
      (do
        pass
        let _ ← many Grammar.isName do
          pass
          whenever (·.isMark ':') do
            pass
            passName
        passIf (·.isMark '\x7d')) := by
  -- the braces, and between them what the loops take
  refine (mark_pass '\x7b').bind_anywhere (m := 1) fun _ _ _ => ?_
  refine hitems.bind_inner (m := 1) (fun _ _ _ => ?_) fun _ => (needs_take _).bind _
  exact (mark_passIf '\x7d').map_left fun _ _ _ => trivial

/-- The definition of a schema is in step, up to a brace. -/
theorem introduces_schemaDefinition :
    Introduces 1 SameDirectives Grammar.schemaDefinition (do
      pass
      schemaDirectives) := by
  refine Introduces.bind_anywhere (n := 1) (m := 0) (word_pass _) fun _ _ _ => ?_
  refine Introduces.bind (n := 0) (m := 0) (follows_directives true (Nat.le_refl _))
    (fun directives ds hds => ?_) fun _ => (steady_maybe _ _).bind fun _ => steady_pure _
  -- the reader asks for one root operation at least, which the sweep does not
  have hitems := (many1_many passes_rootOperation Token.kindTest_isName begins_rootOperation
    fun _ h => h.elim).mono (Nat.zero_le _) fun _ h => h
  refine Introduces.map_right (Introduces.map_left (R := fun _ _ => True) ?_ fun _ _ _ => hds)
    fun _ _ hds => hds
  exact .block (passes_rootOperations (fun _ => ()) (hitems.imp fun _ _ _ => trivial))
    closes_rootOperations

/-- The extension of a schema is in step, up to a brace. -/
theorem introduces_schemaExtension :
    Introduces 2 SameDirectives Grammar.schemaExtension (do
      pass
      pass
      schemaDirectives) := by
  refine Introduces.bind_anywhere (n := 1) (m := 1) (word_pass _) fun _ _ _ => ?_
  refine Introduces.bind_anywhere (n := 1) (m := 0) (word_pass _) fun _ _ _ => ?_
  refine Introduces.bind (n := 0) (m := 0) (follows_directives true (Nat.le_refl _))
    (fun directives ds hds => ?_) fun _ => (steady_maybe _ _).bind fun _ => ?_
  -- the block, and the check that something is extended
  · have hitems := many_many passes_rootOperation Token.kindTest_isName begins_rootOperation
      fun _ h => h.elim
    refine Introduces.map_right (S := SameDirectives) (Introduces.check (R := fun _ _ => True)
      (S := fun d _ => SameDirectives d ds) ?_ fun operations ts d rest h => ?_) fun _ _ hds => hds
    · exact .block (passes_rootOperations id (hitems.imp fun _ _ _ => trivial))
        closes_rootOperations
    · split at h
      · cases h
      · obtain ⟨rfl, rfl⟩ := Reader.pure_eq_ok.1 h
        exact ⟨rfl, fun _ _ => hds⟩
  · split
    · exact steady_blame
    · exact steady_pure _

/-- Separated items start with the mark or with a name. -/
theorem begins_separated {item : Reader Name} (separator : Char)
    (hitem : Begins Grammar.isName item) :
    Begins (fun t => Grammar.isName t || t.isMark separator)
      (Grammar.separatedNames separator item) := by
  intro ts r h
  obtain ⟨_, mid, hmaybe, h⟩ := Reader.bind_eq_ok.1 h
  obtain ⟨_, _, hname, -⟩ := Reader.bind_eq_ok.1 h
  -- the mark in front, or the first item
  cases ts with
  | nil =>
    obtain ⟨-, rfl⟩ := Prod.mk.inj (Except.ok.inj hmaybe)
    cases hitem _ _ hname
  | cons t ts =>
    rw [maybe_cons] at hmaybe
    cases ht : t.isMark separator with
    | true => simp [ht]
    | false =>
      obtain ⟨-, rfl⟩ : none = _ ∧ t :: ts = mid := by simpa [ht] using hmaybe
      have hfirst := hitem _ _ hname
      simp only [List.head?_cons, Option.any_some] at hfirst ⊢
      simp [hfirst]

/-- Whether such items start is told by a kind. -/
theorem kindTest_separated (separator : Char) :
    KindTest fun t => Grammar.isName t || t.isMark separator := by
  intro t u h
  have hmark : t.isMark separator = u.isMark separator := Token.kindTest_isMark separator t u h
  simp only [Token.kindTest_isName t u h, hmark]

/-- A place where directives may stand is passed over. -/
theorem passes_location : Passes 1 Closed
    (take fun t => t.name?.filter (Grammar.directiveLocations.contains ·.text))
    (passIf fun t => t.name?.any (Grammar.directiveLocations.contains ·.text)) := by
  refine take_passIf (rejects_filter _) (fun t u h => ?_) fun t h => ?_
  · obtain ⟨kind, start, stop, comma⟩ := t
    obtain ⟨kind', start', stop', comma'⟩ := u
    obtain rfl : kind = kind' := h
    cases kind <;> rfl
  · obtain ⟨n, hn⟩ := Option.isSome_iff_exists.1 h
    obtain ⟨hname, hlocation⟩ := Option.filter_eq_some_iff.1 hn
    simpa [hname] using hlocation

/-- The definition of a directive is in step, with no block that could swallow a brace. -/
theorem introduces_directiveDefinition :
    Introduces 1 SameDirectives Grammar.directiveDefinition (do
      pass
      passDirectiveDefinition
      return []) := by
  refine Introduces.bind_anywhere (n := 1) (m := 0) (word_pass _) fun _ _ _ => ?_
  -- from the end to the front: the locations stand last
  have hlocations : Passes 1 Closed
      (Grammar.separatedNames '|'
        (take fun t => t.name?.filter (Grammar.directiveLocations.contains ·.text)))
      (whenever (fun t => Grammar.isName t || t.isMark '|') <|
        separated '|' (passIf fun t => t.name?.any (Grammar.directiveLocations.contains ·.text))) :=
    whenever_of_begins (passes_separated (by decide) passes_location (needs_take _))
      (kindTest_separated '|')
      (begins_separated '|' (begins_take fun _ ht => isName_of_filter ht))
  have hanswer : Follows 1 Closed SameDirectives
      (do
        Grammar.separatedNames '|'
          (take fun t => t.name?.filter (Grammar.directiveLocations.contains ·.text))
        return .directive)
      (do
        whenever (fun t => Grammar.isName t || t.isMark '|') <|
          separated '|' (passIf fun t => t.name?.any (Grammar.directiveLocations.contains ·.text))
        return []) :=
    (hlocations.map_left (f := fun _ => Definition.directive)
      (S := fun d _ => SameDirectives d []) fun _ _ _ => .nil).map_right fun _ _ hds => hds
  have hon := (word_passIf (E := Anywhere) "on").bind_anywhere fun _ _ _ => hanswer
  -- what stands before them needs tokens behind it
  have hrepeatable := (maybe_whenever (E := Inner) (word_pass _)
    (Token.kindTest_isWord "repeatable") fun _ h => h.elim : Passes 0 Inner
      (maybe (·.isWord "repeatable") (word "repeatable")) (passIf (·.isWord "repeatable")))
  have htail := hrepeatable.bind_inner (fun _ _ _ => hon) fun _ => (needs_take _).bind _
  have harguments := (maybe_whenever (E := Inner) (passes_inputValues '(' ')')
    (Token.kindTest_isMark '(') fun _ h => h.elim).bind_inner (fun _ _ _ => htail) fun _ =>
      (steady_maybe _ _).needs_bind fun _ => (needs_take _).bind _
  have hnamed := (name_passName (E := Anywhere)).bind_anywhere fun _ _ _ => harguments
  have hmarked := (mark_passIf (E := Anywhere) '@').bind_anywhere fun _ _ _ => hnamed
  exact .of_follows (hmarked.mono (Nat.zero_le _) fun _ h => h)

end Salvage

end SchemaAtlas
