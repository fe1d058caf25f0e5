import SchemaAtlas.Proofs.Salvage.LockStep
import SchemaAtlas.Wiring

/-!
# Values, directives and types in step

Production by production, the sweep that salvages directives follows the reader of documents. Here
are the productions that a definition is made of, up to the fields of a type.

* `Closed`                  what may stand behind a definition without going on with it
* `Value.Similar`           values that declare the same
* `Salvage.follows_value`, `Salvage.follows_directives`   values and directives
* `Salvage.follows_typeRef`, `Salvage.passes_field`       types, and fields with types
-/

namespace SchemaAtlas

open Token (Alike KindTest)

/-- Whether tokens do not go on with a definition before them: no mark but an opening brace is in
hand, and no word that a definition may go on with. -/
def Closed (more : List Token) : Prop :=
  ∀ t, more.head? = some t → (∀ c, t.isMark c = true → c = '\x7b') ∧
    ∀ word ∈ ["implements", "repeatable", "on"], t.isWord word = false

/-- No mark but a brace is in hand behind a definition. -/
theorem Closed.mark {more : List Token} (h : Closed more) {c : Char} (hc : c ≠ '\x7b') :
    more.head?.any (·.isMark c) = false := by
  cases hhead : more.head? with
  | none => rfl
  | some t =>
    rw [Option.any_some, Bool.eq_false_iff]
    intro ht
    exact hc ((h t hhead).1 c ht)

/-- No word that would go on with a definition is in hand behind it. -/
theorem Closed.word {more : List Token} (h : Closed more) {word : String}
    (hword : word ∈ ["implements", "repeatable", "on"]) :
    more.head?.any (·.isWord word) = false := by
  cases hhead : more.head? with
  | none => rfl
  | some t => exact (h t hhead).2 word hword

/-- The end of all tokens goes on with no definition. -/
theorem closed_nil : Closed [] := by
  intro t ht
  cases ht

/-! ## Values that declare the same -/

/-- Values that differ at most in the places where names stand, as far as a declaration can tell. -/
structure Value.Similar (v w : Value) : Prop where
  string : v.string? = w.string?
  boolean : v.boolean? = w.boolean?
  declaration : Wiring.declaration? v = Wiring.declaration? w
  declarations : Wiring.declarationsOf v = Wiring.declarationsOf w

/-- A value declares what it declares itself. -/
theorem Value.Similar.refl (v : Value) : v.Similar v :=
  ⟨rfl, rfl, rfl, rfl⟩

/-- Lists declare the same if their items do. -/
theorem Value.similar_list {vs ws : List Value} (h : List.Forall₂ Value.Similar vs ws) :
    (Value.list vs).Similar (.list ws) := by
  refine ⟨rfl, rfl, rfl, ?_⟩
  show vs.filterMap Wiring.declaration? = ws.filterMap Wiring.declaration?
  -- item by item, of which each declares a document or none
  induction h with
  | nil => rfl
  | cons hv _ ih => rw [List.filterMap_cons, List.filterMap_cons, hv.declaration, ih]

/-- Fields of objects that are written alike. -/
def SameField (f g : Name × Option Value) : Prop :=
  SameName f.1 g.1 ∧ Option.Rel Value.Similar f.2 g.2

/-- What is made of related answers is the same if it is for each pair. -/
theorem bind_eq_of_rel {α β γ : Type} {R : α → β → Prop} {f : α → Option γ}
    {g : β → Option γ} {o : Option α} {o' : Option β} (h : Option.Rel R o o')
    (hfg : ∀ a b, R a b → f a = g b) : o.bind f = o'.bind g := by
  cases h with
  | none => rfl
  | some hR => exact hfg _ _ hR

/-- Fields that are written alike both have a value, or neither has. -/
theorem SameField.isSome_eq {f g : Name × Option Value} (h : SameField f g) :
    f.2.isSome = g.2.isSome := by
  obtain ⟨name, value⟩ := f
  obtain ⟨name', value'⟩ := g
  have hvalue : Option.Rel Value.Similar value value' := h.2
  cases hvalue <;> rfl

/-- The last items of related lists are related. -/
theorem getLast?_rel {α β : Type} {R : α → β → Prop} {as : List α} {bs : List β}
    (h : List.Forall₂ R as bs) : Option.Rel R as.getLast? bs.getLast? := by
  rw [← List.head?_reverse, ← List.head?_reverse]
  -- the last item is the first one from behind
  have hreverse := List.rel_reverse h
  generalize as.reverse = as' at hreverse ⊢
  generalize bs.reverse = bs' at hreverse ⊢
  cases hreverse with
  | nil => exact .none
  | cons hR _ => exact .some hR

/-- Whether a field gives a value to a key. -/
def givesValue (key : String) (f : Name × Option Value) : Bool :=
  f.1.text == key && f.2.isSome

/-- The last value of a key is that of the last field that gives it one. -/
theorem lastValue?_eq (fs : List (Name × Option Value)) (key : String) :
    Wiring.lastValue? fs key = ((fs.filter (givesValue key)).getLast?).bind Prod.snd :=
  rfl

/-- The last values of a key in fields that are written alike declare the same. -/
theorem lastValue?_similar {fs gs : List (Name × Option Value)} (h : List.Forall₂ SameField fs gs)
    (key : String) :
    Option.Rel Value.Similar (Wiring.lastValue? fs key) (Wiring.lastValue? gs key) := by
  have hfilter : List.Forall₂ SameField (fs.filter (givesValue key))
      (gs.filter (givesValue key)) := by
    refine List.rel_filter ?_ h
    intro f g hfield
    have hname : f.1.text = g.1.text := hfield.1
    show givesValue key f = true ↔ givesValue key g = true
    rw [givesValue, givesValue, hname, hfield.isSome_eq]
  -- the last ones of both lists, if any
  have hlast := getLast?_rel hfilter
  rw [lastValue?_eq, lastValue?_eq]
  generalize (fs.filter (givesValue key)).getLast? = f? at hlast ⊢
  generalize (gs.filter (givesValue key)).getLast? = g? at hlast ⊢
  cases hlast with
  | none => exact .none
  | some hfield => exact hfield.2

/-- Objects declare the same if their fields are written alike. -/
theorem Value.similar_object {fs gs : List (Name × Option Value)}
    (h : List.Forall₂ SameField fs gs) : (Value.object fs).Similar (.object gs) := by
  refine ⟨rfl, rfl, ?_, rfl⟩
  have hdocument : (Wiring.lastValue? fs "document").bind Value.string? =
      (Wiring.lastValue? gs "document").bind Value.string? :=
    bind_eq_of_rel (lastValue?_similar h "document") fun _ _ hvalue => hvalue.string
  have hpersist : (Wiring.lastValue? fs "persist").bind Value.boolean? =
      (Wiring.lastValue? gs "persist").bind Value.boolean? :=
    bind_eq_of_rel (lastValue?_similar h "persist") fun _ _ hvalue => hvalue.boolean
  simp only [Wiring.declaration?, hdocument, hpersist]

/-- Words that are written alike declare the same. -/
theorem Grammar.similar_wordValue {a b : Name} (h : SameName a b) :
    (Grammar.wordValue a).Similar (Grammar.wordValue b) := by
  unfold Grammar.wordValue
  rw [h]
  split
  · exact .refl _
  · split
    · exact .refl _
    · split
      · exact .refl _
      · exact ⟨rfl, rfl, rfl, rfl⟩

/-- Whether a sweep found a value like one that was read. -/
def FoundValue (v : Value) (found : Option Value) : Prop :=
  ∃ w, found = some w ∧ v.Similar w

namespace Salvage

open Reader Follows

/-! ## Values and directives -/

section Values

variable {E : List Token → Prop} {constant passing : Bool} {nested : Reader Value}
  {nested' : Sweep (Option Value)}

/-- What stands between brackets, where the items are followed. -/
theorem follows_items (hnested : Follows 1 Inner FoundValue nested nested')
    (hbegins : Begins (!·.isMark ']') nested) :
    Follows 2 E FoundValue
      (do
        let _ ← mark '['
        let items ← Reader.many (!·.isMark ']') nested
        let _ ← mark ']'
        return .list items)
      (do
        pass
        let items ← many (!·.isMark ']') nested'
        passIf (·.isMark ']')
        return some (.list (items.filterMap id))) := by
  refine (mark_pass '[').bind_anywhere (m := 1) fun _ _ _ => ?_
  refine (many_many hnested (Token.kindTest_isMark ']').not hbegins fun _ h => h.elim).bind_inner
    (m := 1) (fun items found hfound => ?_) fun _ => (needs_take _).bind _
  refine (mark_passIf ']').bind_anywhere fun _ _ _ => .pure ⟨_, rfl, Value.similar_list ?_⟩
  -- the items that were found, one for each that was read
  induction hfound with
  | nil => exact .nil
  | cons hitem _ ih =>
    obtain ⟨w, rfl, hw⟩ := hitem
    exact .cons hw ih

/-- A name with a value behind a colon, both of which a pair or an argument is made of. -/
theorem follows_keyed {γ δ : Type} (make : Name → Option Value → γ)
    (make' : Name → Option Value → δ) {T : γ → δ → Prop} {p : Reader Value}
    {q : Sweep (Option Value)} {n : Nat} (hp : Follows n E FoundValue p q)
    (hend : ∀ more, E more → more.head?.any (·.isMark ':') = false)
    (hT : ∀ k k' v v', SameName k k' → Option.Rel Value.Similar v v' → T (make k v) (make' k' v')) :
    Follows 1 E (fun c od => ∃ d, od = some d ∧ T c d)
      (do
        let key ← name
        let value ← maybe (·.isMark ':') do
          let _ ← mark ':'
          p
        return make key value)
      (do
        match ← name? with
        | none => return none
        | some key =>
          if ← startsWith (·.isMark ':') then
            pass
            return some (make' key (← q))
          else return some (make' key none)) := by
  refine name_name?.bind_anywhere (m := 0) ?_
  rintro key _ ⟨key', rfl, hkey⟩
  -- the value is told by a colon
  refine (maybe_ite (R := fun v od => ∃ w, od = some (make' key' (some w)) ∧ v.Similar w)
    (n := 1 + n) _ ?_ (Token.kindTest_isMark ':') hend).map_left ?_
  · refine (mark_pass ':').bind_anywhere fun _ _ _ => ?_
    exact hp.map_right fun v found ⟨w, hfound, hw⟩ => ⟨w, by rw [hfound], hw⟩
  · rintro (_ | v) od hod
    · exact ⟨_, hod, hT _ _ _ _ hkey .none⟩
    · obtain ⟨w, hw, hsimilar⟩ := hod
      exact ⟨_, hw, hT _ _ _ _ hkey (.some hsimilar)⟩

/-- A loop over names with values ends where no name is in hand. -/
theorem keyed_stop {δ : Type} (q : Name → Sweep (Option δ)) (us : List Token)
    (h : us.head?.any Grammar.isName = false) :
    (do
      match ← name? with
      | none => return none
      | some key => q key : Sweep (Option δ)) us = (none, us) := by
  -- without a name in hand none is taken
  have hname : name? us = (none, us) := by
    cases us with
    | nil => rfl
    | cons u us =>
      have hu : u.name? = none := by simpa [Grammar.isName] using h
      rw [name?_cons, hu]
  rw [bind_apply, hname]
  rfl

/-- An object is followed if the values of its fields are. -/
theorem follows_fields (hnested : Follows 1 Inner FoundValue nested nested') :
    Follows 2 E FoundValue
      (do
        let _ ← mark '\x7b'
        let fields ← Reader.many Grammar.isName do
          let key ← name
          let value ← maybe (·.isMark ':') do
            let _ ← mark ':'
            nested
          return (key, value)
        let _ ← mark '\x7d'
        return .object fields)
      (do
        pass
        let fields ← repeated do
          match ← name? with
          | none => return none
          | some key =>
            if ← startsWith (·.isMark ':') then
              pass
              return some (key, ← nested')
            else return some (key, none)
        passIf (·.isMark '\x7d')
        return some (.object fields)) := by
  have hfield := follows_keyed Prod.mk Prod.mk (T := SameField) hnested (fun _ h => h.elim)
    fun _ _ _ _ hkey hvalue => ⟨hkey, hvalue⟩
  have hfields := many_repeated (n := 0) hfield Token.kindTest_isName (keyed_stop _)
    fun _ h => h.elim
  -- between two braces, of which the second one ends the loop
  refine (mark_pass '\x7b').bind_anywhere (m := 1) fun _ _ _ => ?_
  refine hfields.bind_inner (m := 1) (fun fields found hfound => ?_) fun _ => (needs_take _).bind _
  exact (mark_passIf '\x7d').bind_anywhere fun _ _ _ =>
    .pure ⟨_, rfl, Value.similar_object hfound⟩

/-- A variable is followed, and declares nothing on either side. -/
theorem follows_variable : Follows 2 E FoundValue
    (do
      let _ ← mark '$'
      return .variable (← name))
    (do
      pass
      return (← name?).map Value.variable) := by
  refine (mark_pass '$').bind_anywhere (m := 1) fun _ _ _ => ?_
  refine name_name?.bind_anywhere (m := 0) ?_
  rintro a _ ⟨b, rfl, hab⟩
  exact .pure ⟨_, rfl, rfl, rfl, rfl, rfl⟩

/-- A word that stands for a value is followed. -/
theorem follows_word : Follows 1 E FoundValue
    (do return Grammar.wordValue (← name))
    (do return (← name?).map Grammar.wordValue) := by
  refine name_name?.bind_anywhere (m := 0) ?_
  rintro a _ ⟨b, rfl, hab⟩
  exact .pure ⟨_, rfl, Grammar.similar_wordValue hab⟩

/-- A literal is followed by the value that it stands for. -/
theorem follows_literal (v : Value) {accept : Token → Option Value} (haccept : Rejects accept)
    (hv : ∀ t w, accept t = some w → w = v) : Follows 1 E FoundValue (take accept)
    (do
      pass
      return some v) := by
  intro more ts us a rest halike h hend
  obtain ⟨-, htogether⟩ := take_pass (E := E) haccept halike h hend
  obtain ⟨t, rfl, ht⟩ := take_eq_ok h
  obtain rfl := hv t a ht
  exact ⟨⟨a, rfl, .refl a⟩, htogether⟩

/-- A literal of which the kind of token is known. -/
theorem follows_known (v : Value) {more ts us rest : List Token} {t u : Token} {w : Value}
    (halike : Alike more (t :: ts) (u :: us)) (ht : t.kind ≠ .wrong)
    (h : take (fun _ => some v) (t :: ts) = .ok (w, rest)) (hend : rest = [] → E more) :
    FoundValue w (some v) ∧ Together 1 (t :: ts) (u :: us) rest us := by
  have htake : take (fun t => if t.kind = .wrong then none else some v) (t :: ts) =
      .ok (w, rest) := by
    rw [← h]
    simp [take, ht]
  refine follows_literal v (fun t ht => if_pos ht) (fun t w hw => ?_) halike htake hend
  split at hw
  · cases hw
  · exact (Option.some.inj hw).symm

/-- A value is followed by the value that is salvaged, if that holds of the values inside. -/
theorem follows_valueOf (hnested : Follows 1 Inner FoundValue nested nested')
    (hbegins : Begins (!·.isMark ']') nested) :
    Follows 1 E FoundValue (Grammar.valueOf constant nested) (valueOf nested' passing) := by
  intro more ts us v rest halike h hend
  cases halike with
  | done => cases h
  | @next t u ts us hkind hcomma hrest =>
    obtain ⟨kind, start, stop, comma⟩ := t
    obtain ⟨kind', start', stop', comma'⟩ := u
    obtain rfl : kind = kind' := hkind
    have halike : Alike more (⟨kind, start, stop, comma⟩ :: ts)
        (⟨kind, start', stop', comma'⟩ :: us) := .next rfl hcomma hrest
    unfold Grammar.valueOf at h
    obtain ⟨_, _, hpeek, h⟩ := Reader.bind_eq_ok.1 h
    obtain ⟨rfl, rfl⟩ := Prod.mk.inj (Except.ok.inj hpeek)
    dsimp only [List.head?_cons] at h
    -- the token in hand tells what value it is, to the sweep as well
    split at h
    · split at h
      · cases h
      · exact (follows_variable.mono (by omega) fun _ h => h) halike h hend
    · exact ((follows_items hnested hbegins).mono (by omega) fun _ h => h) halike h hend
    · exact ((follows_fields hnested).mono (by omega) fun _ h => h) halike h hend
    · exact follows_known _ halike (by simp) h hend
    · exact follows_known _ halike (by simp) h hend
    · exact follows_word halike h hend
    · cases h

end Values

/-- No value begins with the bracket that ends a list. -/
theorem begins_valueOf (constant : Bool) (nested : Reader Value) :
    Begins (!·.isMark ']') (Grammar.valueOf constant nested) := by
  intro ts r h
  cases ts with
  | nil => cases h
  | cons t ts =>
    obtain ⟨kind, start, stop, comma⟩ := t
    simp only [List.head?_cons, Option.any_some, Bool.not_eq_true', Bool.eq_false_iff]
    intro hmark
    obtain rfl : kind = .mark ']' := by simpa [Token.isMark] using hmark
    cases h

/-- However deep it is nested, no value begins with the bracket that ends a list. -/
theorem begins_value (constant : Bool) (levels : Nat) :
    Begins (!·.isMark ']') (Grammar.value constant levels) := by
  cases levels <;> exact begins_valueOf _ _

variable {E : List Token → Prop}

/-- A value inside another one is followed as long as the sweep may go as deep. -/
theorem follows_nestedValue (constant : Bool) {levels levels' : Nat} (h : levels < levels') :
    Follows 1 E FoundValue (Grammar.value constant levels) (nestedValue levels') := by
  -- at the bottom the reader fails, so there is nothing to follow
  induction levels generalizing levels' E with
  | zero =>
    obtain ⟨levels', rfl⟩ := Nat.exists_eq_add_of_lt h
    exact follows_valueOf (of_fails blame_ne_ok) (begins_blame _)
  | succ levels ih =>
    -- the sweep may go one level deeper as well
    obtain ⟨levels', rfl⟩ : ∃ k, levels' = k + 1 := ⟨levels' - 1, by omega⟩
    exact follows_valueOf (ih (by omega)) (begins_value constant levels)

/-- A value is followed as long as the reader may go no deeper than the sweep. -/
theorem follows_value (constant : Bool) {levels : Nat} (h : levels ≤ Grammar.depthLimit) :
    Follows 1 E FoundValue (Grammar.value constant levels) value? := by
  cases levels with
  | zero => exact follows_valueOf (of_fails blame_ne_ok) (begins_blame _)
  | succ levels =>
    exact follows_valueOf (follows_nestedValue constant h) (begins_value constant levels)

/-! ### Arguments and directives -/

/-- Arguments that are written alike. -/
def SameArgument (a b : Argument) : Prop :=
  SameName a.name b.name ∧ Option.Rel Value.Similar a.value b.value

/-- Directives that are written alike. -/
def SameDirective (a b : Directive) : Prop :=
  SameName a.name b.name ∧ List.Forall₂ SameArgument a.arguments b.arguments

/-- Arguments are followed by those that the sweep finds. -/
theorem follows_arguments (constant : Bool) {levels : Nat} (h : levels ≤ Grammar.depthLimit) :
    Follows 3 E (List.Forall₂ SameArgument) (Grammar.arguments constant levels) arguments := by
  have hargument := follows_keyed Argument.mk Argument.mk (T := SameArgument)
    (follows_value (E := Inner) constant h) (fun _ h => h.elim)
    fun _ _ _ _ hname hvalue => ⟨hname, hvalue⟩
  have harguments := many1_repeated (n := 0) hargument Token.kindTest_isName (keyed_stop _)
    fun _ h => h.elim
  -- between two brackets, of which the second one ends the loop
  refine (mark_pass '(').bind_anywhere (m := 2) fun _ _ _ => ?_
  refine harguments.bind_inner (m := 1) (fun as bs hsame => ?_) fun _ => (needs_take _).bind _
  exact (mark_passIf ')').bind_anywhere fun _ _ _ => .pure hsame

/-- A directive is followed by one of the same name with the same arguments. -/
theorem follows_directive (constant : Bool) {levels : Nat} (h : levels ≤ Grammar.depthLimit) :
    Follows 2 Closed (fun d found => ∃ d', found = some d' ∧ SameDirective d d')
      (Grammar.directive constant levels)
      (do
        pass
        let name ← name?
        let arguments ← if ← startsWith (·.isMark '(') then arguments else pure []
        return name.map fun name => { name, arguments : Directive }) := by
  refine (mark_pass '@').bind_anywhere (m := 1) fun _ _ _ => ?_
  refine name_name?.bind_anywhere (m := 0) ?_
  rintro a _ ⟨b, rfl, hab⟩
  -- the arguments are kept with the name before them
  have harguments : Follows 3 Closed
      (fun as found => ∃ bs, found = some ⟨b, bs⟩ ∧ List.Forall₂ SameArgument as bs)
      (Grammar.arguments constant levels) (do
        let arguments ← arguments
        return (some b).map fun name => { name, arguments : Directive }) :=
    (follows_arguments constant h).map_right fun as bs hsame => ⟨bs, rfl, hsame⟩
  refine (maybe_ite (some ⟨b, []⟩) harguments (Token.kindTest_isMark '(')
    fun more hmore => hmore.mark (by decide)).map_left ?_
  rintro (_ | as) found hfound
  · exact ⟨_, hfound, hab, .nil⟩
  · obtain ⟨bs, hbs, hsame⟩ := hfound
    exact ⟨_, hbs, hab, hsame⟩

/-- A directive begins with its mark. -/
theorem begins_directive (constant : Bool) (levels : Nat) :
    Begins (·.isMark '@') (Grammar.directive constant levels) :=
  (begins_mark '@').bind _

/-- Directives are followed, one for one. -/
theorem follows_directives (constant : Bool) {levels : Nat} (h : levels ≤ Grammar.depthLimit) :
    Follows 0 Closed (List.Forall₂ SameDirective) (Grammar.directives constant levels)
      directives := by
  refine (many_many (follows_directive constant h) (Token.kindTest_isMark '@')
    (begins_directive constant levels) fun more hmore => hmore.mark (by decide)).map_right ?_
  intro ds found hfound
  -- each round has found a directive, so none is dropped
  induction hfound with
  | nil => exact .nil
  | cons hd _ ih =>
    obtain ⟨d', rfl, hd⟩ := hd
    exact .cons hd ih

/-- Passing over directives follows reading them. -/
theorem follows_passDirectives (constant : Bool) {levels : Nat}
    (h : levels ≤ Grammar.depthLimit) :
    Follows 0 Closed (fun _ _ => True) (Grammar.directives constant levels) passDirectives :=
  (follows_directives constant h).map_right fun _ _ _ => trivial

/-! ## Types and the values that they type -/

/-- A part of which only the place matters where it ends. -/
abbrev Passes {α β : Type} (n : Nat) (E : List Token → Prop) (p : Reader α) (q : Sweep β) : Prop :=
  Follows n E (fun _ _ => True) p q

/-- A description is passed over where one is read. -/
theorem passes_description : Passes 0 Inner Grammar.description passDescription := by
  have hstring : Rejects fun t => if t.isString then some t else none := by
    intro t ht
    simp [Token.isString, ht]
  exact (maybe_whenever (R := fun _ _ => True) (take_pass hstring) Token.kindTest_isString
    fun _ h => h.elim).map_left fun _ _ _ => trivial

/-- Whether a type was passed over without a token that is none. -/
def PassedType (_ : TypeRef) (broken : Option Token) : Prop :=
  broken = none

/-- A type is a list or a name, and a mark may follow it. -/
theorem typeOf_cons {nested : Reader TypeRef} {t : Token} {ts rest : List Token} {type : TypeRef}
    (h : Grammar.typeOf nested (t :: ts) = .ok (type, rest)) :
    ∃ mid found, maybe (·.isMark '!') (mark '!') mid = .ok (found, rest) ∧
      ((t.isMark '[' = true ∧ ∃ list, Grammar.listType nested (t :: ts) = .ok (list, mid)) ∨
        (t.isMark '[' = false ∧ ∃ base, name (t :: ts) = .ok (base, mid))) := by
  unfold Grammar.typeOf at h
  obtain ⟨list, mid, hlist, h⟩ := Reader.bind_eq_ok.1 h
  rw [maybe_cons] at hlist
  -- a bracket opens a list, and anything else has to be a name
  cases ht : t.isMark '[' with
  | true =>
    rw [if_pos ht, map_eq_pure_bind, Reader.bind_eq_ok] at hlist
    obtain ⟨list, mid, hok, hpure⟩ := hlist
    obtain ⟨rfl, rfl⟩ := Reader.pure_eq_ok.1 hpure
    obtain ⟨_, _, hpure, h⟩ := Reader.bind_eq_ok.1 h
    obtain ⟨rfl, rfl⟩ := Reader.pure_eq_ok.1 hpure
    obtain ⟨found, last, hfound, h⟩ := Reader.bind_eq_ok.1 h
    obtain rfl : last = rest := by cases found <;> exact (Reader.pure_eq_ok.1 h).2
    exact ⟨_, found, hfound, .inl ⟨rfl, list, hok⟩⟩
  | false =>
    obtain ⟨rfl, rfl⟩ : none = list ∧ t :: ts = mid := by simpa [ht] using hlist
    obtain ⟨base, mid, hok, h⟩ := Reader.bind_eq_ok.1 h
    obtain ⟨_, _, hpure, h⟩ := Reader.bind_eq_ok.1 h
    obtain ⟨rfl, rfl⟩ := Reader.pure_eq_ok.1 hpure
    obtain ⟨found, last, hfound, h⟩ := Reader.bind_eq_ok.1 h
    obtain rfl : last = rest := by cases found <;> exact (Reader.pure_eq_ok.1 h).2
    exact ⟨_, found, hfound, .inr ⟨rfl, base, hok⟩⟩

/-- The mark behind a type is passed over where one is read. -/
theorem passes_nonNull :
    Passes 0 Closed (maybe (·.isMark '!') (mark '!')) (passIf (·.isMark '!')) :=
  maybe_whenever (mark_pass '!') (Token.kindTest_isMark '!') fun _ hmore => hmore.mark (by decide)

/-- The rest of a list type is passed over if its item is. -/
theorem follows_listType {nested : Reader TypeRef} {item : Sweep (Option Token)}
    (hnested : Follows 1 Inner PassedType nested item) :
    Passes 3 Closed
      (do
        let _ ← Grammar.listType nested
        maybe (·.isMark '!') (mark '!'))
      (do
        pass
        passItem item) := by
  -- the parts in the order in which they are read
  have hassoc : (do
      let _ ← Grammar.listType nested
      maybe (·.isMark '!') (mark '!')) = (do
        let _ ← mark '['
        let _ ← nested
        let _ ← mark ']'
        maybe (·.isMark '!') (mark '!')) := by
    simp only [Grammar.listType, bind_assoc, pure_bind]
  rw [hassoc]
  refine (mark_pass '[').bind_anywhere (m := 2) fun _ _ _ => ?_
  refine hnested.bind_inner (m := 1) ?_ fun _ => (needs_take _).bind _
  rintro _ _ rfl
  exact (mark_passIf ']').bind_anywhere (m := 0) fun _ _ _ => passes_nonNull

/-- A type is told by the token in hand. -/
theorem passTypeOf_cons (behindBracket : Sweep Unit) (u : Token) (us : List Token) :
    passTypeOf behindBracket (u :: us) =
      if u.isMark '[' then (none, (behindBracket us).2)
      else if Grammar.isName u then (none, (passIf (·.isMark '!') us).2)
      else (some u, us) := by
  show ((if u.isMark '[' = true then _ else _ : Sweep (Option Token)) us) = _
  split
  · rfl
  · split <;> rfl

/-- A type is passed over, if that holds of lists of types. -/
theorem follows_typeOf {nested : Reader TypeRef} {behindBracket : Sweep Unit}
    (hlists : Passes 3 Closed
      (do
        let _ ← Grammar.listType nested
        maybe (·.isMark '!') (mark '!'))
      (do
        pass
        behindBracket)) :
    Follows 1 Closed PassedType (Grammar.typeOf nested) (passTypeOf behindBracket) := by
  intro more ts us type rest halike h hend
  cases halike with
  | done => cases h
  | @next t u ts us hkind hcomma hrest =>
    have halike := Token.Alike.next hkind hcomma hrest
    -- a list or a name, with a mark behind it
    obtain ⟨mid, found, hfound, ⟨ht, list, hlist⟩ | ⟨ht, base, hbase⟩⟩ := typeOf_cons h
    · have hu : u.isMark '[' = true := (Token.kindTest_isMark '[' t u hkind).symm.trans ht
      rw [passTypeOf_cons, if_pos hu]
      have hstep := hlists halike (Reader.bind_eq_ok.2 ⟨list, mid, hlist, hfound⟩) hend
      exact ⟨rfl, hstep.2.mono (by omega)⟩
    · have hu : u.isMark '[' = false := (Token.kindTest_isMark '[' t u hkind).symm.trans ht
      have hname : Grammar.isName u = true := by
        rw [← Token.kindTest_isName t u hkind]
        simpa using begins_name _ _ hbase
      rw [passTypeOf_cons, if_neg (by simp [hu]), if_pos hname]
      have hnames : Passes 1 Closed
          (do
            let _ ← name
            maybe (·.isMark '!') (mark '!'))
          (do
            pass
            passIf (·.isMark '!')) :=
        name_pass.bind_anywhere (m := 0) fun _ _ _ => passes_nonNull
      have hstep := hnames halike (Reader.bind_eq_ok.2 ⟨base, mid, hbase, hfound⟩) hend
      exact ⟨rfl, hstep.2⟩

/-- A type is passed over without a token that is none, however many lists it nests. -/
theorem follows_typeRef (levels : Nat) :
    Follows 1 Closed PassedType (Grammar.typeRef levels) (passType levels) := by
  -- list by list
  induction levels with
  | zero =>
    refine follows_typeOf (of_fails fun ts r h => ?_)
    -- no list is read here: its item never is
    obtain ⟨_, _, hlist, -⟩ := Reader.bind_eq_ok.1 h
    obtain ⟨_, _, -, hitem⟩ := Reader.bind_eq_ok.1 hlist
    cases hitem
  | succ levels ih => exact follows_typeOf (follows_listType ih.inner)

/-- A default value is passed over where one is read. -/
theorem passes_defaultValue : Passes 0 Closed Grammar.defaultValue passDefault := by
  -- the mark and the value behind it, which the reader insists on and the sweep does not
  have hvalue : Passes 2 Closed
      (do
        let _ ← mark '='
        let _ ← Grammar.value true Grammar.depthLimit)
      (do
        pass
        let _ ← value?) := by
    refine (mark_pass '=').bind_anywhere (m := 1) fun _ _ _ => ?_
    exact ((follows_value true (Nat.le_refl _)).map_left (S := fun _ _ => True)
      fun _ _ _ => trivial).map_right fun _ _ _ => trivial
  exact (maybe_whenever hvalue (Token.kindTest_isMark '=')
    fun _ hmore => hmore.mark (by decide)).map_left fun _ _ _ => trivial

/-- A described item begins with its description or its name. -/
theorem begins_described {γ : Type} {item : Reader Name} (hitem : Begins Grammar.isName item)
    (f : Name → Reader γ) :
    Begins Grammar.isDescribedName (do
      Grammar.description
      let name ← item
      f name) := by
  intro ts r h
  obtain ⟨_, mid, hdescription, h⟩ := Reader.bind_eq_ok.1 h
  obtain ⟨name, _, hname, -⟩ := Reader.bind_eq_ok.1 h
  cases ts with
  | nil =>
    obtain ⟨-, rfl⟩ := Prod.mk.inj (Except.ok.inj hdescription)
    cases hitem _ _ hname
  | cons t ts =>
    -- a description is in hand, or the item begins here
    cases ht : t.isString with
    | true => simp [Grammar.isDescribedName, ht]
    | false =>
      obtain ⟨_, _, hmaybe, hpure⟩ := Reader.bind_eq_ok.1 hdescription
      rw [maybe_cons, ht] at hmaybe
      obtain ⟨-, rfl⟩ := Prod.mk.inj (Except.ok.inj hmaybe)
      obtain ⟨-, rfl⟩ := Reader.pure_eq_ok.1 hpure
      have hname := hitem _ _ hname
      simp only [List.head?_cons, Option.any_some] at hname ⊢
      simp [Grammar.isDescribedName, hname]

/-- Whether a type starts with a token is a matter of its kind. -/
theorem kindTest_startsType : KindTest startsType := by
  intro t u h
  have hmark : t.isMark '[' = u.isMark '[' := Token.kindTest_isMark '[' t u h
  simp only [startsType, Token.kindTest_isName t u h, hmark]

/-- A type begins with a name or a bracket. -/
theorem begins_typeRef (levels : Nat) : Begins startsType (Grammar.typeRef levels) := by
  have htypeOf (nested : Reader TypeRef) : Begins startsType (Grammar.typeOf nested) := by
    intro ts r h
    cases ts with
    | nil => cases h
    | cons t ts =>
      obtain ⟨_, _, -, ⟨ht, -⟩ | ⟨-, base, hbase⟩⟩ := typeOf_cons h
      · simp [startsType, ht]
      · have hname := begins_name _ _ hbase
        simp only [List.head?_cons, Option.any_some] at hname ⊢
        simp [startsType, hname]
  cases levels <;> exact htypeOf _

/-- A default value may be missing, so it makes no tokens. -/
theorem steady_defaultValue : Grammar.defaultValue.Steady :=
  (steady_maybe _ _).bind fun _ => steady_pure _

/-- A type, with what may follow it, where the sweep asks for the colon and the type first. -/
theorem passes_typed {γ : Type} {f : TypeRef → Reader γ} {q : Sweep Unit}
    (hf : ∀ type, Passes 0 Closed (f type) q) (hsteady : ∀ type, (f type).Steady) :
    Passes 2 Closed (Grammar.typing >>= f)
      (whenever (·.isMark ':') do
        pass
        whenever startsType do
          passTyping
          q) := by
  -- the colon and the type, which the sweep asks for one by one
  have hassoc : Grammar.typing >>= f = (do
      let _ ← mark ':'
      let type ← Grammar.typeRef Grammar.depthLimit
      f type) := by
    simp only [Grammar.typing, bind_assoc]
  rw [hassoc]
  have htype : Passes 1 Closed
      (do
        let type ← Grammar.typeRef Grammar.depthLimit
        f type)
      (do
        passTyping
        q) :=
    (((follows_typeRef Grammar.depthLimit).map_right (S := fun _ _ => True) fun _ _ _ =>
      trivial).bind (m := 0) (fun type _ _ => hf type) hsteady)
  refine whenever_of_begins ?_ (Token.kindTest_isMark ':') ((begins_mark ':').bind _)
  refine (mark_pass ':').bind_anywhere (m := 1) fun _ _ _ => ?_
  exact whenever_of_begins htype kindTest_startsType ((begins_typeRef _).bind _)

/-- An argument that a field takes is passed over. -/
theorem passes_inputValue : Passes 3 Closed Grammar.inputValue passInputValue := by
  refine (passes_description.bind_inner (m := 3) (fun _ _ _ => ?_) fun _ => (needs_take _).bind _)
  refine name_passName.bind_anywhere (m := 2) fun name _ _ => ?_
  -- behind the type may stand a default value, and then directives
  refine passes_typed (fun type => ?_) fun type => ?_
  · refine passes_defaultValue.bind (m := 0) (fun _ _ _ => ?_) fun _ =>
      (steady_many _ _).bind fun _ => steady_pure _
    exact (follows_passDirectives true (Nat.le_refl _)).map_left fun _ _ _ => trivial
  · exact steady_defaultValue.bind fun _ => (steady_many _ _).bind fun _ => steady_pure _

/-- Described items between two marks. -/
theorem passes_block {α γ : Type} {n : Nat} {E : List Token → Prop} {item : Reader α}
    {q : Sweep Unit} (opening closing : Char) (make : List α → γ)
    (hitem : Passes (n + 1) Closed item q) (hbegins : Begins Grammar.isDescribedName item) :
    Passes 3 E
      (do
        let _ ← mark opening
        let items ← many1 Grammar.isDescribedName item
        let _ ← mark closing
        return make items)
      (passBlock closing q) := by
  refine ((mark_pass opening).bind_anywhere (m := n + 2) fun _ _ _ => ?_).mono (by omega)
    fun _ h => h
  -- the reader wants at least one item, and the sweep takes as many as there are
  refine (many1_many hitem.inner Token.kindTest_isDescribedName hbegins
    fun _ h => h.elim).bind_inner (m := 1) (fun _ _ _ => ?_) fun _ => (needs_take _).bind _
  exact ((mark_passIf closing).map_left fun _ _ _ => trivial)

/-- The arguments that a field takes are passed over between their brackets. -/
theorem passes_inputValues {E : List Token → Prop} (opening closing : Char) :
    Passes 3 E (Grammar.inputValues opening closing) (passBlock closing passInputValue) :=
  passes_block opening closing id passes_inputValue (begins_described begins_name _)

/-- A field of a type is passed over. -/
theorem passes_field : Passes 3 Closed Grammar.field passField := by
  refine passes_description.bind_inner (m := 3) (fun _ _ _ => ?_) fun _ => (needs_take _).bind _
  refine name_passName.bind_anywhere (m := 2) fun name _ _ => ?_
  refine (maybe_whenever (E := Inner) (passes_inputValues '(' ')') (Token.kindTest_isMark '(')
    fun _ h => h.elim).bind_inner (m := 2) (fun arguments _ _ => ?_) fun _ =>
    ((needs_take _).bind _).bind _
  refine passes_typed (fun type => ?_) fun type => (steady_many _ _).bind fun _ => steady_pure _
  exact (follows_passDirectives true (Nat.le_refl _)).map_left fun _ _ _ => trivial

/-- The fields of a type are passed over between their braces. -/
theorem passes_fields {E : List Token → Prop} :
    Passes 3 E Grammar.fields (passBlock '\x7d' passField) :=
  passes_block '\x7b' '\x7d' id passes_field (begins_described begins_name _)

end Salvage

end SchemaAtlas
