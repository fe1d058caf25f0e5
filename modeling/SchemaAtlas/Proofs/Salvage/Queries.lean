import SchemaAtlas.Proofs.Salvage.Brackets
import SchemaAtlas.Proofs.Salvage.Selections

/-!
# The brackets of a query

What the reader of documents takes for a query without a name is tokens inside braces, whose
brackets match. Part by part of the grammar, tokens that stand inside some brackets behind a part
say that the tokens before it do so too.

* `Wraps`                          a part whose brackets match
* `Grammar.inside_of_selectionSet` the inside of a selection set
* `Inside.alike`                   brackets do not depend on where tokens stand
-/

namespace SchemaAtlas

open Token (Alike KindTest)
open Follows (Begins begins_blame maybe_cons)

/-- Whatever brackets stand open behind the part that the reader takes, the same ones stand open
before it, if `P` holds of the innermost. -/
def Wraps {α : Type} (P : Char → Prop) (p : Reader α) : Prop :=
  ∀ ⦃next ts a rest c σ⦄, p ts = .ok (a, rest) → P c → Inside next (c :: σ) rest →
    Inside next (c :: σ) ts

/-- Nothing is asked of a bracket. -/
def AnyBracket (_ : Char) : Prop :=
  True

/-- Whether a colon may stand in brackets. -/
def MayNameValues (c : Char) : Prop :=
  c ≠ ']'

/-- A colon may stand in braces. -/
theorem mayNameValues_brace : MayNameValues '\x7d' := by
  show '\x7d' ≠ ']'
  decide

namespace Wraps

open Reader

variable {α β γ : Type} {P Q : Char → Prop} {p : Reader α} {test : Token → Bool}

/-- Less may be promised of the innermost bracket. -/
theorem mono (h : Wraps P p) (hQ : ∀ c, Q c → P c) : Wraps Q p :=
  fun _ _ _ _ _ _ hp hc hinside => h hp (hQ _ hc) hinside

/-- A part that asks nothing of the innermost bracket may be used anywhere. -/
theorem named (h : Wraps AnyBracket p) : Wraps P p :=
  h.mono fun _ _ => trivial

/-- Taking nothing leaves the brackets as they are. -/
protected theorem pure (a : α) : Wraps P (pure a : Reader α) := by
  intro next ts b rest c σ h hc hinside
  obtain ⟨-, rfl⟩ := Reader.pure_eq_ok.1 h
  exact hinside

/-- A reader that only fails says nothing about brackets. -/
protected theorem blame : Wraps P (blame : Reader α) :=
  fun _ _ _ _ _ _ h _ _ => absurd h (blame_ne_ok _ _)

/-- Parts behind one another keep their brackets, the one behind first. -/
protected theorem bind {f : α → Reader β} (hp : Wraps P p) (hf : ∀ a, Wraps P (f a)) :
    Wraps P (p >>= f) := by
  intro next ts b rest c σ h hc hinside
  obtain ⟨a, mid, hmid, hrest⟩ := Reader.bind_eq_ok.1 h
  exact hp hmid hc (hf a hrest hc hinside)

/-- A token that is neither a bracket nor a colon may stand anywhere. -/
theorem take {accept : Token → Option α} (h : ∀ t, (accept t).isSome = true → t.isPlain = true) :
    Wraps P (take accept) := by
  intro next ts a rest c σ hok hc hinside
  obtain ⟨t, rfl, ht⟩ := take_eq_ok hok
  exact .plain (h t (by rw [ht]; rfl)) hinside

/-- A name is neither a bracket nor a colon. -/
theorem isPlain_of_isName {t : Token} (h : Grammar.isName t = true) : t.isPlain = true := by
  obtain ⟨kind, start, stop, comma⟩ := t
  cases kind with
  | name text => rfl
  | _ => cases h

/-- A name may stand in any brackets. -/
theorem name : Wraps P name :=
  Wraps.take fun _ h => isPlain_of_isName h

/-- So may a mark that is neither a bracket nor a colon. -/
theorem mark {o : Char} (ho : (⟨.mark o, 0, 0, false⟩ : Token).isPlain = true) :
    Wraps P (mark o) := by
  intro next ts t rest c σ h hc hinside
  obtain ⟨rfl, ht⟩ := mark_eq_ok h
  obtain ⟨kind, start, stop, comma⟩ := t
  obtain rfl : kind = .mark o := ht
  exact .plain ho hinside

/-- A part that may be left out keeps its brackets if it does so where it is there. -/
theorem maybe (hp : Wraps P p) : Wraps P (maybe test p) := by
  intro next ts a rest c σ h hc hinside
  -- the part is left out at the end of the tokens, and where the token in hand starts none
  cases ts with
  | nil =>
    obtain ⟨-, rfl⟩ := Prod.mk.inj (Except.ok.inj h)
    exact hinside
  | cons t ts =>
    rw [maybe_cons] at h
    split at h
    · rw [map_eq_pure_bind, Reader.bind_eq_ok] at h
      obtain ⟨a', mid, hok, hpure⟩ := h
      obtain ⟨-, rfl⟩ := Reader.pure_eq_ok.1 hpure
      exact hp hok hc hinside
    · obtain ⟨-, rfl⟩ := Prod.mk.inj (Except.ok.inj h)
      exact hinside

/-- A loop keeps its brackets if each round does. -/
theorem many (hp : Wraps P p) : Wraps P (many test p) := by
  -- round by round, by induction on what bounds the rounds
  have hfrom (supply : List Token) : Wraps P (manyFrom test p supply) := by
    induction supply with
    | nil => exact .pure _
    | cons s supply ih =>
      refine hp.maybe.bind fun found => ?_
      cases found with
      | none => exact .pure _
      | some a => exact ih.bind fun _ => .pure _
  intro next ts a rest c σ h hc hinside
  exact hfrom ts h hc hinside

/-- A loop of at least one round keeps its brackets as well. -/
theorem many1 (hp : Wraps P p) : Wraps P (many1 test p) :=
  hp.bind fun _ => hp.many.bind fun _ => .pure _

/-- What stands between two brackets. -/
theorem inside_of_block {o d : Char} (hp : Wraps P p) (hd : P d) (ho : closer? o = some d)
    {make : α → Token → γ} {b : γ} {next ts rest : List Token} {σ : List Char}
    (h : (do
      let _ ← Reader.mark o
      let a ← p
      let t ← Reader.mark d
      return make a t : Reader γ) ts = .ok (b, rest)) (hinside : Inside next σ rest) :
    ∃ t ts', ts = t :: ts' ∧ t.kind = .mark o ∧ Inside next (d :: σ) ts' := by
  obtain ⟨t, ts', hopening, hbehind⟩ := Reader.bind_eq_ok.1 h
  obtain ⟨rfl, ht⟩ := mark_eq_ok hopening
  obtain ⟨a, mid, hitems, hlast⟩ := Reader.bind_eq_ok.1 hbehind
  obtain ⟨t', mid', hclosing, hpure⟩ := Reader.bind_eq_ok.1 hlast
  obtain ⟨-, rfl⟩ := Reader.pure_eq_ok.1 hpure
  obtain ⟨rfl, ht'⟩ := mark_eq_ok hclosing
  -- from the closing bracket back to the opening one
  exact ⟨t, ts', rfl, ht, hp hitems hd (.closing ht' (Token.isCloser_of_closer? ho ht') hinside)⟩

/-- What stands between two brackets may itself stand in any. -/
theorem block {o d : Char} (hp : Wraps Q p) (hd : Q d) (ho : closer? o = some d)
    (make : α → Token → γ) :
    Wraps P (do
      let _ ← Reader.mark o
      let a ← p
      let t ← Reader.mark d
      return make a t) := by
  intro next ts b rest c σ h hc hinside
  obtain ⟨t, ts', rfl, ht, hinside'⟩ := inside_of_block hp hd ho h hinside
  exact .opening ht ho hinside'

/-- A colon stands before what is no closing bracket. -/
theorem colon (hp : Wraps MayNameValues p) (hbegins : Begins (!·.isCloser) p) :
    Wraps MayNameValues (do
      let _ ← Reader.mark ':'
      p) := by
  intro next ts b rest c σ h hc hinside
  obtain ⟨t, mid, hcolon, hbehind⟩ := Reader.bind_eq_ok.1 h
  obtain ⟨rfl, ht⟩ := mark_eq_ok hcolon
  refine .colon ht hc ?_ (hp hbehind hc hinside)
  -- what is read behind the colon begins with no closing bracket
  have hhead := hbegins mid _ hbehind
  cases mid with
  | nil => rfl
  | cons t' mid => simpa using hhead

end Wraps

namespace Grammar

open Reader

/-- A variable has no brackets. -/
theorem wraps_variableValue {P : Char → Prop} :
    Wraps P (do
      let _ ← mark '$'
      return Value.variable (← name)) :=
  (Wraps.mark (by decide)).bind fun _ => Wraps.name.bind fun _ => .pure _

section Values

variable {nested : Reader Value} (hnested : Wraps AnyBracket nested)
include hnested

/-- A list keeps the brackets that its items keep. -/
theorem wraps_listValue :
    Wraps AnyBracket (do
      let _ ← mark '['
      let items ← many (!·.isMark ']') nested
      let _ ← mark ']'
      return Value.list items) :=
  .block hnested.many trivial rfl fun items _ => Value.list items

/-- A value behind a colon takes no bracket that closes the object. -/
theorem wraps_objectValue (hbegins : Begins (!·.isCloser) nested) :
    Wraps AnyBracket (do
      let _ ← mark '\x7b'
      let fields ← many isName do
        let key ← name
        let value ← maybe (·.isMark ':') do
          let _ ← mark ':'
          nested
        return (key, value)
      let _ ← mark '\x7d'
      return Value.object fields) := by
  -- one field, with its value if a colon follows its name
  have hfield : Wraps MayNameValues (do
      let key ← name
      let value ← maybe (·.isMark ':') do
        let _ ← mark ':'
        nested
      return (key, value)) :=
    Wraps.name.bind fun _ => (Wraps.colon hnested.named hbegins).maybe.bind fun _ => .pure _
  exact .block hfield.many mayNameValues_brace rfl fun fields _ => Value.object fields

/-- A value keeps the brackets that those inside it keep. -/
theorem wraps_valueOf {constant : Bool} (hbegins : Begins (!·.isCloser) nested) :
    Wraps AnyBracket (valueOf constant nested) := by
  intro next ts v rest c σ h hc hinside
  cases ts with
  | nil => cases h
  | cons t ts =>
    obtain ⟨kind, start, stop, comma⟩ := t
    unfold valueOf at h
    obtain ⟨_, _, hpeek, h⟩ := Reader.bind_eq_ok.1 h
    obtain ⟨rfl, rfl⟩ := Prod.mk.inj (Except.ok.inj hpeek)
    dsimp only [List.head?_cons] at h
    -- the token in hand tells what value it is
    split at h
    · split at h
      · cases h
      · exact wraps_variableValue h hc hinside
    · exact wraps_listValue hnested h hc hinside
    · exact wraps_objectValue hnested hbegins h hc hinside
    · obtain ⟨t', hts, -⟩ := take_eq_ok h
      obtain ⟨rfl, rfl⟩ := List.cons.inj hts
      exact .plain rfl hinside
    · obtain ⟨t', hts, -⟩ := take_eq_ok h
      obtain ⟨rfl, rfl⟩ := List.cons.inj hts
      exact .plain rfl hinside
    · exact (Wraps.name.bind fun _ => Wraps.pure _) h hc hinside
    · cases h

end Values

/-- No value begins with a closing bracket. -/
theorem begins_valueOf (constant : Bool) (nested : Reader Value) :
    Begins (!·.isCloser) (valueOf constant nested) := by
  intro ts r h
  cases ts with
  | nil => cases h
  | cons t ts =>
    obtain ⟨kind, start, stop, comma⟩ := t
    simp only [List.head?_cons, Option.any_some, Bool.not_eq_true', Bool.eq_false_iff]
    intro hcloser
    -- the three closing brackets start no kind of value
    cases kind with
    | mark c =>
      simp only [Token.isCloser, Token.isMark, Bool.or_eq_true, decide_eq_true_eq,
        Token.Kind.mark.injEq] at hcloser
      obtain (rfl | rfl) | rfl := hcloser <;> cases h
    | _ => simp [Token.isCloser, Token.isMark] at hcloser

/-- The brackets of a value match, however deep it is nested. -/
theorem wraps_value (constant : Bool) (levels : Nat) :
    Wraps AnyBracket (value constant levels) := by
  -- one level of nesting after another, where no value is read at the bottom
  induction levels with
  | zero => exact wraps_valueOf .blame (begins_blame _)
  | succ levels ih => exact wraps_valueOf ih (by cases levels <;> exact begins_valueOf _ _)

/-- However deep it is nested, no value begins with a closing bracket. -/
theorem begins_value (constant : Bool) (levels : Nat) :
    Begins (!·.isCloser) (value constant levels) := by
  cases levels <;> exact begins_valueOf _ _

/-- An argument stands where a colon may stand. -/
theorem wraps_argument (constant : Bool) (levels : Nat) :
    Wraps MayNameValues (argument constant levels) := by
  refine Wraps.name.bind fun _ => Wraps.bind (Wraps.maybe ?_) fun _ => .pure _
  exact .colon (wraps_value constant levels).named (begins_value constant levels)

/-- The parentheses of arguments match. -/
theorem wraps_arguments (constant : Bool) (levels : Nat) :
    Wraps AnyBracket (arguments constant levels) :=
  .block (wraps_argument constant levels).many1 (d := ')') (by show ')' ≠ ']'; decide) rfl
    fun arguments _ => arguments

/-- Directives have no brackets but those of their arguments. -/
theorem wraps_directives (constant : Bool) (levels : Nat) :
    Wraps AnyBracket (directives constant levels) := by
  refine Wraps.many ((Wraps.mark (by decide)).bind fun _ => Wraps.name.bind fun _ => ?_)
  exact (wraps_arguments constant levels).maybe.bind fun _ => .pure _

section Selections

variable {levels : Nat} {nested : Reader Nat} (hnested : Wraps AnyBracket nested)
include hnested

/-- The brackets of a field without an alias match. -/
theorem wraps_selected : Wraps AnyBracket (do
    let _ ← name
    let _ ← maybe (·.isMark '(') (arguments false levels)
    let _ ← directives false levels
    let _ ← maybe (·.isMark '\x7b') nested) := by
  refine Wraps.name.bind fun _ => (wraps_arguments false levels).maybe.bind fun _ => ?_
  exact (wraps_directives false levels).bind fun _ => hnested.maybe.bind fun _ => .pure _

/-- The brackets of a field match, and its alias stands where a colon may stand. -/
theorem wraps_selectedField : Wraps MayNameValues (selectedField levels nested) := by
  have hselected : Wraps AnyBracket (do
      let _ ← name
      let _ ← maybe (·.isMark '(') (arguments false levels)
      let _ ← directives false levels
      let _ ← maybe (·.isMark '\x7b') nested) := wraps_selected hnested
  -- the field behind an alias begins with a name, which closes nothing
  have hbegins : Begins (!·.isCloser) (do
      let _ ← name
      let _ ← maybe (·.isMark '(') (arguments false levels)
      let _ ← directives false levels
      let _ ← maybe (·.isMark '\x7b') nested) := by
    refine Follows.Begins.bind (Follows.begins_take fun t ht => ?_) _
    simp [Token.isCloser_of_isName ht]
  have haliased := Wraps.name.bind fun _ => Wraps.colon hselected.named hbegins
  intro next ts a rest c σ h hc hinside
  rw [Salvage.selectedField_eq] at h
  split at h
  · exact haliased h hc hinside
  · exact hselected.named h hc hinside

/-- The brackets of a spread match, whether it names a fragment or spells one out. -/
theorem wraps_spread {next ts rest : List Token} {c : Char} {σ : List Char}
    (h : spread levels nested ts = .ok ((), rest)) (hinside : Inside next (c :: σ) rest) :
    Inside next (c :: σ) ts := by
  have hspread : Wraps AnyBracket (take fun t => if t.kind = .spread then some t else none) := by
    refine Wraps.take fun t ht => ?_
    have hkind : t.kind = .spread := Option.isSome_ite.1 ht
    simp [Token.isPlain, hkind]
  have hcondition : Wraps AnyBracket typeCondition := by
    refine Wraps.bind (Wraps.take fun t ht => ?_) fun _ => Wraps.name.bind fun _ => .pure _
    exact Wraps.isPlain_of_isName (Follows.isName_of_isWord (Option.isSome_ite.1 ht))
  have hfragment : Wraps AnyBracket fragmentName :=
    Wraps.take fun t ht => Wraps.isPlain_of_isName (Follows.isName_of_filter ht)
  have hdirectives := wraps_directives false levels
  have hmaybe : Wraps AnyBracket (maybe (·.isWord "on") typeCondition) := hcondition.maybe
  have hinline := hspread.bind fun _ => hmaybe.bind fun _ =>
    hdirectives.bind fun _ => hnested.bind fun _ => Wraps.pure ()
  have hnamed := hspread.bind fun _ => hfragment.bind fun _ => hdirectives.bind fun _ =>
    Wraps.pure ()
  -- it is told by the token behind it, which is not taken to find out
  obtain ⟨inline, _, hbehind, h⟩ := Reader.bind_eq_ok.1 h
  obtain ⟨rfl, rfl⟩ := Prod.mk.inj (Except.ok.inj hbehind)
  obtain ⟨named, _, hbehind, h⟩ := Reader.bind_eq_ok.1 h
  obtain ⟨rfl, rfl⟩ := Prod.mk.inj (Except.ok.inj hbehind)
  split at h
  · exact hinline h trivial hinside
  · split at h
    · exact hnamed h trivial hinside
    · cases h

/-- The brackets of a selection match. -/
theorem wraps_selection : Wraps MayNameValues (selection levels nested) := by
  intro next ts a rest c σ h hc hinside
  obtain ⟨_, _, hpeek, h⟩ := Reader.bind_eq_ok.1 h
  obtain ⟨rfl, rfl⟩ := Prod.mk.inj (Except.ok.inj hpeek)
  cases ts with
  | nil => cases h
  | cons t ts =>
    dsimp only [List.head?_cons] at h
    -- a spread or a field, by the token in hand
    split at h
    · exact wraps_spread hnested h hinside
    · exact wraps_selectedField hnested h hc hinside

end Selections

/-- The brackets of a selection set match, however deep it is nested. -/
theorem wraps_selectionSet (levels : Nat) : Wraps AnyBracket (selectionSet levels) := by
  induction levels with
  | zero =>
    intro next ts a rest c σ h hc hinside
    obtain ⟨_, _, -, hblame⟩ := Reader.bind_eq_ok.1 h
    -- below the last level nothing is read
    cases hblame
  | succ levels ih =>
    exact .block (wraps_selection ih).many1 mayNameValues_brace rfl fun _ t => t.stop

/-- A selection set is what its braces hold, with the tokens that are left behind them. -/
theorem inside_of_selectionSet {levels : Nat} {ts rest : List Token} {stop : Nat}
    (h : selectionSet levels ts = .ok (stop, rest)) :
    ∃ t ts', ts = t :: ts' ∧ t.kind = .mark '\x7b' ∧ Inside rest ['\x7d'] ts' := by
  cases levels with
  | zero =>
    obtain ⟨_, _, -, hblame⟩ := Reader.bind_eq_ok.1 h
    cases hblame
  | succ levels =>
    exact Wraps.inside_of_block (wraps_selection (wraps_selectionSet levels)).many1
      mayNameValues_brace rfl h .out

end Grammar

/-- Being a closing bracket is a matter of kind. -/
theorem Token.kindTest_isCloser : KindTest isCloser := by
  intro t u h
  simp only [isCloser, isMark, h]

/-- Being neither a bracket nor a colon is a matter of kind. -/
theorem Token.kindTest_isPlain : KindTest isPlain := by
  intro t u h
  simp only [isPlain, h, kindTest_isCloser t u h]

/-- Brackets do not depend on where tokens stand, nor on what stands behind all of them. -/
theorem Inside.alike {more next ts us : List Token} {σ : List Char} (h : Inside next σ ts)
    (halike : Alike more ts us) : ∃ next', Inside next' σ us ∧ Alike more next next' := by
  -- token by token, as the brackets are told
  induction h generalizing us with
  | out => exact ⟨us, .out, halike⟩
  | plain ht h ih =>
    obtain ⟨u, us, rfl, hkind, hrest⟩ := halike.exists_cons
    obtain ⟨next', hinside, hnext⟩ := ih hrest
    exact ⟨next', .plain (Token.kindTest_isPlain _ _ hkind ▸ ht) hinside, hnext⟩
  | colon ht hc hus h ih =>
    obtain ⟨u, us, rfl, hkind, hrest⟩ := halike.exists_cons
    obtain ⟨next', hinside, hnext⟩ := ih hrest
    rw [← hrest.any_head Token.kindTest_isCloser h.ne_nil] at hus
    exact ⟨next', .colon (hkind ▸ ht) hc hus hinside, hnext⟩
  | opening ht ho h ih =>
    obtain ⟨u, us, rfl, hkind, hrest⟩ := halike.exists_cons
    obtain ⟨next', hinside, hnext⟩ := ih hrest
    exact ⟨next', .opening (hkind ▸ ht) ho hinside, hnext⟩
  | closing ht hc h ih =>
    obtain ⟨u, us, rfl, hkind, hrest⟩ := halike.exists_cons
    obtain ⟨next', hinside, hnext⟩ := ih hrest
    have hcloser := Token.kindTest_isCloser _ _ hkind ▸ hc
    exact ⟨next', .closing (hkind ▸ ht) hcloser hinside, hnext⟩

end SchemaAtlas
