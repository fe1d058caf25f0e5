import SchemaAtlas.Project.Operations
import SchemaAtlas.Proofs.Document.Readings

/-!
# The ranges of operations and fragments

The range of an operation or a fragment begins with the first token that is read for it and ends
with the last one, a closing brace. Tokens stand between characters of the text, so the range can be
cut out of the text whatever characters are in it.

* `Grammar.spans_operation`, `Grammar.spans_shorthandQuery`, `Grammar.spans_fragment`
  the tokens that a range goes from and to
* `Salvage.Reads.spans`             the same of a whole document
* `Document.slice?_of_mem_executables`   the text in the range of an operation or a fragment
-/

namespace SchemaAtlas

open Salvage

/-! ## Selection sets take tokens from the front -/

namespace Reader

variable {α β : Type}

/-- A look at the token in hand leaves all tokens. -/
theorem advances_peek : peek.Advances := by
  intro ts a rest h
  obtain ⟨-, rfl⟩ := Prod.mk.inj (Except.ok.inj h)
  exact ⟨[], rfl⟩

/-- A reader that fails leaves no tokens to speak of. -/
theorem advances_blame : (blame : Reader α).Advances := by
  intro ts a rest h
  cases h

/-- A loop takes the tokens of its rounds, which stand one after the other. -/
theorem Advances.many {p : Reader α} (hp : p.Advances) (starts : Token → Bool) :
    (many starts p).Advances := by
  intro ts as rest h
  obtain ⟨-, used, hused, -⟩ := (hp.yields []).many starts h
  exact ⟨used, hused⟩

/-- A loop that must go round once takes the tokens of that round, too. -/
theorem Advances.many1 {p : Reader α} (hp : p.Advances) (starts : Token → Bool) :
    (many1 starts p).Advances :=
  hp.bind fun _ => (hp.many starts).bind fun _ => advances_pure _

end Reader

/-- Whether the range of an operation or a fragment goes from the first of some tokens to the last
one before `rest`, which is a closing brace. -/
def Executable.SpansIn (executable : Executable) (ts rest : List Token) : Prop :=
  ∃ first between closing, ts = first :: (between ++ closing :: rest) ∧
    closing.kind = .mark '\x7d' ∧ executable.start = first.start ∧ executable.stop = closing.stop

/-- Whether what a reader answers ranges over the tokens that the reader takes. -/
def Reader.Spans (p : Reader Executable) : Prop :=
  ∀ ⦃ts executable rest⦄, p ts = .ok (executable, rest) → executable.SpansIn ts rest

namespace Grammar

open Reader

/-- A look behind the token in hand leaves all tokens. -/
theorem advances_behind (accept : Token → Bool) : (behind accept).Advances := by
  intro ts a rest h
  obtain ⟨-, rfl⟩ := Prod.mk.inj (Except.ok.inj h)
  exact ⟨[], rfl⟩

/-- A type condition is taken from the front. -/
theorem advances_typeCondition : typeCondition.Advances :=
  advances_of_follows (passes_typeCondition (E := Anywhere)) trivial

section Selections

variable {levels : Nat} {nested : Reader Nat} (hlevels : levels ≤ depthLimit)
  (hnested : nested.Advances)
include hlevels hnested

/-- A field of a selection set is taken from the front, with the set that may be behind it. -/
theorem advances_selectedField : (selectedField levels nested).Advances := by
  have hdirectives : (directives false levels).Advances :=
    advances_of_follows (follows_directives false hlevels) closed_nil
  have harguments : (arguments false levels).Advances :=
    advances_of_follows (follows_arguments (E := Anywhere) false hlevels) trivial
  -- what follows the alias, if there is one
  have hfield : (do
      let _ ← name
      let _ ← maybe (·.isMark '(') (arguments false levels)
      let _ ← directives false levels
      let _ ← maybe (·.isMark '\x7b') nested : Reader Unit).Advances := by
    refine (advances_take _).bind fun _ => (harguments.maybe _).bind fun _ => ?_
    exact hdirectives.bind fun _ => (hnested.maybe _).bind fun _ => advances_pure _
  refine (advances_behind _).bind fun isAliased => ?_
  cases isAliased with
  | true => exact (advances_take _).bind fun _ => (advances_take _).bind fun _ => hfield
  | false => exact hfield

/-- A fragment that is spread is taken from the front, with its selection set if it is inline. -/
theorem advances_spread : (spread levels nested).Advances := by
  have hdirectives : (directives false levels).Advances :=
    advances_of_follows (follows_directives false hlevels) closed_nil
  refine (advances_behind _).bind fun isInline => (advances_behind _).bind fun isNamed => ?_
  -- in place, named, or neither
  split
  · refine (advances_take _).bind fun _ => (advances_typeCondition.maybe _).bind fun _ => ?_
    exact hdirectives.bind fun _ => hnested.bind fun _ => advances_pure _
  · split
    · refine (advances_take _).bind fun _ => (advances_take _).bind fun _ => ?_
      exact hdirectives.bind fun _ => advances_pure _
    · exact advances_blame

/-- A member of a selection set is taken from the front. -/
theorem advances_selection : (selection levels nested).Advances := by
  refine advances_peek.bind fun next => ?_
  -- the token in hand tells a spread from a field
  cases next with
  | none => exact advances_blame
  | some t =>
    dsimp only
    split
    · exact advances_spread hlevels hnested
    · exact advances_selectedField hlevels hnested

end Selections

/-! ## From the first token to the closing brace -/

/-- A selection set ends with its closing brace, which is not its first token. -/
theorem exists_closing_of_selectionSet {levels : Nat} (hlevels : levels ≤ depthLimit)
    {ts rest : List Token} {stop : Nat} (h : selectionSet levels ts = .ok (stop, rest)) :
    ∃ first between closing, ts = first :: (between ++ closing :: rest) ∧
      closing.kind = .mark '\x7d' ∧ closing.stop = stop := by
  -- the reader fails where it may go no deeper
  cases levels with
  | zero =>
    obtain ⟨_, _, -, hblame⟩ := bind_eq_ok.1 h
    cases hblame
  | succ levels =>
    have hlevels : levels ≤ depthLimit := Nat.le_of_succ_le hlevels
    have hnested : (selectionSet levels).Advances :=
      advances_of_follows (passes_selectionSet (E := Anywhere) hlevels) trivial
    obtain ⟨first, ts₁, hopening, h⟩ := bind_eq_ok.1 h
    obtain ⟨members, ts₂, hmembers, h⟩ := bind_eq_ok.1 h
    obtain ⟨closing, ts₃, hclosing, h⟩ := bind_eq_ok.1 h
    obtain ⟨rfl, rfl⟩ := pure_eq_ok.1 h
    obtain ⟨rfl, -⟩ := mark_eq_ok hopening
    obtain ⟨rfl, hbrace⟩ := mark_eq_ok hclosing
    obtain ⟨between, rfl⟩ := (advances_selection hlevels hnested).many1 _ hmembers
    exact ⟨first, between, closing, rfl, hbrace, rfl⟩

/-- The range of what ends with a selection set, from the token that it begins with. -/
theorem spansIn_of_selectionSet {executable : Executable} {first : Token}
    {head mid rest : List Token} (hstart : executable.start = first.start)
    (h : selectionSet depthLimit mid = .ok (executable.stop, rest)) :
    executable.SpansIn (first :: (head ++ mid)) rest := by
  obtain ⟨opening, between, closing, rfl, hbrace, hstop⟩ :=
    exists_closing_of_selectionSet (Nat.le_refl _) h
  exact ⟨first, head ++ opening :: between, closing, by simp, hbrace, hstart, hstop.symm⟩

/-- The directives of an operation are taken from the front. -/
theorem advances_queryDirectives : (directives false depthLimit).Advances :=
  advances_of_follows (follows_directives false (Nat.le_refl _)) closed_nil

/-- An operation ranges from its keyword to the end of its selection set. -/
theorem spans_operation : operation.Spans := by
  intro ts executable rest h
  obtain ⟨found, _, hpeek, h⟩ := bind_eq_ok.1 h
  obtain ⟨rfl, rfl⟩ := Prod.mk.inj (Except.ok.inj hpeek)
  obtain ⟨kind, ts₁, hkind, h⟩ := bind_eq_ok.1 h
  obtain ⟨first, rfl, -⟩ := take_eq_ok hkind
  obtain ⟨name, ts₂, hname, h⟩ := bind_eq_ok.1 h
  obtain ⟨taken, ts₃, hvariables, h⟩ := bind_eq_ok.1 h
  obtain ⟨directives, ts₄, hdirectives, h⟩ := bind_eq_ok.1 h
  obtain ⟨stop, ts₅, hset, h⟩ := bind_eq_ok.1 h
  obtain ⟨rfl, rfl⟩ := pure_eq_ok.1 h
  -- what stands between the keyword and the selection set
  have hvariablesAdvance : variableDefinitions.Advances :=
    advances_of_follows (passes_variableDefinitions (E := Anywhere)) trivial
  obtain ⟨used₁, rfl⟩ := (advances_take _).maybe _ hname
  obtain ⟨used₂, rfl⟩ := hvariablesAdvance.maybe _ hvariables
  obtain ⟨used₃, rfl⟩ := advances_queryDirectives hdirectives
  rw [← List.append_assoc, ← List.append_assoc]
  exact spansIn_of_selectionSet rfl hset

/-- A query without a keyword ranges over its selection set. -/
theorem spans_shorthandQuery : shorthandQuery.Spans := by
  intro ts executable rest h
  obtain ⟨found, _, hpeek, h⟩ := bind_eq_ok.1 h
  obtain ⟨rfl, rfl⟩ := Prod.mk.inj (Except.ok.inj hpeek)
  obtain ⟨stop, ts₁, hset, h⟩ := bind_eq_ok.1 h
  obtain ⟨rfl, rfl⟩ := pure_eq_ok.1 h
  obtain ⟨first, between, closing, rfl, hbrace, hstop⟩ :=
    exists_closing_of_selectionSet (Nat.le_refl _) hset
  exact ⟨first, between, closing, rfl, hbrace, rfl, hstop.symm⟩

/-- A fragment ranges from its keyword to the end of its selection set. -/
theorem spans_fragment : fragment.Spans := by
  intro ts executable rest h
  obtain ⟨first, ts₁, hfirst, h⟩ := bind_eq_ok.1 h
  obtain ⟨t, rfl, ht⟩ := take_eq_ok hfirst
  obtain rfl : t = first := Option.some.inj ht
  obtain ⟨name, ts₂, hname, h⟩ := bind_eq_ok.1 h
  obtain ⟨condition, ts₃, hcondition, h⟩ := bind_eq_ok.1 h
  obtain ⟨directives, ts₄, hdirectives, h⟩ := bind_eq_ok.1 h
  obtain ⟨stop, ts₅, hset, h⟩ := bind_eq_ok.1 h
  obtain ⟨rfl, rfl⟩ := pure_eq_ok.1 h
  -- what stands between the keyword and the selection set
  obtain ⟨used₁, rfl⟩ := advances_take _ hname
  obtain ⟨used₂, rfl⟩ := advances_typeCondition hcondition
  obtain ⟨used₃, rfl⟩ := advances_queryDirectives hdirectives
  rw [← List.append_assoc, ← List.append_assoc]
  exact spansIn_of_selectionSet rfl hset

/-! ## Definitions -/

section Answers

variable {P : Definition → Prop} (h : ∀ declaration, P (.type declaration))
include h

/-- The definition of a type is answered as such. -/
theorem answers_typeDefinition (kind : TypeKind) : (typeDefinition kind).Answers P :=
  answers_bind fun _ => answers_bind fun _ => answers_pure (h _)

/-- The extension of a type is answered as a type. -/
theorem answers_typeExtension (kind : TypeKind) : (typeExtension kind).Answers P := by
  refine answers_bind fun _ => answers_bind fun _ => answers_bind fun _ => ?_
  -- an extension must have a part
  split
  · exact answers_pure (h _)
  · exact fun ts d rest hok => absurd hok (blame_ne_ok ts _)

end Answers

/-- Whether a definition is no operation and no fragment. -/
def IsOther (d : Definition) : Prop :=
  ∀ executable, d ≠ .executable executable

/-- What is read behind a keyword is no operation and no fragment. -/
theorem answers_of_behind {word : String} {p : Reader Definition} {q : Sweep (List Directive)}
    (h : Behind word p q) : p.Answers IsOther := by
  cases h with
  | schema => exact answers_schemaDefinition fun _ _ => nofun
  | directive => exact answers_directiveDefinition fun _ => nofun
  | @type _ kind => exact answers_typeDefinition (fun _ _ => nofun) kind

/-- What is read behind the keyword of an extension is no operation and no fragment. -/
theorem answers_of_extends {word : String} {p : Reader Definition} {q : Sweep (List Directive)}
    (h : Extends word p q) : p.Answers IsOther := by
  cases h with
  | schema => exact answers_schemaExtension fun _ _ => nofun
  | @type _ kind => exact answers_typeExtension (fun _ _ => nofun) kind

/-- The three ways to read an operation or a fragment. -/
inductive IsRead (executable : Executable) (rest : List Token) : List Token → Prop
  | query {t : Token} {ts : List Token} (ht : t.kind = .mark '\x7b')
      (h : shorthandQuery (t :: ts) = .ok (executable, rest)) : IsRead executable rest (t :: ts)
  | fragment {t : Token} {ts : List Token}
      (ht : t.kind = .name "fragment" ∨
        t.isString = true ∧ wordBehind (t :: ts) = some "fragment")
      (h : fragment (t :: ts) = .ok (executable, rest)) : IsRead executable rest (t :: ts)
  | operation {t : Token} {ts : List Token} (ht : (operationKind? t).isSome = true)
      (h : operation (t :: ts) = .ok (executable, rest)) : IsRead executable rest (t :: ts)

/-- An operation or a fragment is what the reader for it has read. -/
theorem map_eq_ok {p : Reader Executable} {executable : Executable} {ts rest : List Token}
    (h : (Definition.executable <$> p) ts = .ok (.executable executable, rest)) :
    p ts = .ok (executable, rest) := by
  rw [map_eq_pure_bind] at h
  obtain ⟨found, mid, hok, hpure⟩ := bind_eq_ok.1 h
  obtain ⟨hfound, rfl⟩ := pure_eq_ok.1 hpure
  obtain rfl : found = executable := Definition.executable.inj hfound
  exact hok

/-- A definition that is an operation or a fragment is read in one of these ways. -/
theorem isRead_of_definition {executable : Executable} {ts rest : List Token}
    (h : definition ts = .ok (.executable executable, rest)) : IsRead executable rest ts := by
  obtain ⟨p, q, hchosen⟩ := exists_chosen_of_ok h
  rw [hchosen.reader_eq] at h
  -- the other readers answer no operation and no fragment, so they were not chosen
  cases hchosen with
  | query ht => exact .query ht (map_eq_ok h)
  | fragment ht => exact .fragment ht (map_eq_ok h)
  | operation ht => exact .operation ht (map_eq_ok h)
  | keyword _ hbehind => exact absurd rfl (answers_of_behind hbehind h executable)
  | @described _ _ _ p q _ _ hbehind =>
    have hassoc : description *> p = description >>= fun _ => p := seqRight_eq_bind _ _
    rw [hassoc] at h
    have hanswers : (description >>= fun _ => p).Answers IsOther :=
      answers_bind fun _ => answers_of_behind hbehind
    exact absurd rfl (hanswers h executable)
  | extension _ _ hextends => exact absurd rfl (answers_of_extends hextends h executable)

/-- A definition that is an operation or a fragment ranges over the tokens that are read for it. -/
theorem spansIn_of_definition {executable : Executable} {ts rest : List Token}
    (h : definition ts = .ok (.executable executable, rest)) : executable.SpansIn ts rest := by
  cases isRead_of_definition h with
  | query _ hok => exact spans_shorthandQuery hok
  | fragment _ hok => exact spans_fragment hok
  | operation _ hok => exact spans_operation hok

/-- A definition is taken from the front. -/
theorem advances_definition : definition.Advances := by
  intro ts d rest h
  obtain ⟨-, used, hused, -⟩ := yields_definition h
  exact ⟨used, hused⟩

end Grammar

/-! ## Documents -/

/-- The operations and fragments of a document range over tokens of its text. -/
theorem Salvage.Reads.spans {ts : List Token} {ds : List Definition} (h : Reads ts ds)
    {executable : Executable} (hmem : .executable executable ∈ ds) :
    ∃ front mid rest, ts = front ++ mid ∧ executable.SpansIn mid rest := by
  -- definition by definition, each behind the tokens of those before it
  induction h with
  | done => cases hmem
  | @next ts rest d ds hdefinition hrest ih =>
    rcases List.mem_cons.1 hmem with rfl | hmem
    · exact ⟨[], ts, rest, rfl, Grammar.spansIn_of_definition hdefinition⟩
    · obtain ⟨used, rfl⟩ := Grammar.advances_definition hdefinition
      obtain ⟨front, mid, behind, rfl, hspans⟩ := ih hmem
      exact ⟨used ++ front, mid, behind, (List.append_assoc ..).symm, hspans⟩

namespace Text

/-- The shorter of two runs at the start of a text is the start of the longer one. -/
theorem prefix_of_byteLength_le {front front' behind behind' : List Char}
    (h : front ++ behind = front' ++ behind') (hle : byteLength front ≤ byteLength front') :
    front <+: front' := by
  rcases List.prefix_or_prefix_of_prefix ⟨behind, h⟩ ⟨behind', rfl⟩ with hprefix | hprefix
  · exact hprefix
  · obtain ⟨between, rfl⟩ := hprefix
    -- a longer run would take at least one byte more
    cases between with
    | nil => simp
    | cons c between =>
      have hc := c.utf8Size_pos
      simp only [byteLength_append, byteLength_cons] at hle
      omega

end Text

/-- From a token to a closing brace behind it a text goes on without a break. -/
theorem Token.exists_cut {text : String} {first closing : Token}
    (hfirst : first ∈ Token.ofText text) (hclosing : closing ∈ Token.ofText text)
    (hle : first.stop ≤ closing.start) (hlt : first.start < first.stop)
    (hmark : closing.kind = .mark '\x7d') :
    ∃ front middle behind, text.toList = front ++ (middle ++ '\x7d' :: behind) ∧
      Text.byteLength front = first.start ∧
      first.start + Text.byteLength middle = closing.start ∧ closing.stop = closing.start + 1 := by
  obtain ⟨front, c, cs, n, htext, -, hfront, -⟩ := Token.exists_lexeme_ofText hfirst
  obtain ⟨front', c', cs', n', htext', hlexeme, hfront', hstop'⟩ :=
    Token.exists_lexeme_ofText hclosing
  rw [hmark] at hlexeme
  obtain ⟨rfl, rfl⟩ := Token.lexeme_of_mark hlexeme
  -- both stand in the same text, and the brace is further on
  have hprefix : front <+: front' :=
    Text.prefix_of_byteLength_le (htext.symm.trans htext') (by omega)
  obtain ⟨middle, rfl⟩ := hprefix
  rw [Text.byteLength_append] at hfront'
  refine ⟨front, middle, cs', by rw [htext', List.append_assoc], hfront.symm, by omega, ?_⟩
  rw [hstop']
  rfl

namespace Document

variable {text : String}

/-- The range of an operation or a fragment holds a piece of the text, which is not empty. -/
theorem exists_slice_of_mem_executables (h : (ofText text).isSound = true)
    {executable : Executable} (hmem : executable ∈ (ofText text).executables) :
    ∃ front slice behind, text.toList = front ++ (slice ++ behind) ∧ slice ≠ [] ∧
      executable.start = Text.byteLength front ∧
      executable.stop = executable.start + Text.byteLength slice := by
  -- the executables are picked out of the definitions
  have hdefinition : .executable executable ∈ (ofText text).definitions := by
    obtain ⟨d, hd, hpick⟩ := List.mem_filterMap.1 hmem
    cases d with
    | executable found =>
      obtain rfl : found = executable := Option.some.inj hpick
      exact hd
    | _ => cases hpick
  obtain ⟨done, mid, rest, htokens, first, between, closing, rfl, hmark, hstart, hstop⟩ :=
    (reads_ofText h).spans hdefinition
  have hfirst : first ∈ Token.ofText text := by simp [htokens]
  have hclosing : closing ∈ Token.ofText text := by simp [htokens]
  -- the first token ends before the last one starts
  have hpairwise := Token.pairwise_stop_ofText text
  rw [htokens] at hpairwise
  have hmid := (List.pairwise_append.1 hpairwise).2.1
  obtain ⟨hlt, hle⟩ := (List.pairwise_cons.1 hmid).1 closing (by simp)
  obtain ⟨front, middle, behind, htext, hfront, hmiddle, hbrace⟩ :=
    Token.exists_cut hfirst hclosing hle hlt hmark
  refine ⟨front, middle ++ ['\x7d'], behind, by simp [htext], by simp, by omega, ?_⟩
  rw [Text.byteLength_append]
  show _ = _ + (_ + 1)
  omega

/-- The range of an operation or a fragment can be cut out of the text. -/
theorem slice?_of_mem_executables (h : (ofText text).isSound = true) {executable : Executable}
    (hmem : executable ∈ (ofText text).executables) :
    ∃ slice, Text.slice? text.toList executable.start executable.stop = some slice := by
  obtain ⟨front, slice, behind, htext, -, hstart, hstop⟩ := exists_slice_of_mem_executables h hmem
  exact ⟨slice, by rw [htext, hstop, hstart, Text.slice?_append]⟩

end Document

end SchemaAtlas
