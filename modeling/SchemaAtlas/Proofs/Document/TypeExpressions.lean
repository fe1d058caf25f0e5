import SchemaAtlas.Document.TypeTree
import SchemaAtlas.Proofs.Document.Spelling
import SchemaAtlas.Proofs.Document.Taking
import SchemaAtlas.Proofs.Document.Readings

/-!
# Type expressions

The types that can be written, beside the reader of types. What it reads is the tokens of one
expression, with nothing behind them that goes on with it, and every expression that is not nested
too deeply is read from its tokens. So the tokens of an expression tell it from every other one.

* `TypeExpr.renders_ref`, `TypeExpr.renders_tree`   the three readings of an expression
* `TypeTree.signature?_eq_none_iff`                 readings of trees, which may be incomplete
* `TypeExpr.takes`              an expression is read from its tokens
* `TypeExpr.eq_of_begins`       tokens begin with one expression at most
* `Grammar.exists_typeExpr`     what is read is an expression
* `TypeExpr.written_text`       an expression is written by its text
-/

namespace SchemaAtlas

open Token (Kind)

/-- A type as it can be written: a name or a list of a type, and either may be marked as
non-null. -/
inductive TypeExpr where
  | name (word : String)
  | list (item : TypeExpr)
  | nonNullName (word : String)
  | nonNullList (item : TypeExpr)

namespace TypeExpr

/-- The expression as it is written without ignored characters. -/
def text : TypeExpr → String
  | name word => word
  | list item => "[" ++ item.text ++ "]"
  | nonNullName word => word ++ "!"
  | nonNullList item => "[" ++ item.text ++ "]" ++ "!"

/-- The kinds of its tokens. -/
def kinds : TypeExpr → List Kind
  | name word => [.name word]
  | list item => .mark '[' :: (item.kinds ++ [.mark ']'])
  | nonNullName word => [.name word, .mark '!']
  | nonNullList item => .mark '[' :: (item.kinds ++ [.mark ']', .mark '!'])

/-- The name inside all wrappers. -/
def base : TypeExpr → String
  | name word => word
  | list item => item.base
  | nonNullName word => word
  | nonNullList item => item.base

/-- How many list wrappers the expression has, one inside the other. -/
def lists : TypeExpr → Nat
  | name _ => 0
  | list item => item.lists + 1
  | nonNullName _ => 0
  | nonNullList item => item.lists + 1

/-- What the expression is read as. -/
def ref : TypeExpr → TypeRef
  | name word => .named word
  | list item => .list item.ref
  | nonNullName word => .nonNull (.named word)
  | nonNullList item => .nonNull (.list item.ref)

/-- The node of a syntax tree for the expression. -/
def tree : TypeExpr → TypeTree
  | name word => .named (some word)
  | list item => .list (some item.tree)
  | nonNullName word => .nonNull (some (some word)) none
  | nonNullList item => .nonNull none (some (some item.tree))

/-- Whether no mark makes the expression non-null. -/
def isNullable : TypeExpr → Bool
  | name _ => true
  | list _ => true
  | nonNullName _ => false
  | nonNullList _ => false

end TypeExpr

/-! ## Readings -/

/-- Whether a signature, a name and a flag for lists are what an expression says: its text, the name
inside all wrappers, and whether it has a list wrapper anywhere. -/
structure TypeExpr.Renders (t : TypeExpr) (signature base : Option String) (isList : Bool) :
    Prop where
  signature : signature = some t.text
  base : base = some t.base
  list : isList = true ↔ 0 < t.lists

/-- The readings of what an expression is read as are what the expression says. -/
theorem TypeExpr.renders_ref (t : TypeExpr) :
    t.Renders t.ref.signature? t.ref.base? t.ref.isList := by
  induction t with
  | name word => exact ⟨rfl, rfl, by simp [ref, TypeRef.isList, lists]⟩
  | list item ih =>
    refine ⟨?_, ih.base, by simp [ref, TypeRef.isList, lists]⟩
    rw [ref, TypeRef.signature?, ih.signature]
    rfl
  | nonNullName word => exact ⟨rfl, rfl, by simp [ref, TypeRef.isList, lists]⟩
  | nonNullList item ih =>
    refine ⟨?_, ih.base, by simp [ref, TypeRef.isList, lists]⟩
    rw [ref, TypeRef.signature?, TypeRef.signature?, ih.signature]
    rfl

/-- What an expression is read as tells it from every other one. -/
theorem TypeExpr.ref_injective {t t' : TypeExpr} (h : t.ref = t'.ref) : t = t' := by
  -- constructor by constructor: the reading keeps apart what was written differently
  induction t generalizing t' with
  | name word =>
    cases t' <;> simp_all [ref]
  | list item ih =>
    cases t' with
    | list item' => exact congrArg list (ih (TypeRef.list.inj h))
    | _ => simp [ref] at h
  | nonNullName word =>
    cases t' <;> simp_all [ref]
  | nonNullList item ih =>
    cases t' with
    | nonNullList item' =>
      exact congrArg nonNullList (ih (TypeRef.list.inj (TypeRef.nonNull.inj h)))
    | _ => simp [ref] at h

/-- A type has a signature if and only if it has a name inside all wrappers. -/
theorem TypeRef.signature?_eq_none_iff (type : TypeRef) :
    type.signature? = none ↔ type.base? = none := by
  induction type with
  | missing => simp [signature?, base?]
  | named name => simp [signature?, base?]
  | list item ih => simp [signature?, base?, ih]
  | nonNull inner ih => simp [signature?, base?, ih]

namespace TypeTree

/-- A tree has the name of the type that it is read as. -/
theorem base?_toRef (tree : TypeTree) : tree.toRef.base? = tree.base? := by
  induction tree using toRef.induct <;> simp_all [toRef, TypeRef.base?, base?]

/-- A tree has the signature of the type that it is read as. -/
theorem signature?_toRef (tree : TypeTree) : tree.toRef.signature? = tree.signature? := by
  induction tree using toRef.induct <;>
    simp_all [toRef, TypeRef.signature?, signature?, Function.comp_def]

/-- A non-null node does not hold a named type and a list type. -/
theorem isList_toRef (tree : TypeTree) (h : ∀ name item, tree ≠ nonNull (some name) (some item)) :
    tree.toRef.isList = tree.isList := by
  -- node by node, complete or not
  rcases tree with name | item | ⟨name, item⟩
  · cases name <;> rfl
  · cases item <;> rfl
  · rcases name with _ | _ | name
    · rcases item with _ | _ | item <;> rfl
    · cases item with
      | none => rfl
      | some item => exact absurd rfl (h none item)
    · cases item with
      | none => rfl
      | some item => exact absurd rfl (h (some name) item)

/-- A tree, complete or not, has a signature if and only if it has a name inside all wrappers. -/
theorem signature?_eq_none_iff (tree : TypeTree) : tree.signature? = none ↔ tree.base? = none := by
  rw [← signature?_toRef, ← base?_toRef]
  exact tree.toRef.signature?_eq_none_iff

end TypeTree

/-- The readings of a tree for an expression are what the expression says. -/
theorem TypeExpr.renders_tree (t : TypeExpr) :
    t.Renders t.tree.signature? t.tree.base? t.tree.isList := by
  -- a tree for an expression has all its parts, so nothing is missing from the reference
  have href : t.tree.toRef = t.ref := by
    induction t with
    | list item ih => simp [tree, TypeTree.toRef, ref, ih]
    | nonNullList item ih => simp [tree, TypeTree.toRef, ref, ih]
    | _ => rfl
  have hlist : t.tree.toRef.isList = t.tree.isList :=
    t.tree.isList_toRef fun name item => by cases t <;> simp [tree]
  rw [← TypeTree.signature?_toRef, ← TypeTree.base?_toRef, ← hlist, href]
  exact t.renders_ref

/-! ## Reading -/

namespace Grammar

open Reader

/-- Whether no non-null mark follows. -/
def Unmarked (us : List Token) : Prop :=
  us.head?.any (·.isMark '!') = false

/-- The mark that may follow a type. -/
def nonNullMark (base : TypeRef) : Reader TypeRef := do
  match ← maybe (·.isMark '!') (mark '!') with
  | some _ => return .nonNull base
  | none => return base

/-- A type is a list in brackets or a name, and then the mark, if there is one. -/
theorem typeOf_eq (nested : Reader TypeRef) :
    typeOf nested = (maybe (·.isMark '[') (listType nested) >>= fun found =>
      match found with
      | some list => nonNullMark list
      | none => name >>= fun n => nonNullMark (.named n.text)) :=
  rfl

/-- Types are read in the same way at every level. -/
theorem exists_typeOf (levels : Nat) : ∃ nested, typeRef levels = typeOf nested := by
  cases levels with
  | zero => exact ⟨_, rfl⟩
  | succ levels => exact ⟨_, rfl⟩

/-- The mark behind a type is taken. -/
theorem takes_nonNullMark {t : Token} (h : t.kind = .mark '!') (base : TypeRef) :
    (nonNullMark base).Takes Anywhere [t] (.nonNull base) := by
  have hmark := (takes_mark (E := Anywhere) h).maybe (·.isMark '!')
    (by simp [Token.isMark, h])
  exact hmark.bind_pure fun _ => rfl

/-- Without a mark the type is answered as it is. -/
theorem takes_noMark (base : TypeRef) : (nonNullMark base).Takes Unmarked [] base :=
  (takes_maybe_nil _ _).bind_pure fun _ => rfl

/-- There is a mark behind a type and it is taken, or there is none. -/
theorem nonNullMark_eq_ok {base type : TypeRef} {us rest : List Token}
    (h : nonNullMark base us = .ok (type, rest)) :
    (∃ t, us = t :: rest ∧ t.kind = .mark '!' ∧ type = .nonNull base) ∨
      us = rest ∧ Unmarked us ∧ type = base := by
  cases us with
  | nil =>
    obtain ⟨rfl, rfl⟩ := Prod.mk.inj (Except.ok.inj h)
    exact .inr ⟨rfl, rfl, rfl⟩
  | cons t us =>
    obtain ⟨found, mid, hmaybe, h⟩ := bind_eq_ok.1 h
    rw [Follows.maybe_cons] at hmaybe
    -- with the mark in hand, and without it
    split at hmaybe
    · next hmark =>
      rw [map_eq_pure_bind, bind_eq_ok] at hmaybe
      obtain ⟨t', _, htake, hpure⟩ := hmaybe
      obtain ⟨rfl, rfl⟩ := pure_eq_ok.1 hpure
      obtain ⟨rfl, rfl⟩ := pure_eq_ok.1 h
      obtain ⟨hcons, ht⟩ := mark_eq_ok htake
      obtain ⟨rfl, rfl⟩ := List.cons.inj hcons
      exact .inl ⟨t, rfl, ht, rfl⟩
    · next hmark =>
      obtain ⟨rfl, rfl⟩ := Prod.mk.inj (Except.ok.inj hmaybe)
      obtain ⟨rfl, rfl⟩ := pure_eq_ok.1 h
      exact .inr ⟨rfl, by simpa [Unmarked] using hmark, rfl⟩

end Grammar

/-! ## Expressions are read -/

/-- Whether tokens begin with those of an expression and do not go on with it. -/
def TypeExpr.Begins (t : TypeExpr) (us : List Token) : Prop :=
  ∃ part behind, us = part ++ behind ∧ part.map Token.kind = t.kinds ∧
    (t.isNullable = true → Grammar.Unmarked behind)

section Takes

open Reader Grammar

variable {levels : Nat} {part : List Token} {item : TypeExpr} {opening closing : Token}

/-- A name is read as a type, with what is read of the mark behind it. -/
theorem takes_typeName {n : Token} {word : String} {E : List Token → Prop} {type : TypeRef}
    (hn : n.kind = .name word) (h : (nonNullMark (.named word)).Takes E part type) :
    (typeRef levels).Takes E (n :: part) type := by
  obtain ⟨nested, heq⟩ := exists_typeOf levels
  rw [heq, typeOf_eq]
  -- a name does not open a list
  refine (takes_maybe_nil _ _).bind_nil ((takes_name hn).cons h) ?_
  intro rest _
  simp [Token.isMark, hn]

/-- A list is read as a type one level further up than its item. -/
theorem takes_typeList {inner : List Token} {E : List Token → Prop} {type item : TypeRef}
    (hopening : opening.kind = .mark '[') (hclosing : closing.kind = .mark ']')
    (hitem : (typeRef levels).Takes Unmarked inner item)
    (h : (nonNullMark (.list item)).Takes E part type) :
    (typeRef (levels + 1)).Takes E (opening :: (inner ++ [closing]) ++ part) type := by
  have hlist : (listType (typeRef levels)).Takes Anywhere (opening :: (inner ++ [closing]))
      (.list item) := by
    refine (takes_mark hopening).cons (hitem.bind_of ?_ ?_)
    · exact (takes_mark hclosing).bind_pure fun _ => rfl
    · intro rest _
      simp [Unmarked, Token.isMark, hclosing]
  have hmaybe := hlist.maybe (·.isMark '[') (by simp [Token.isMark, hopening])
  rw [typeRef, typeOf_eq]
  exact hmaybe.bind h

/-- An expression that is not nested too deeply is read from its tokens. -/
theorem TypeExpr.takes (t : TypeExpr) (hlevels : t.lists ≤ levels)
    (hkinds : part.map Token.kind = t.kinds) :
    (typeRef levels).Takes (fun rest => t.isNullable = true → Unmarked rest) part t.ref := by
  -- each list takes one level, which its brackets are read at
  induction t generalizing levels part with
  | name word =>
    obtain ⟨n, _, rfl, hn, hrest⟩ := List.map_eq_cons_iff.1 hkinds
    obtain rfl := List.map_eq_nil_iff.1 hrest
    exact takes_typeName hn ((takes_noMark _).mono fun rest hrest => hrest rfl)
  | nonNullName word =>
    obtain ⟨n, _, rfl, hn, hrest⟩ := List.map_eq_cons_iff.1 hkinds
    obtain ⟨mark, _, rfl, hmark, hrest⟩ := List.map_eq_cons_iff.1 hrest
    obtain rfl := List.map_eq_nil_iff.1 hrest
    exact takes_typeName hn ((takes_nonNullMark hmark _).mono fun _ _ => trivial)
  | list item ih =>
    obtain ⟨opening, _, rfl, hopening, hrest⟩ := List.map_eq_cons_iff.1 hkinds
    obtain ⟨inner, _, rfl, hinner, hrest⟩ := List.map_eq_append_iff.1 hrest
    obtain ⟨closing, _, rfl, hclosing, hrest⟩ := List.map_eq_cons_iff.1 hrest
    obtain rfl := List.map_eq_nil_iff.1 hrest
    cases levels with
    | zero => simp [lists] at hlevels
    | succ levels =>
      have hitem := (ih (Nat.le_of_succ_le_succ hlevels) hinner).mono fun _ hrest _ => hrest
      have hlist := takes_typeList hopening hclosing hitem (takes_noMark _)
      rw [List.append_nil] at hlist
      exact hlist.mono fun _ hrest => hrest rfl
  | nonNullList item ih =>
    obtain ⟨opening, _, rfl, hopening, hrest⟩ := List.map_eq_cons_iff.1 hkinds
    obtain ⟨inner, _, rfl, hinner, hrest⟩ := List.map_eq_append_iff.1 hrest
    obtain ⟨closing, _, rfl, hclosing, hrest⟩ := List.map_eq_cons_iff.1 hrest
    obtain ⟨mark, _, rfl, hmark, hrest⟩ := List.map_eq_cons_iff.1 hrest
    obtain rfl := List.map_eq_nil_iff.1 hrest
    cases levels with
    | zero => simp [lists] at hlevels
    | succ levels =>
      have hitem := (ih (Nat.le_of_succ_le_succ hlevels) hinner).mono fun _ hrest _ => hrest
      have hlist := takes_typeList hopening hclosing hitem (takes_nonNullMark hmark _)
      rw [List.cons_append, List.append_assoc] at hlist
      exact hlist.mono fun _ _ => trivial

/-- Tokens begin with one expression at most. -/
theorem TypeExpr.eq_of_begins {t t' : TypeExpr} {us : List Token} (h : t.Begins us)
    (h' : t'.Begins us) : t = t' := by
  obtain ⟨part, behind, rfl, hkinds, hbehind⟩ := h
  obtain ⟨part', behind', hus, hkinds', hbehind'⟩ := h'
  -- both are read from the tokens, with as many levels as the two have lists
  have hread := t.takes (Nat.le_add_right t.lists t'.lists) hkinds behind hbehind
  have hread' := t'.takes (Nat.le_add_left t'.lists t.lists) hkinds' behind' hbehind'
  rw [hus, hread'] at hread
  exact ref_injective (Prod.mk.inj (Except.ok.inj hread)).1.symm

end Takes

/-! ## What is read is an expression -/

namespace Grammar

open Reader

variable {us rest : List Token} {type : TypeRef}

/-- A token that gives a name is a name. -/
theorem kind_of_name? {t : Token} {n : Name} (h : t.name? = some n) : t.kind = .name n.text := by
  obtain ⟨kind, start, stop, afterComma⟩ := t
  cases kind with
  | name text =>
    obtain rfl := Option.some.inj h
    rfl
  | _ => cases h

/-- What a reader of types reads is an expression, if the reader of items reads expressions. -/
theorem exists_typeExpr_of_typeOf {nested : Reader TypeRef}
    (hnested : ∀ ⦃us type rest⦄, nested us = .ok (type, rest) →
      ∃ t part, us = part ++ rest ∧ part.map Token.kind = TypeExpr.kinds t ∧ type = t.ref)
    (h : typeOf nested us = .ok (type, rest)) :
    ∃ t part, us = part ++ rest ∧ part.map Token.kind = TypeExpr.kinds t ∧ type = t.ref ∧
      (t.isNullable = true → Unmarked rest) := by
  rw [typeOf_eq] at h
  obtain ⟨found, mid, hfound, h⟩ := bind_eq_ok.1 h
  obtain ⟨rfl, rfl⟩ | ⟨list, rfl, hlist⟩ := maybe_eq_ok hfound
  · -- a name
    obtain ⟨n, mid, hname, hbehind⟩ := bind_eq_ok.1 h
    obtain ⟨t, rfl, ht⟩ := take_eq_ok hname
    have hkind := kind_of_name? ht
    obtain ⟨mark, rfl, hmark, rfl⟩ | ⟨rfl, hunmarked, rfl⟩ := nonNullMark_eq_ok hbehind
    · exact ⟨.nonNullName n.text, [t, mark], rfl, by simp [TypeExpr.kinds, hkind, hmark], rfl,
        fun h => by cases h⟩
    · exact ⟨.name n.text, [t], rfl, by simp [TypeExpr.kinds, hkind], rfl, fun _ => hunmarked⟩
  · -- a list of what its items are
    obtain ⟨opening, _, hmark, hbehind⟩ := bind_eq_ok.1 hlist
    obtain ⟨rfl, hopening⟩ := mark_eq_ok hmark
    obtain ⟨item, _, hitem, hend⟩ := bind_eq_ok.1 hbehind
    obtain ⟨t, part, rfl, hkinds, rfl⟩ := hnested hitem
    obtain ⟨closing, _, hmark, hpure⟩ := bind_eq_ok.1 hend
    obtain ⟨rfl, hclosing⟩ := mark_eq_ok hmark
    obtain ⟨rfl, rfl⟩ := pure_eq_ok.1 hpure
    obtain ⟨mark, rfl, hmark, rfl⟩ | ⟨rfl, hunmarked, rfl⟩ := nonNullMark_eq_ok h
    · exact ⟨.nonNullList t, opening :: (part ++ [closing, mark]), by simp,
        by simp [TypeExpr.kinds, hopening, hkinds, hclosing, hmark], rfl, fun h => by cases h⟩
    · exact ⟨.list t, opening :: (part ++ [closing]), by simp,
        by simp [TypeExpr.kinds, hopening, hkinds, hclosing], rfl, fun _ => hunmarked⟩

/-- What is read as a type is an expression that the tokens begin with. -/
theorem exists_typeExpr {levels : Nat} (h : typeRef levels us = .ok (type, rest)) :
    ∃ t : TypeExpr, t.Begins us ∧ type = t.ref := by
  -- by induction on the levels, which bound the lists
  have hread : ∃ t part, us = part ++ rest ∧ part.map Token.kind = TypeExpr.kinds t ∧
      type = t.ref ∧ (t.isNullable = true → Unmarked rest) := by
    induction levels generalizing us type rest with
    | zero => exact exists_typeExpr_of_typeOf (fun _ _ _ h => by cases h) h
    | succ levels ih =>
      refine exists_typeExpr_of_typeOf (fun us type rest h => ?_) h
      obtain ⟨t, part, hus, hkinds, htype, -⟩ := ih h
      exact ⟨t, part, hus, hkinds, htype⟩
  obtain ⟨t, part, hus, hkinds, htype, hrest⟩ := hread
  exact ⟨t, ⟨part, rest, hus, hkinds, hrest⟩, htype⟩

end Grammar

/-! ## Expressions in a text -/

namespace TypeExpr

/-- Whether the names of an expression are words. -/
def IsWordy : TypeExpr → Prop
  | name word => Token.IsWord word
  | list item => item.IsWordy
  | nonNullName word => Token.IsWord word
  | nonNullList item => item.IsWordy

/-- The text of an expression writes its tokens in front of any others. -/
theorem written_append {t : TypeExpr} (h : t.IsWordy) {kinds : List Kind} {rest : List Char}
    (hapart : Token.Apart rest) (hrest : Token.Written kinds rest) :
    Token.Written (t.kinds ++ kinds) (t.text.toList ++ rest) := by
  -- what follows an item is a bracket, which goes on with no word
  induction t generalizing kinds rest with
  | name word => exact .name h hapart hrest
  | nonNullName word =>
    have hword := Token.Written.word (c := '!') h (by decide) (.mark (by decide) hrest)
    simpa [TypeExpr.kinds, text] using hword
  | list item ih =>
    have hitem := ih h (Token.apart_of_isPunctuator (c := ']') (by decide) rest)
      (.mark (by decide) hrest)
    have hlist := Token.Written.mark (c := '[') (by decide) hitem
    simpa [TypeExpr.kinds, text] using hlist
  | nonNullList item ih =>
    have hitem := ih h (Token.apart_of_isPunctuator (c := ']') (by decide) ('!' :: rest))
      (.mark (by decide) (.mark (by decide) hrest))
    have hlist := Token.Written.mark (c := '[') (by decide) hitem
    simpa [TypeExpr.kinds, text] using hlist

/-- The text of an expression writes its tokens. -/
theorem written_text {t : TypeExpr} (h : t.IsWordy) : Token.Written t.kinds t.text.toList := by
  simpa using written_append h Token.apart_nil .nil

end TypeExpr

end SchemaAtlas
