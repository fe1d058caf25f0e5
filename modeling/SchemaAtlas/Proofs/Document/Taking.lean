import SchemaAtlas.Proofs.Salvage.LockStep

/-!
# Readers on given tokens

What a reader answers on tokens that are known by their kinds, whatever stands behind them. There is
one lemma for each way to put readers together, and one for each production of values and
directives.

* `Reader.Takes`           a reader takes just the given tokens
* `Reader.Takes.many`      a loop takes them part by part
* `Reader.exists_parts`    the parts of several items
* `Grammar.takes_list`, `Grammar.takes_object`   values
* `Grammar.takes_directive`                      a directive with its arguments
-/

namespace SchemaAtlas

open Token (Kind)

namespace Reader

variable {α γ : Type} {E E' : List Token → Prop} {p : Reader α} {part part' : List Token} {a : α}
  {b : γ} {t : Token}

/-- Whether a reader takes just the tokens of a part and answers a given value, if what follows is
as `E` says. -/
def Takes (E : List Token → Prop) (p : Reader α) (part : List Token) (a : α) : Prop :=
  ∀ rest, E rest → p (part ++ rest) = .ok (a, rest)

/-- A reader that takes a part takes it under stronger conditions as well. -/
theorem Takes.mono (h : p.Takes E part a) (hE : ∀ rest, E' rest → E rest) : p.Takes E' part a :=
  fun rest hrest => h rest (hE rest hrest)

/-- A token that is accepted is taken. -/
theorem takes_take {accept : Token → Option α} (h : accept t = some a) :
    (take accept).Takes E [t] a := by
  intro rest _
  simp [take, h]

/-- A mark is taken. -/
theorem takes_mark {c : Char} (h : t.kind = .mark c) : (mark c).Takes E [t] t :=
  takes_take (by simp [Token.isMark, h])

/-- A keyword is taken. -/
theorem takes_word {text : String} (h : t.kind = .name text) : (word text).Takes E [t] t :=
  takes_take (by simp [Token.isWord, h])

/-- A name is taken, with the place where it starts. -/
theorem takes_name {text : String} (h : t.kind = .name text) : name.Takes E [t] ⟨text, t.start⟩ :=
  takes_take (by simp [Token.name?, h])

/-- The second reader goes on where the first one ends. -/
theorem Takes.bind_of {f : α → Reader γ} (hp : p.Takes E' part a)
    (hf : (f a).Takes E part' b) (hE : ∀ rest, E rest → E' (part' ++ rest)) :
    (p >>= f).Takes E (part ++ part') b := by
  intro rest hrest
  rw [List.append_assoc]
  exact bind_eq_ok.2 ⟨a, part' ++ rest, hp _ (hE rest hrest), hf rest hrest⟩

/-- The first reader takes nothing. -/
theorem Takes.bind_nil {f : α → Reader γ} (hp : p.Takes E' [] a) (hf : (f a).Takes E part b)
    (hE : ∀ rest, E rest → E' (part ++ rest)) : (p >>= f).Takes E part b :=
  hp.bind_of hf hE

/-- The second reader goes on where the first one ends, which does not look at what follows. -/
theorem Takes.bind {f : α → Reader γ} (hp : p.Takes Anywhere part a)
    (hf : (f a).Takes E part' b) : (p >>= f).Takes E (part ++ part') b :=
  hp.bind_of hf fun _ _ => trivial

/-- The first token is taken by itself. -/
theorem Takes.cons {f : α → Reader γ} (hp : p.Takes Anywhere [t] a) (hf : (f a).Takes E part b) :
    (p >>= f).Takes E (t :: part) b :=
  hp.bind hf

/-- The last reader leaves nothing to the answer. -/
theorem Takes.bind_pure {f : α → Reader γ} (hp : p.Takes E part a)
    (hf : ∀ rest, f a rest = .ok (b, rest)) : (p >>= f).Takes E part b := by
  intro rest hrest
  exact bind_eq_ok.2 ⟨a, rest, hp rest hrest, hf rest⟩

/-- A part that may be left out is there. -/
theorem Takes.maybe (h : p.Takes E (t :: part) a) (starts : Token → Bool)
    (ht : starts t = true) : (maybe starts p).Takes E (t :: part) (some a) := by
  intro rest hrest
  rw [List.cons_append, Follows.maybe_cons, if_pos ht, ← List.cons_append, map_eq_pure_bind]
  exact bind_eq_ok.2 ⟨a, rest, h rest hrest, pure_eq_ok.2 ⟨rfl, rfl⟩⟩

/-- A part that may be left out is not there. -/
theorem takes_maybe_nil (starts : Token → Bool) (p : Reader α) :
    (maybe starts p).Takes (·.head?.any starts = false) [] none := by
  intro rest hrest
  cases rest with
  | nil => rfl
  | cons t rest =>
    have ht : ¬starts t = true := by simpa using hrest
    rw [List.nil_append, Follows.maybe_cons, if_neg ht]

section Loop

variable {starts : Token → Bool} {parts : List (List Token)} {as : List α}

/-- A part is followed by the start of the next one, or by what is behind the loop. -/
theorem behind_part {Q : List Token → α → Prop} {rest : List Token}
    (h : List.Forall₂ (fun part a => part.head?.any starts = true ∧ Q part a) parts as)
    (hstarts : ∀ rest, rest.head?.any starts = true → E rest) (hE : E rest) :
    E (parts.flatten ++ rest) := by
  cases h with
  | nil => exact hE
  | @cons next _ _ _ hnext _ =>
    refine hstarts _ ?_
    cases next with
    | nil => simp at hnext
    | cons t next => simpa using hnext.1

/-- The rounds of a loop that has a token in supply for each part, by induction on the parts. -/
theorem manyFrom_flatten (h : List.Forall₂ (fun part a => part.head?.any starts = true ∧
      p.Takes E part a) parts as) (hstarts : ∀ rest, rest.head?.any starts = true → E rest)
    {supply rest : List Token} (hsupply : parts.length ≤ supply.length) (hE : E rest)
    (hrest : rest.head?.any starts = false) :
    manyFrom starts p supply (parts.flatten ++ rest) = .ok (as, rest) := by
  -- without parts the loop stops at what is behind it
  induction h generalizing supply with
  | nil =>
    cases supply with
    | nil => rfl
    | cons s supply => exact bind_eq_ok.2 ⟨none, rest, takes_maybe_nil starts p rest hrest, rfl⟩
  | @cons part a parts as hpart hparts ih =>
    obtain ⟨hhead, hp⟩ := hpart
    obtain ⟨s, supply, rfl⟩ := List.exists_cons_of_length_pos
      (Nat.lt_of_lt_of_le (Nat.succ_pos _) hsupply)
    cases part with
    | nil => simp at hhead
    | cons t part =>
      -- this round takes one part, and the others are taken from the rest of the supply
      have hmaybe := hp.maybe starts (by simpa using hhead) (parts.flatten ++ rest)
        (behind_part hparts hstarts hE)
      rw [List.flatten_cons, List.append_assoc]
      refine bind_eq_ok.2 ⟨some a, _, hmaybe, ?_⟩
      exact bind_eq_ok.2 ⟨as, rest, ih (by simpa using hsupply), rfl⟩

/-- A loop takes tokens part by part. -/
theorem Takes.many_of (h : List.Forall₂ (fun part a => part.head?.any starts = true ∧
      p.Takes E part a) parts as) (hstarts : ∀ rest, rest.head?.any starts = true → E rest) :
    (many starts p).Takes (fun rest => E rest ∧ rest.head?.any starts = false)
      parts.flatten as := by
  -- no part is empty, so there are as many tokens as parts at least
  have hlength : parts.length ≤ parts.flatten.length := by
    induction h with
    | nil => simp
    | @cons part a parts as hpart _ ih =>
      have hpos : 0 < part.length := by
        cases part with
        | nil => simp at hpart
        | cons t part => simp
      simp only [List.length_cons, List.flatten_cons, List.length_append]
      omega
  rintro rest ⟨hE, hrest⟩
  refine manyFrom_flatten h hstarts ?_ hE hrest
  rw [List.length_append]
  omega

/-- A loop takes its parts if no part looks at what follows it. -/
theorem Takes.many (starts : Token → Bool) (h : List.Forall₂ (fun part a =>
      part.head?.any starts = true ∧ p.Takes Anywhere part a) parts as) :
    (many starts p).Takes (·.head?.any starts = false) parts.flatten as :=
  (many_of h fun _ _ => trivial).mono fun _ hrest => ⟨trivial, hrest⟩

/-- A loop with at least one round. -/
theorem Takes.many1 (hp : p.Takes Anywhere part a)
    (h : List.Forall₂ (fun part a => part.head?.any starts = true ∧ p.Takes Anywhere part a)
      parts as) :
    (many1 starts p).Takes (·.head?.any starts = false) (part ++ parts.flatten) (a :: as) :=
  hp.bind <| (Takes.many starts h).bind_pure fun _ => rfl

/-- A loop with at least one round, whose parts end where the next one starts. -/
theorem Takes.many1_of (h : List.Forall₂ (fun part a => part.head?.any starts = true ∧
      p.Takes E part a) parts as) (hstarts : ∀ rest, rest.head?.any starts = true → E rest)
    (hne : parts ≠ []) :
    (Reader.many1 starts p).Takes (fun rest => E rest ∧ rest.head?.any starts = false)
      parts.flatten as := by
  cases h with
  | nil => exact absurd rfl hne
  | @cons part a parts as hpart hparts =>
    have hmany := (many_of hparts hstarts).bind_pure (f := fun as => pure (a :: as)) fun _ => rfl
    exact hpart.2.bind_of hmany fun rest hrest => behind_part hparts hstarts hrest.1

/-- Items whose tokens stand one behind the other are read part by part, each from its own
tokens. -/
theorem exists_parts {β : Type} {P : β → α → Prop} {kindsOf : β → List Kind} {bs : List β}
    {ts : List Token}
    (h : ∀ b ∈ bs, ∀ part, part.map Token.kind = kindsOf b →
      ∃ a, P b a ∧ part.head?.any starts = true ∧ p.Takes E part a)
    (hkinds : ts.map Token.kind = bs.flatMap kindsOf) :
    ∃ parts as, ts = parts.flatten ∧ List.Forall₂ P bs as ∧
      List.Forall₂ (fun part a => part.head?.any starts = true ∧ p.Takes E part a) parts as := by
  -- item by item, each with as many tokens as its kinds
  induction bs generalizing ts with
  | nil =>
    obtain rfl := List.map_eq_nil_iff.1 hkinds
    exact ⟨[], [], rfl, .nil, .nil⟩
  | cons b bs ih =>
    obtain ⟨part, rest, rfl, hpart, hrest⟩ := List.map_eq_append_iff.1 hkinds
    obtain ⟨hfirst, hmore⟩ := List.forall_mem_cons.1 h
    obtain ⟨a, hP, htakes⟩ := hfirst part hpart
    obtain ⟨parts, as, rfl, hPs, hparts⟩ := ih hmore hrest
    exact ⟨part :: parts, a :: as, rfl, .cons hP hPs, .cons htakes hparts⟩

end Loop

end Reader

namespace Grammar

open Reader

variable {constant : Bool} {levels : Nat} {t t' colon : Token} {part : List Token} {word : String}
  {v : Value}

/-! ## Values -/

/-- All values are read in the same way, whatever the readers of their items and fields are. -/
theorem exists_valueOf (constant : Bool) (levels : Nat) :
    ∃ nested, value constant levels = valueOf constant nested := by
  cases levels with
  | zero => exact ⟨_, rfl⟩
  | succ levels => exact ⟨_, rfl⟩

/-- A string literal is read as a value. -/
theorem takes_string {text : String} (h : t.kind = .string text) :
    (value constant levels).Takes Anywhere [t] (.string text) := by
  obtain ⟨nested, heq⟩ := exists_valueOf constant levels
  intro rest _
  obtain ⟨kind, start, stop, afterComma⟩ := t
  obtain rfl : kind = .string text := h
  rw [heq]
  rfl

/-- A word is read as the value that it stands for. -/
theorem takes_wordValue (h : t.kind = .name word) :
    (value constant levels).Takes Anywhere [t] (wordValue ⟨word, t.start⟩) := by
  obtain ⟨nested, heq⟩ := exists_valueOf constant levels
  intro rest _
  obtain ⟨kind, start, stop, afterComma⟩ := t
  obtain rfl : kind = .name word := h
  rw [heq]
  rfl

/-- A list whose items are read part by part. -/
theorem takes_list {parts : List (List Token)} {items : List Value} (ht : t.kind = .mark '[')
    (ht' : t'.kind = .mark ']')
    (h : List.Forall₂ (fun part item => part.head?.any (!·.isMark ']') = true ∧
      (value constant levels).Takes Anywhere part item) parts items) :
    (value constant (levels + 1)).Takes Anywhere (t :: (parts.flatten ++ [t'])) (.list items) := by
  -- a list is told by its bracket, and then read in this way
  have hlist : (do
      let _ ← mark '['
      let items ← many (!·.isMark ']') (value constant levels)
      let _ ← mark ']'
      return .list items : Reader Value).Takes Anywhere (t :: (parts.flatten ++ [t']))
        (.list items) := by
    refine (takes_mark ht).cons ((Takes.many _ h).bind_of ?_ ?_)
    · exact (takes_mark ht').bind_pure fun _ => rfl
    · intro rest _
      simp [Token.isMark, ht']
  intro rest hrest
  rw [← hlist rest hrest]
  obtain ⟨kind, start, stop, afterComma⟩ := t
  obtain rfl : kind = .mark '[' := ht
  rfl

/-- The reader of a field of an object whose value is read by `nested`. -/
def objectField (nested : Reader Value) : Reader (Name × Option Value) := do
  let key ← name
  let value ← maybe (·.isMark ':') do
    let _ ← mark ':'
    nested
  return (key, value)

/-- A field of an object is read with its value. -/
theorem takes_objectField {nested : Reader Value} (ht : t.kind = .name word)
    (hcolon : colon.kind = .mark ':') (h : nested.Takes Anywhere part v) :
    (objectField nested).Takes Anywhere (t :: colon :: part) (⟨word, t.start⟩, some v) := by
  refine (takes_name ht).cons ?_
  have hvalue := (takes_mark hcolon).cons (f := fun _ => nested) h
  have hmaybe := hvalue.maybe (·.isMark ':') (by simp [Token.isMark, hcolon])
  exact hmaybe.bind_pure fun _ => rfl

/-- An object whose fields are read part by part. -/
theorem takes_object {parts : List (List Token)} {fields : List (Name × Option Value)}
    (ht : t.kind = .mark '\x7b') (ht' : t'.kind = .mark '\x7d')
    (h : List.Forall₂ (fun part field => part.head?.any isName = true ∧
      (objectField (value constant levels)).Takes Anywhere part field) parts fields) :
    (value constant (levels + 1)).Takes Anywhere (t :: (parts.flatten ++ [t']))
      (.object fields) := by
  -- an object is told by its brace, and then read in this way
  have hobject : (do
      let _ ← mark '\x7b'
      let fields ← many isName (objectField (value constant levels))
      let _ ← mark '\x7d'
      return .object fields : Reader Value).Takes Anywhere (t :: (parts.flatten ++ [t']))
        (.object fields) := by
    refine (takes_mark ht).cons ((Takes.many _ h).bind_of ?_ ?_)
    · exact (takes_mark ht').bind_pure fun _ => rfl
    · intro rest _
      simp [isName, Token.name?, ht']
  intro rest hrest
  rw [← hobject rest hrest]
  obtain ⟨kind, start, stop, afterComma⟩ := t
  obtain rfl : kind = .mark '\x7b' := ht
  rfl

/-! ## Directives -/

/-- An argument is read with its value. -/
theorem takes_argument (ht : t.kind = .name word) (hcolon : colon.kind = .mark ':')
    (h : (value constant levels).Takes Anywhere part v) :
    (argument constant levels).Takes Anywhere (t :: colon :: part)
      { name := ⟨word, t.start⟩, value := some v } := by
  refine (takes_name ht).cons ?_
  have hvalue := (takes_mark hcolon).cons (f := fun _ => value constant levels) h
  have hmaybe := hvalue.maybe (·.isMark ':') (by simp [Token.isMark, hcolon])
  exact hmaybe.bind_pure fun _ => rfl

/-- A directive whose arguments, at least one, are read part by part. -/
theorem takes_directive {at' opening closing : Token} {parts : List (List Token)} {a : Argument}
    {as : List Argument} (hat : at'.kind = .mark '@') (ht : t.kind = .name word)
    (hopening : opening.kind = .mark '(') (hclosing : closing.kind = .mark ')')
    (hfirst : (argument constant levels).Takes Anywhere part a)
    (h : List.Forall₂ (fun part a => part.head?.any isName = true ∧
      (argument constant levels).Takes Anywhere part a) parts as) :
    (directive constant levels).Takes Anywhere
      (at' :: t :: opening :: ((part ++ parts.flatten) ++ [closing]))
      { name := ⟨word, t.start⟩, arguments := a :: as } := by
  -- the arguments end at the closing bracket, which starts no argument
  have harguments : (arguments constant levels).Takes Anywhere
      (opening :: ((part ++ parts.flatten) ++ [closing])) (a :: as) := by
    refine (takes_mark hopening).cons ((hfirst.many1 h).bind_of ?_ ?_)
    · exact (takes_mark hclosing).bind_pure fun _ => rfl
    · intro rest _
      simp [isName, Token.name?, hclosing]
  refine (takes_mark hat).cons ((takes_name ht).cons ?_)
  have hmaybe := harguments.maybe (·.isMark '(') (by simp [Token.isMark, hopening])
  exact hmaybe.bind_pure fun _ => rfl

end Grammar

end SchemaAtlas
