import Mathlib.Data.List.Forall2
import SchemaAtlas.Document.Salvage

/-!
# A sweep in step with a reader

Where a text is sound, the sweep that salvages directives does what the reader of documents does. It
is compared with the reader on tokens that are alike: they may stand elsewhere in a text, and more
tokens may follow them. The comparison is put together like the grammar, one lemma for each way to
put readers together.

* `Token.Alike`              tokens that read alike, with more behind them
* `Follows`                  a sweep takes as many tokens as a reader, and answers what it answers
* `Follows.bind`, `Follows.bind_inner`, `Follows.maybe_ite`, `Follows.many_repeated`   the ways to
  put readers together
-/

namespace SchemaAtlas

/-! ## Tokens that are alike -/

namespace Token

/-- The second list starts like the first one, and `more` stands behind that. What stands before
the first token is all that may differ. -/
inductive Alike (more : List Token) : List Token → List Token → Prop
  | done : Alike more [] more
  | next {t u : Token} {ts us : List Token} (hkind : t.kind = u.kind)
      (hcomma : ∀ t', ts.head? = some t' → us.head?.map afterComma = some t'.afterComma)
      (hrest : Alike more ts us) : Alike more (t :: ts) (u :: us)

/-- Tokens are alike to themselves, with nothing behind them. -/
theorem Alike.refl (ts : List Token) : Alike [] ts ts := by
  induction ts with
  | nil => exact .done
  | cons t ts ih => exact .next rfl (fun t' ht' => by rw [ht']; rfl) ih

/-- Where no token is left on the one side, only those behind are left on the other. -/
theorem Alike.eq_of_nil {more us : List Token} (h : Alike more [] us) : us = more := by
  cases h
  rfl

/-- Where a token is in hand on the one side, one of its kind is in hand on the other. -/
theorem Alike.exists_cons {more us ts : List Token} {t : Token} (h : Alike more (t :: ts) us) :
    ∃ u us', us = u :: us' ∧ t.kind = u.kind ∧ Alike more ts us' := by
  cases h with
  | next hkind hcomma hrest => exact ⟨_, _, rfl, hkind, hrest⟩

/-- The second list is longer by the tokens behind it. -/
theorem Alike.length {more ts us : List Token} (h : Alike more ts us) :
    us.length = ts.length + more.length := by
  -- along the tokens that are alike
  induction h with
  | done => simp
  | next hkind hcomma hrest ih =>
    simp only [List.length_cons]
    omega

/-- Tokens stay alike when as many are taken from both. -/
theorem Alike.drop {more ts us : List Token} (h : Alike more ts us) {k : Nat}
    (hk : k ≤ ts.length) : Alike more (ts.drop k) (us.drop k) := by
  -- along the tokens that are alike, each of which is dropped or kept on both sides
  induction h generalizing k with
  | done =>
    obtain rfl : k = 0 := by simpa using hk
    exact .done
  | next hkind hcomma hrest ih =>
    -- dropping a token from both
    cases k with
    | zero => exact .next hkind hcomma hrest
    | succ k => exact ih (by simpa using hk)

/-- Whether a test looks at what a token is, and not at where it stands. -/
def KindTest (test : Token → Bool) : Prop :=
  ∀ t u : Token, t.kind = u.kind → test t = test u

/-- Being a mark is a matter of kind. -/
theorem kindTest_isMark (c : Char) : KindTest (·.isMark c) := by
  intro t u h
  show t.isMark c = u.isMark c
  rw [isMark, isMark, h]

/-- Being a given word is a matter of kind. -/
theorem kindTest_isWord (word : String) : KindTest (·.isWord word) := by
  intro t u h
  show t.isWord word = u.isWord word
  rw [isWord, isWord, h]

/-- Being a string literal is a matter of kind. -/
theorem kindTest_isString : KindTest isString := by
  intro t u h
  rw [isString, isString, h]

/-- Being a name is a matter of kind. -/
theorem kindTest_isName : KindTest Grammar.isName := by
  intro t u h
  simp only [Grammar.isName, name?, h]
  cases u.kind <;> rfl

/-- Being what a described item starts with is a matter of kind. -/
theorem kindTest_isDescribedName : KindTest Grammar.isDescribedName := by
  intro t u h
  simp only [Grammar.isDescribedName, kindTest_isString t u h, kindTest_isName t u h]

/-- The opposite of a test of kinds is one as well. -/
theorem KindTest.not {test : Token → Bool} (h : KindTest test) : KindTest (!test ·) := by
  intro t u hkind
  simp only [h t u hkind]

/-- Alike tokens pass the same tests, as long as they last. -/
theorem Alike.any_head {more ts us : List Token} (h : Alike more ts us) {test : Token → Bool}
    (htest : KindTest test) (hne : ts ≠ []) : us.head?.any test = ts.head?.any test := by
  cases h with
  | done => exact absurd rfl hne
  | next hkind hcomma hrest => simp [htest _ _ hkind]

end Token

open Token (Alike KindTest)

/-! ## Steps of readers and of sweeps -/

section Steps

variable {α β γ δ : Type}

/-- Readers behind one another succeed if each does where the one before it has stopped. -/
theorem Reader.bind_eq_ok {p : Reader α} {f : α → Reader γ} {ts rest : List Token} {c : γ} :
    (p >>= f) ts = .ok (c, rest) ↔ ∃ a mid, p ts = .ok (a, mid) ∧ f a mid = .ok (c, rest) := by
  show (p ts >>= fun r => f r.1 r.2) = _ ↔ _
  -- the first reader succeeds or fails
  cases p ts with
  | ok r =>
    constructor
    · intro h
      exact ⟨r.1, r.2, rfl, h⟩
    · rintro ⟨a, mid, hr, h⟩
      obtain rfl := Except.ok.inj hr
      exact h
  | error e =>
    constructor
    · intro h
      cases h
    · rintro ⟨a, mid, hr, h⟩
      cases hr

/-- A reader that takes no token leaves all of them. -/
theorem Reader.pure_eq_ok {a c : α} {ts rest : List Token} :
    (pure a : Reader α) ts = .ok (c, rest) ↔ a = c ∧ ts = rest := by
  show (Except.ok (a, ts) : Except (List Token) _) = _ ↔ _
  simp

/-- A reader of one token has taken the first one, which it accepts. -/
theorem Reader.take_eq_ok {accept : Token → Option α} {ts rest : List Token} {a : α}
    (h : take accept ts = .ok (a, rest)) : ∃ t, ts = t :: rest ∧ accept t = some a := by
  cases ts with
  | nil => cases h
  | cons t ts =>
    -- a token is in hand, so it was accepted
    cases ht : accept t with
    | none => simp [take, ht] at h
    | some b =>
      obtain ⟨rfl, rfl⟩ : b = a ∧ ts = rest := by simpa [take, ht] using h
      exact ⟨t, rfl, ht⟩

/-- A mark is read where its token is in hand. -/
theorem Reader.mark_eq_ok {c : Char} {ts rest : List Token} {t : Token}
    (h : mark c ts = .ok (t, rest)) : ts = t :: rest ∧ t.kind = .mark c := by
  obtain ⟨t', rfl, ht⟩ := take_eq_ok h
  by_cases hmark : t'.isMark c = true
  · rw [if_pos hmark] at ht
    obtain rfl := Option.some.inj ht
    exact ⟨rfl, by simpa [Token.isMark] using hmark⟩
  · simp [hmark] at ht

/-- Sweeps behind one another hand on the tokens that are left. -/
theorem Salvage.bind_apply (q : Salvage.Sweep β) (g : β → Salvage.Sweep δ) (us : List Token) :
    (q >>= g) us = g (q us).1 (q us).2 := rfl

/-- A name is taken if it is in hand, and any other token is left where it is. -/
theorem Salvage.name?_cons (t : Token) (us : List Token) :
    Salvage.name? (t :: us) =
      match t.name? with
      | some name => (some name, us)
      | none => (none, t :: us) := by
  show (match t.name? with
    | some name => (do Salvage.pass; return some name : Salvage.Sweep (Option Name))
    | none => return none) (t :: us) = _
  cases t.name? <;> rfl

/-- Whether a token that breaks a text off is not accepted. -/
def Reader.Rejects (accept : Token → Option α) : Prop :=
  ∀ t, t.kind = .wrong → accept t = none

/-- Whether a reader fails without a token in hand. -/
def Reader.Needs (p : Reader α) : Prop :=
  ∀ r, p [] ≠ .ok r

/-- Whether a reader makes no tokens. -/
def Reader.Steady (p : Reader α) : Prop :=
  ∀ a rest, p [] = .ok (a, rest) → rest = []

/-- A reader that cannot do without a token makes none. -/
theorem Reader.Needs.steady {p : Reader α} (h : p.Needs) : p.Steady :=
  fun _ _ hok => absurd hok (h _)

/-- Taking a token needs one. -/
theorem Reader.needs_take (accept : Token → Option α) : (take accept).Needs := by
  intro r h
  cases h

/-- What begins with a reader that needs a token needs one itself. -/
theorem Reader.Needs.bind {p : Reader α} (h : p.Needs) (f : α → Reader γ) : (p >>= f).Needs := by
  intro r hr
  obtain ⟨a, mid, hp, -⟩ := Reader.bind_eq_ok.1 hr
  exact h _ hp

/-- Doing nothing makes no tokens. -/
theorem Reader.steady_pure (a : α) : (pure a : Reader α).Steady := by
  intro c rest h
  exact (Reader.pure_eq_ok.1 h).2.symm

/-- Readers that make no tokens make none behind one another. -/
theorem Reader.Steady.bind {p : Reader α} (hp : p.Steady) {f : α → Reader γ}
    (hf : ∀ a, (f a).Steady) : (p >>= f).Steady := by
  intro c rest h
  obtain ⟨a, mid, hmid, hrest⟩ := Reader.bind_eq_ok.1 h
  obtain rfl := hp a mid hmid
  exact hf a c rest hrest

/-- What makes no tokens does not save a reader that needs one. -/
theorem Reader.Steady.needs_bind {p : Reader α} (hp : p.Steady) {f : α → Reader γ}
    (hf : ∀ a, (f a).Needs) : (p >>= f).Needs := by
  intro r hr
  -- the first reader has left nothing for the second
  obtain ⟨a, mid, hmid, hrest⟩ := Reader.bind_eq_ok.1 hr
  obtain rfl := hp a mid hmid
  exact hf a _ hrest

/-- A reader that only fails makes no tokens, as it comes to no end. -/
theorem Reader.steady_blame : (blame : Reader α).Steady := by
  intro a rest h
  cases h

/-- Blaming the token in hand is no success. -/
theorem Reader.blame_ne_ok (ts : List Token) (r : α × List Token) :
    (blame : Reader α) ts ≠ .ok r := by
  intro h
  cases h

/-- A part that may be left out is left out at the end of the tokens. -/
theorem Reader.maybe_nil (starts : Token → Bool) (p : Reader α) :
    maybe starts p [] = .ok (none, []) := rfl

/-- A part that may be left out makes no tokens. -/
theorem Reader.steady_maybe (starts : Token → Bool) (p : Reader α) : (maybe starts p).Steady := by
  intro a rest h
  obtain ⟨-, rfl⟩ := Prod.mk.inj (Except.ok.inj h)
  rfl

/-- A loop makes no round at the end of the tokens. -/
theorem Reader.many_nil (starts : Token → Bool) (p : Reader α) :
    many starts p [] = .ok ([], []) := rfl

/-- A loop makes no tokens. -/
theorem Reader.steady_many (starts : Token → Bool) (p : Reader α) : (many starts p).Steady := by
  intro a rest h
  obtain ⟨-, rfl⟩ := Prod.mk.inj (Except.ok.inj h)
  rfl

end Steps

/-! ## In step -/

/-- Whether tokens do not end with one that breaks a text off. -/
def Unbroken (ts : List Token) : Prop :=
  ∀ t, ts.getLast? = some t → t.kind ≠ .wrong

/-- No token is no wrong one. -/
theorem unbroken_nil : Unbroken [] := by
  intro t h
  cases h

/-- Only the last token counts, so those before it may be any. -/
theorem Unbroken.of_drop {ts : List Token} {k : Nat} (h : Unbroken (ts.drop k))
    (hk : k < ts.length) : Unbroken ts := by
  intro t ht
  refine h t ?_
  rw [List.getLast?_drop, if_neg (by omega)]
  exact ht

/-- How far two lists of tokens are walked through together: by as many tokens in both, `n` at
least, and past the last one only if it does not break the text off. -/
def Together (n : Nat) (ts us rest us' : List Token) : Prop :=
  ∃ k, n ≤ k ∧ k ≤ ts.length ∧ rest = ts.drop k ∧ us' = us.drop k ∧ (rest = [] → Unbroken ts)

/-- No step leads nowhere else. -/
theorem Together.refl (ts us : List Token) : Together 0 ts us ts us :=
  ⟨0, Nat.le_refl _, Nat.zero_le _, rfl, rfl, fun h => h ▸ unbroken_nil⟩

/-- Two walks, one behind the other, are one walk. -/
theorem Together.trans {n m : Nat} {ts us mid us₁ rest us₂ : List Token}
    (h₁ : Together n ts us mid us₁) (h₂ : Together m mid us₁ rest us₂) :
    Together (n + m) ts us rest us₂ := by
  obtain ⟨k, hn, hk, rfl, rfl, hmid⟩ := h₁
  obtain ⟨l, hm, hl, rfl, rfl, hlast⟩ := h₂
  rw [List.length_drop] at hl
  refine ⟨k + l, by omega, by omega, by rw [List.drop_drop], by rw [List.drop_drop], fun hnil => ?_⟩
  -- the last token is taken by one of the two walks
  by_cases hless : k < ts.length
  · exact (hlast hnil).of_drop hless
  · exact hmid (List.drop_eq_nil_of_le (by omega))

/-- A walk of at least `n` steps is one of at least fewer. -/
theorem Together.mono {n m : Nat} {ts us rest us' : List Token} (h : Together n ts us rest us')
    (hm : m ≤ n) : Together m ts us rest us' := by
  obtain ⟨k, hn, hk⟩ := h
  exact ⟨k, by omega, hk⟩

/-- What is left behind a walk is as alike as what was there before. -/
theorem Together.alike {n : Nat} {more ts us rest us' : List Token}
    (h : Together n ts us rest us') (halike : Alike more ts us) : Alike more rest us' := by
  obtain ⟨k, -, hk, rfl, rfl, -⟩ := h
  exact halike.drop hk

/-- Every step of a walk takes a token. -/
theorem Together.length_le {n : Nat} {ts us rest us' : List Token}
    (h : Together n ts us rest us') : rest.length + n ≤ ts.length := by
  obtain ⟨k, hn, hk, rfl, -⟩ := h
  rw [List.length_drop]
  omega

/-- A token before others that are walked through may be any one. -/
theorem Together.cons {n : Nat} {ts us rest us' : List Token} (h : Together n ts us rest us')
    (hne : ts ≠ []) (t u : Token) : Together (1 + n) (t :: ts) (u :: us) rest us' := by
  obtain ⟨k, hn, hk, hrest, hus', hlast⟩ := h
  refine ⟨k + 1, by omega, by simpa using hk, hrest, hus', fun hnil => ?_⟩
  -- the last token of the longer list is the last one of the shorter
  have hbehind : Unbroken ((t :: ts).drop 1) := hlast hnil
  exact hbehind.of_drop (by simpa using List.length_pos_iff.2 hne)

/-- Wherever the reader `p` reads something, the sweep `q` takes as many tokens, `n` at least, and
answers what `R` says. If `p` takes all tokens, this needs to hold only where the tokens behind
them are as `E` says. -/
def Follows {α β : Type} (n : Nat) (E : List Token → Prop) (R : α → β → Prop) (p : Reader α)
    (q : Salvage.Sweep β) : Prop :=
  ∀ ⦃more ts us a rest⦄, Alike more ts us → p ts = .ok (a, rest) → (rest = [] → E more) →
    R a (q us).1 ∧ Together n ts us rest (q us).2

/-- Whether two names are written alike. -/
def SameName (a b : Name) : Prop :=
  a.text = b.text

/-- Whether tokens do not matter because some other token stands before them. -/
def Inner (_ : List Token) : Prop :=
  False

/-- What holds of all tokens: nothing is asked of those behind. -/
def Anywhere (_ : List Token) : Prop :=
  True

namespace Follows

open Reader Salvage

variable {α β γ δ : Type} {n m : Nat} {E E' : List Token → Prop} {R : α → β → Prop}
  {R' : γ → δ → Prop} {p : Reader α} {q : Sweep β}

/-- Fewer tokens may be promised, and more asked of those behind. -/
theorem mono (h : Follows n E R p q) (hm : m ≤ n) (hE : ∀ more, E' more → E more) :
    Follows m E' R p q := by
  intro more ts us a rest halike hp hend
  obtain ⟨hR, htogether⟩ := h halike hp fun hrest => hE more (hend hrest)
  exact ⟨hR, htogether.mono hm⟩

/-- What follows before some tokens follows inside. -/
theorem inner (h : Follows n E R p q) : Follows n Inner R p q :=
  h.mono (Nat.le_refl n) fun _ h => h.elim

/-- A weaker relation between the answers holds as well. -/
theorem imp {S : α → β → Prop} (h : Follows n E R p q) (hS : ∀ a b, R a b → S a b) :
    Follows n E S p q := by
  intro more ts us a rest halike hp hend
  obtain ⟨hR, htogether⟩ := h halike hp hend
  exact ⟨hS _ _ hR, htogether⟩

/-- Doing nothing follows doing nothing. -/
protected theorem pure {a : α} {b : β} (h : R a b) : Follows 0 E R (pure a) (pure b) := by
  intro more ts us c rest halike hp hend
  obtain ⟨rfl, rfl⟩ := Reader.pure_eq_ok.1 hp
  exact ⟨h, .refl _ _⟩

/-- What a reader makes of its answer can be compared as well. -/
theorem map_left {f : α → γ} {S : γ → β → Prop} (h : Follows n E R p q)
    (hS : ∀ a b, R a b → S (f a) b) : Follows n E S (p >>= fun a => pure (f a)) q := by
  intro more ts us c rest halike hok hend
  obtain ⟨a, mid, hp, hpure⟩ := Reader.bind_eq_ok.1 hok
  obtain ⟨rfl, rfl⟩ := Reader.pure_eq_ok.1 hpure
  obtain ⟨hR, htogether⟩ := h halike hp hend
  exact ⟨hS _ _ hR, htogether⟩

/-- What a sweep makes of its answer can be compared as well. -/
theorem map_right {g : β → δ} {S : α → δ → Prop} (h : Follows n E R p q)
    (hS : ∀ a b, R a b → S a (g b)) : Follows n E S p (q >>= fun b => pure (g b)) := by
  intro more ts us a rest halike hok hend
  obtain ⟨hR, htogether⟩ := h halike hok hend
  exact ⟨hS _ _ hR, htogether⟩

/-- A reader that never succeeds is followed by anything. -/
theorem of_fails (h : ∀ ts r, p ts ≠ .ok r) : Follows n E R p q :=
  fun _ _ _ _ _ _ hp _ => absurd hp (h _ _)

/-- One part behind another. If the first one takes all tokens, the second one has to tell what
stands behind them. -/
theorem bind_of {E₀ : List Token → Prop} {f : α → Reader γ} {g : β → Sweep δ}
    (hp : Follows n E₀ R p q) (hf : ∀ a b, R a b → Follows m E R' (f a) (g b))
    (hend : ∀ a c rest more, f a [] = .ok (c, rest) → (rest = [] → E more) → E₀ more) :
    Follows (n + m) E R' (p >>= f) (q >>= g) := by
  intro more ts us c rest halike h hrest
  obtain ⟨a, mid, hmid, hlast⟩ := Reader.bind_eq_ok.1 h
  -- the first part ends where the second one begins, in both lists
  obtain ⟨hR, htogether⟩ := hp halike hmid fun hnil => hend a c rest more (hnil ▸ hlast) hrest
  obtain ⟨hR', htogether'⟩ := hf a _ hR (htogether.alike halike) hlast hrest
  exact ⟨hR', htogether.trans htogether'⟩

/-- Parts that make no tokens follow one behind the other, whatever stands behind them. -/
protected theorem bind {f : α → Reader γ} {g : β → Sweep δ} (hp : Follows n E R p q)
    (hf : ∀ a b, R a b → Follows m E R' (f a) (g b)) (hsteady : ∀ a, (f a).Steady) :
    Follows (n + m) E R' (p >>= f) (q >>= g) :=
  -- a steady part that finds no token leaves none, so the end is that of both
  hp.bind_of hf fun a c rest _ h hend => hend (hsteady a c rest h)

/-- What follows the first reader anywhere may be put before anything. -/
theorem bind_anywhere {f : α → Reader γ} {g : β → Sweep δ} (hp : Follows n Anywhere R p q)
    (hf : ∀ a b, R a b → Follows m E R' (f a) (g b)) :
    Follows (n + m) E R' (p >>= f) (q >>= g) :=
  hp.bind_of hf fun _ _ _ _ _ _ => trivial

/-- If the second reader needs a token, the first one does not take all of them. -/
theorem bind_inner {f : α → Reader γ} {g : β → Sweep δ} (hp : Follows n Inner R p q)
    (hf : ∀ a b, R a b → Follows m E R' (f a) (g b)) (hneeds : ∀ a, (f a).Needs) :
    Follows (n + m) E R' (p >>= f) (q >>= g) :=
  hp.bind_of hf fun a _ _ _ h _ => absurd h (hneeds a _)

/-! ### One token -/

/-- Passing over a token follows whatever takes one. -/
theorem take_pass {accept : Token → Option α} (haccept : Rejects accept) :
    Follows 1 E (fun _ _ => True) (take accept) pass := by
  intro more ts us a rest halike h hend
  obtain ⟨t, rfl, ht⟩ := take_eq_ok h
  cases halike with
  | next hkind hcomma hrest =>
    refine ⟨trivial, 1, Nat.le_refl _, by simp, rfl, rfl, ?_⟩
    -- the token was accepted, so it is not a wrong one
    rintro rfl t' ht' hwrong
    obtain rfl : t = t' := by simpa using ht'
    rw [haccept t hwrong] at ht
    cases ht

/-- Even the first of some tokens is passed over like it is taken, where one more is needed. -/
theorem take_bind {accept : Token → Option α} {f : α → Reader γ} {g : Sweep δ}
    (hf : ∀ a, Follows m E R' (f a) g) (hneeds : ∀ a, (f a).Needs) :
    Follows (1 + m) E R' (take accept >>= f) (pass >>= fun _ => g) := by
  intro more ts us c rest halike h hend
  obtain ⟨a, mid, htake, hbehind⟩ := Reader.bind_eq_ok.1 h
  obtain ⟨t, rfl, -⟩ := take_eq_ok htake
  cases halike with
  | @next _ u _ us hkind hcomma hrest =>
    -- the sweep stands behind the same number of tokens
    obtain ⟨hR, htogether⟩ := hf a hrest hbehind hend
    exact ⟨hR, htogether.cons (fun hnil => hneeds a _ (hnil ▸ hbehind)) t u⟩

/-- A part that a sweep asks for is gone through where the token in hand passes the test. -/
theorem whenever_apply (test : Token → Bool) (q : Sweep Unit) (us : List Token) :
    whenever test q us = if us.head?.any test = true then q us else ((), us) := by
  show (if us.head?.any test = true then q else pure ()) us = _
  split <;> rfl

/-- Passing over a token that passes a test follows whatever takes only such tokens. -/
theorem take_passIf {accept : Token → Option α} {test : Token → Bool} (haccept : Rejects accept)
    (htest : KindTest test) (h : ∀ t, (accept t).isSome = true → test t = true) :
    Follows 1 E (fun _ _ => True) (take accept) (passIf test) := by
  intro more ts us a rest halike hok hend
  -- the walk is that of a sweep that asks no question
  obtain ⟨-, htogether⟩ := take_pass (E := E) haccept halike hok hend
  refine ⟨trivial, ?_⟩
  obtain ⟨t, rfl, ht⟩ := take_eq_ok hok
  cases halike with
  | @next _ u _ us hkind hcomma hrest =>
    -- the same token is in hand, but for its place
    have hu : (u :: us).head?.any test = true := by
      simpa [← htest t u hkind] using h t (by rw [ht]; rfl)
    rw [passIf, whenever_apply, if_pos hu]
    exact htogether

/-- A reader of a mark rejects wrong tokens. -/
theorem rejects_isMark (c : Char) : Rejects fun t => if t.isMark c then some t else none := by
  intro t ht
  simp [Token.isMark, ht]

/-- A reader of a word rejects wrong tokens. -/
theorem rejects_isWord (text : String) :
    Rejects fun t => if t.isWord text then some t else none := by
  intro t ht
  simp [Token.isWord, ht]

/-- A reader of a name rejects wrong tokens. -/
theorem rejects_name? : Rejects Token.name? := by
  intro t ht
  simp [Token.name?, ht]

/-- A reader of names that pass a test rejects wrong tokens. -/
theorem rejects_filter (accept : Name → Bool) : Rejects fun t => t.name?.filter accept := by
  intro t ht
  simp [rejects_name? t ht]

/-- Passing over a token follows reading a mark. -/
theorem mark_pass (c : Char) : Follows 1 E (fun _ _ => True) (mark c) pass :=
  take_pass (rejects_isMark c)

/-- Passing over a token follows reading a word. -/
theorem word_pass (text : String) : Follows 1 E (fun _ _ => True) (word text) pass :=
  take_pass (rejects_isWord text)

/-- Passing over a token follows reading a name. -/
theorem name_pass : Follows 1 E (fun _ _ => True) name pass :=
  take_pass rejects_name?

/-- Passing over a mark, if it is in hand, follows reading it. -/
theorem mark_passIf (c : Char) : Follows 1 E (fun _ _ => True) (mark c) (passIf (·.isMark c)) :=
  take_passIf (rejects_isMark c) (Token.kindTest_isMark c) fun _ h => Option.isSome_ite.1 h

/-- Passing over a word, if it is in hand, follows reading it. -/
theorem word_passIf (text : String) :
    Follows 1 E (fun _ _ => True) (word text) (passIf (·.isWord text)) :=
  take_passIf (rejects_isWord text) (Token.kindTest_isWord text) fun _ h => Option.isSome_ite.1 h

/-- Passing over a name, if one is in hand, follows reading it. -/
theorem name_passName : Follows 1 E (fun _ _ => True) name passName :=
  take_passIf rejects_name? Token.kindTest_isName fun _ h => h

/-- A word is a name. -/
theorem isName_of_isWord {t : Token} {word : String} (h : t.isWord word = true) :
    Grammar.isName t = true := by
  have hkind : t.kind = .name word := by simpa [Token.isWord] using h
  simp [Grammar.isName, Token.name?, hkind]

/-- A name that is accepted is a name. -/
theorem isName_of_filter {t : Token} {accept : Name → Bool}
    (h : (t.name?.filter accept).isSome = true) : Grammar.isName t = true := by
  obtain ⟨n, hn⟩ := Option.isSome_iff_exists.1 h
  rw [Grammar.isName, (Option.filter_eq_some_iff.1 hn).1]
  rfl

/-- Passing over a name follows reading one that is not reserved. -/
theorem nameExcept_passName (reserved : List String) :
    Follows 1 E (fun _ _ => True) (nameExcept reserved) passName :=
  take_passIf (rejects_filter _) Token.kindTest_isName fun _ h => isName_of_filter h

/-- A sweep takes the name that a reader takes, where it stands in its own text. -/
theorem name_name? : Follows 1 E (fun a b => ∃ b', b = some b' ∧ SameName a b') name name? := by
  intro more ts us a rest halike h hend
  obtain ⟨-, htogether⟩ := name_pass (E := E) halike h hend
  cases halike with
  | done => cases h
  | @next t u ts us hkind hcomma hrest =>
    obtain ⟨kind, start, stop, afterComma⟩ := t
    obtain ⟨kind', start', stop', afterComma'⟩ := u
    obtain rfl : kind = kind' := hkind
    -- only a name is read as one, and it is the same but for its place
    cases kind with
    | name text =>
      obtain ⟨rfl, rfl⟩ : (⟨text, start⟩ : Name) = a ∧ ts = rest := by
        simpa [name, take, Token.name?] using h
      exact ⟨⟨⟨text, start'⟩, rfl, rfl⟩, htogether⟩
    | _ => cases h

/-! ### Parts that may be left out -/

/-- A sweep chooses by the token in hand. -/
theorem startsWith_ite (test : Token → Bool) (q r : Sweep β) (us : List Token) :
    (do if ← startsWith test then q else r : Sweep β) us =
      if us.head?.any test = true then q us else r us := by
  show (if us.head?.any test = true then q else r) us = _
  split <;> rfl

/-- A reader goes through a part if the token in hand passes the test for it. -/
theorem maybe_cons (test : Token → Bool) (p : Reader α) (t : Token) (ts : List Token) :
    maybe test p (t :: ts) =
      if test t = true then (some <$> p) (t :: ts) else .ok (none, t :: ts) := by
  show (if test t = true then _ else _ : Reader (Option α)) (t :: ts) = _
  split <;> rfl

/-- What a part that may be left out makes of its answer. -/
def Answer (R : α → β → Prop) (b₀ : β) : Option α → β → Prop
  | some a, b => R a b
  | none, b => b = b₀

/-- Where a token is in hand, it tells whether a part is left out. -/
theorem maybe_ite_cons {test : Token → Bool} (b₀ : β) (hp : Follows n E R p q)
    (htest : KindTest test) {more ts us rest : List Token} {t : Token} {a : Option α}
    (halike : Alike more (t :: ts) us) (h : maybe test p (t :: ts) = .ok (a, rest))
    (hrest : rest = [] → E more) :
    Answer R b₀ a ((do if ← startsWith test then q else pure b₀ : Sweep β) us).1 ∧
      Together 0 (t :: ts) us rest
        ((do if ← startsWith test then q else pure b₀ : Sweep β) us).2 := by
  rw [startsWith_ite]
  have hhead := halike.any_head htest (List.cons_ne_nil t ts)
  rw [maybe_cons] at h
  -- both look at the token in hand
  cases ht : test t with
  | false =>
    have hus : us.head?.any test = false := by rw [hhead]; simpa using ht
    obtain ⟨rfl, rfl⟩ : none = a ∧ t :: ts = rest := by simpa [ht] using h
    rw [if_neg (by simp [hus])]
    exact ⟨rfl, .refl _ _⟩
  | true =>
    have hus : us.head?.any test = true := by rw [hhead]; simpa using ht
    rw [if_pos ht, map_eq_pure_bind, Reader.bind_eq_ok] at h
    obtain ⟨a', mid, hp', hpure⟩ := h
    obtain ⟨rfl, rfl⟩ := Reader.pure_eq_ok.1 hpure
    rw [if_pos hus]
    obtain ⟨hR, htogether⟩ := hp halike hp' hrest
    exact ⟨hR, htogether.mono (Nat.zero_le n)⟩

/-- A part that is left out unless the token in hand passes a test. -/
theorem maybe_ite {test : Token → Bool} (b₀ : β) (hp : Follows n E R p q) (htest : KindTest test)
    (hend : ∀ more, E more → more.head?.any test = false) :
    Follows 0 E (Answer R b₀) (maybe test p) (do if ← startsWith test then q else pure b₀) := by
  intro more ts us a rest halike h hrest
  cases ts with
  | nil =>
    obtain ⟨rfl, rfl⟩ : none = a ∧ [] = rest := by simpa [maybe_nil] using h
    -- no token is left, and those behind do not pass the test
    have hus : us.head?.any test = false := by
      rw [halike.eq_of_nil]
      exact hend _ (hrest rfl)
    rw [startsWith_ite, if_neg (by simp [hus])]
    exact ⟨rfl, .refl _ _⟩
  | cons t ts => exact maybe_ite_cons b₀ hp htest halike h hrest

/-- A part that is left out unless the token in hand passes a test, where no answer matters. -/
theorem maybe_whenever {test : Token → Bool} {q : Sweep Unit} {R : α → Unit → Prop}
    (hp : Follows n E R p q) (htest : KindTest test)
    (hend : ∀ more, E more → more.head?.any test = false) :
    Follows 0 E (fun _ _ => True) (maybe test p) (whenever test q) :=
  (maybe_ite () hp htest hend).imp fun _ _ _ => trivial

/-! ### Loops -/

/-- A round that answers something is followed by those that are left. -/
theorem repeatFrom_cons (r : Sweep (Option β)) (s : Token) (supply us : List Token) :
    repeatFrom r (s :: supply) us =
      match (r us).1 with
      | some b => (b :: (repeatFrom r supply (r us).2).1, (repeatFrom r supply (r us).2).2)
      | none => ([], (r us).2) := by
  show (match (r us).1 with | some a => _ | none => _ : Sweep (List β)) (r us).2 = _
  cases (r us).1 <;> rfl

/-- Whether a reader succeeds only where the token in hand passes a test. -/
def Begins (test : Token → Bool) (p : Reader α) : Prop :=
  ∀ ts r, p ts = .ok r → ts.head?.any test = true

/-- A reader that looks for a token needs one. -/
theorem Begins.needs {test : Token → Bool} (h : Begins test p) : p.Needs := by
  intro r hr
  simpa using h [] r hr

/-- A reader that only fails begins with any token. -/
theorem begins_blame (test : Token → Bool) : Begins test (blame : Reader α) :=
  fun ts r h => absurd h (blame_ne_ok ts r)

/-- A token is taken only if it is accepted. -/
theorem begins_take {accept : Token → Option α} {test : Token → Bool}
    (h : ∀ t, (accept t).isSome = true → test t = true) : Begins test (take accept) := by
  intro ts r hok
  cases ts with
  | nil => cases hok
  | cons t ts =>
    -- what was taken was accepted
    have ht : (accept t).isSome = true := by
      cases haccept : accept t with
      | none => simp [take, haccept] at hok
      | some c => rfl
    simp [h t ht]

/-- A reader of a mark begins with the mark. -/
theorem begins_mark (c : Char) : Begins (·.isMark c) (mark c) :=
  begins_take fun _ h => Option.isSome_ite.1 h

/-- A reader of a name begins with a name. -/
theorem begins_name : Begins Grammar.isName name :=
  begins_take fun _ h => h

/-- What stands first decides what a reader begins with. -/
theorem Begins.bind {test : Token → Bool} (h : Begins test p) (f : α → Reader γ) :
    Begins test (p >>= f) := by
  intro ts r hok
  obtain ⟨a, mid, hp, -⟩ := Reader.bind_eq_ok.1 hok
  exact h ts _ hp

/-- Where a reader succeeds, the sweep finds the token in hand that the reader begins with. -/
theorem Begins.any_head {test : Token → Bool} {more ts us : List Token} {r : α × List Token}
    (h : Begins test p) (htest : KindTest test) (halike : Alike more ts us) (hok : p ts = .ok r) :
    us.head?.any test = true := by
  have hne : ts ≠ [] := by
    intro hnil
    simpa [hnil] using h ts r hok
  rw [halike.any_head htest hne]
  exact h ts r hok

/-- A part that is always there follows even if the sweep asks for it first. -/
theorem ite_of_begins {test : Token → Bool} {r : Sweep β} (hp : Follows n E R p q)
    (htest : KindTest test) (hbegins : Begins test p) :
    Follows n E R p (do if ← startsWith test then q else r) := by
  intro more ts us a rest halike hok hend
  have hus : us.head?.any test = true := hbegins.any_head htest halike hok
  rw [startsWith_ite, if_pos hus]
  exact hp halike hok hend

/-- A part that is always there follows even if the sweep asks for it first and answers nothing. -/
theorem whenever_of_begins {test : Token → Bool} {q : Sweep Unit}
    (hp : Follows n E (fun _ _ => True) p q) (htest : KindTest test) (hbegins : Begins test p) :
    Follows n E (fun _ _ => True) p (whenever test q) :=
  ite_of_begins hp htest hbegins

section Loops

variable {r : Sweep (Option β)} {test : Token → Bool}
  (hp : Follows (n + 1) E (fun a ob => ∃ b, ob = some b ∧ R a b) p r) (htest : KindTest test)
  (hstop : ∀ us, us.head?.any test = false → r us = (none, us))
  (hend : ∀ more, E more → more.head?.any test = false)
include hp htest hstop hend

omit htest hstop hend hp in
/-- No round is made without tokens, whatever bounds the rounds. -/
theorem manyFrom_nil (p : Reader α) (supply : List Token) :
    manyFrom test p supply [] = .ok ([], []) := by
  cases supply <;> rfl

/-- A loop in step with a loop, by induction on the tokens that bound the reader's rounds. -/
theorem manyFrom_repeatFrom {supply supply' more ts us rest : List Token} {as : List α}
    (hts : ts.length ≤ supply.length) (hus : us.length ≤ supply'.length)
    (halike : Alike more ts us) (h : manyFrom test p supply ts = .ok (as, rest))
    (hrest : rest = [] → E more) :
    List.Forall₂ R as (repeatFrom r supply' us).1 ∧
      Together 0 ts us rest (repeatFrom r supply' us).2 := by
  -- the loop ends where the token in hand fails the test
  have hstopped (supply' us : List Token) (hhead : us.head?.any test = false) :
      repeatFrom r supply' us = ([], us) := by
    cases supply' with
    | nil => rfl
    | cons s supply' => rw [repeatFrom_cons, hstop us hhead]
  -- a round for each token of the supply; the sweep has a supply of its own, which may be longer
  induction supply generalizing supply' ts us as with
  | nil =>
    obtain rfl : ts = [] := by simpa using hts
    obtain ⟨rfl, rfl⟩ := Reader.pure_eq_ok.1 h
    rw [hstopped _ _ (by rw [halike.eq_of_nil]; exact hend _ (hrest rfl))]
    exact ⟨.nil, .refl _ _⟩
  | cons s supply ih =>
    cases ts with
    | nil =>
      -- no token is left, so no round is made
      obtain ⟨rfl, rfl⟩ : [] = as ∧ [] = rest := by
        obtain ⟨_, mid, hmaybe, h⟩ := Reader.bind_eq_ok.1 h
        obtain ⟨rfl, rfl⟩ := Prod.mk.inj (Except.ok.inj hmaybe)
        exact Reader.pure_eq_ok.1 h
      rw [hstopped _ _ (by rw [halike.eq_of_nil]; exact hend _ (hrest rfl))]
      exact ⟨.nil, .refl _ _⟩
    | cons t ts =>
      have hhead := halike.any_head htest (List.cons_ne_nil t ts)
      obtain ⟨found, mid, hmaybe, h⟩ := Reader.bind_eq_ok.1 h
      rw [maybe_cons] at hmaybe
      -- both look at the token in hand
      cases ht : test t with
      | false =>
        obtain ⟨rfl, rfl⟩ : none = found ∧ t :: ts = mid := by simpa [ht] using hmaybe
        obtain ⟨rfl, rfl⟩ := Reader.pure_eq_ok.1 h
        rw [hstopped _ _ (by rw [hhead]; simpa using ht)]
        exact ⟨.nil, .refl _ _⟩
      | true =>
        rw [if_pos ht, map_eq_pure_bind, Reader.bind_eq_ok] at hmaybe
        obtain ⟨a, mid', hok, hpure⟩ := hmaybe
        obtain ⟨rfl, rfl⟩ := Reader.pure_eq_ok.1 hpure
        obtain ⟨as', last, hmany, hpure⟩ := Reader.bind_eq_ok.1 h
        obtain ⟨rfl, rfl⟩ := Reader.pure_eq_ok.1 hpure
        obtain ⟨⟨b, hb, hR⟩, htogether⟩ := hp halike hok fun hnil => hrest <| by
          rw [hnil, manyFrom_nil] at hmany
          exact (Prod.mk.inj (Except.ok.inj hmany)).2.symm
        -- both took a token, so what bounds the rounds still does
        have hmid := htogether.length_le
        have halike' := htogether.alike halike
        have hlength := halike.length
        have hlength' := halike'.length
        obtain ⟨s', supply', rfl⟩ : ∃ s' supply'', supply' = s' :: supply'' := by
          cases supply' with
          | nil => simp only [List.length_cons, List.length_nil] at hlength hus; omega
          | cons s' supply' => exact ⟨s', supply', rfl⟩
        simp only [List.length_cons] at hts hus hlength hmid
        have hts' : mid'.length ≤ supply.length := by omega
        have hus' : (r us).2.length ≤ supply'.length := by omega
        -- the rounds that are left, by induction
        obtain ⟨hRs, htogether'⟩ := ih hts' hus' halike' hmany
        rw [repeatFrom_cons, hb]
        exact ⟨.cons hR hRs, (htogether.trans htogether').mono (Nat.zero_le _)⟩

/-- A loop that ends where the token in hand fails a test follows one that does so too. -/
theorem many_repeated : Follows 0 E (List.Forall₂ R) (many test p) (repeated r) := by
  intro more ts us as rest halike h hrest
  exact manyFrom_repeatFrom hp htest hstop hend (Nat.le_refl _) (Nat.le_refl _) halike h hrest

/-- A loop of at least one round follows, too. -/
theorem many1_repeated : Follows (n + 1) E (List.Forall₂ R) (many1 test p) (repeated r) := by
  intro more ts us as rest halike h hrest
  obtain ⟨a, mid, hok, h⟩ := Reader.bind_eq_ok.1 h
  obtain ⟨as', last, hmany, hpure⟩ := Reader.bind_eq_ok.1 h
  obtain ⟨rfl, rfl⟩ := Reader.pure_eq_ok.1 hpure
  -- the first round, and the loop behind it
  obtain ⟨⟨b, hb, hR⟩, htogether⟩ := hp halike hok fun hnil => hrest <| by
    rw [hnil, many_nil] at hmany
    exact (Prod.mk.inj (Except.ok.inj hmany)).2.symm
  -- lengths, for the bound on the rounds that are left
  have hmid := htogether.length_le
  have halike' := htogether.alike halike
  have hlength := halike.length
  have hlength' := halike'.length
  cases us with
  | nil => simp only [List.length_nil] at hlength; omega
  | cons u us =>
    rw [List.length_cons] at hlength
    -- the first round took a token, so the others have their bound
    have hus : (r (u :: us)).2.length ≤ us.length := by omega
    obtain ⟨hRs, htogether'⟩ :=
      manyFrom_repeatFrom hp htest hstop hend (Nat.le_refl _) hus halike' hmany hrest
    rw [repeated, repeatFrom_cons, hb]
    exact ⟨.cons hR hRs, htogether.trans htogether'⟩

end Loops

section GuardedLoops

variable {test : Token → Bool} (hp : Follows (n + 1) E R p q) (htest : KindTest test)
  (hbegins : Begins test p) (hend : ∀ more, E more → more.head?.any test = false)
include hp htest hbegins

/-- A round of a loop that asks for the token in hand first. -/
theorem guarded : Follows (n + 1) E (fun a ob => ∃ b, ob = some b ∧ R a b) p
    (do if ← startsWith test then return some (← q) else return none) := by
  intro more ts us a rest halike hok hrest
  have hus : us.head?.any test = true := hbegins.any_head htest halike hok
  rw [startsWith_ite, if_pos hus]
  obtain ⟨hR, htogether⟩ := hp halike hok hrest
  exact ⟨⟨_, rfl, hR⟩, htogether⟩

omit hp htest hbegins in
/-- Such a round takes no token where the token in hand fails the test. -/
theorem guarded_stop (us : List Token) (h : us.head?.any test = false) :
    (do if ← startsWith test then return some (← q) else return none : Sweep (Option β)) us =
      (none, us) := by
  rw [startsWith_ite, if_neg (by simp [h])]
  rfl

include hend

/-- A loop that looks at the token in hand before each round follows one of the grammar. -/
theorem many_many :
    Follows 0 E (List.Forall₂ R) (Reader.many test p) (Salvage.many test q) :=
  many_repeated (guarded hp htest hbegins) htest guarded_stop hend

/-- Such a loop follows one of at least one round, too. -/
theorem many1_many :
    Follows (n + 1) E (List.Forall₂ R) (many1 test p) (Salvage.many test q) :=
  many1_repeated (guarded hp htest hbegins) htest guarded_stop hend

end GuardedLoops

end Follows

end SchemaAtlas
