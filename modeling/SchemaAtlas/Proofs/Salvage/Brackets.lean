import SchemaAtlas.Proofs.Salvage.LockStep

/-!
# Inside brackets

A sweep that has lost its way between brackets finds out of them at a closing bracket only. The
brackets that are open around a place are kept as a stack of the closing ones. Whatever a part of
the sweep opens it may close again, and below the stack that it started with it pops nothing: the
floor under it stays where it is.

* `Inside`          what stands behind some open brackets, up to the end of the outermost one
* `Stays`           a sweep that does not get out of the brackets that it starts in
* `Closes`          a sweep that gets out of one bracket at most
* `Stays.bind`, `Closes.opens`, `Stays.many`   the ways to put sweeps together
-/

namespace SchemaAtlas

/-! ## Open brackets -/

/-- The bracket that closes what another one opens. -/
def closer? : Char → Option Char
  | '(' => some ')'
  | '[' => some ']'
  | '\x7b' => some '\x7d'
  | _ => none

/-- Whether a token is a closing bracket. -/
def Token.isCloser (t : Token) : Bool :=
  t.isMark ')' || t.isMark ']' || t.isMark '\x7d'

/-- Whether a token is neither a bracket nor a colon. -/
def Token.isPlain (t : Token) : Bool :=
  match t.kind with
  | .mark c => (closer? c).isNone && !t.isCloser && c != ':'
  | _ => true

/-- Tokens behind open brackets, which a stack of closing ones stands for, and `next` behind the
last of these. A colon neither stands right in square brackets nor right before a closing
bracket. -/
inductive Inside (next : List Token) : List Char → List Token → Prop
  | out : Inside next [] next
  | plain {t : Token} {c : Char} {σ : List Char} {us : List Token} (ht : t.isPlain = true)
      (h : Inside next (c :: σ) us) : Inside next (c :: σ) (t :: us)
  | colon {t : Token} {c : Char} {σ : List Char} {us : List Token} (ht : t.kind = .mark ':')
      (hc : c ≠ ']') (hus : us.head?.any Token.isCloser = false) (h : Inside next (c :: σ) us) :
      Inside next (c :: σ) (t :: us)
  | opening {t : Token} {o c d : Char} {σ : List Char} {us : List Token} (ht : t.kind = .mark o)
      (ho : closer? o = some d) (h : Inside next (d :: c :: σ) us) : Inside next (c :: σ) (t :: us)
  | closing {t : Token} {c : Char} {σ : List Char} {us : List Token} (ht : t.kind = .mark c)
      (hc : t.isCloser = true) (h : Inside next σ us) : Inside next (c :: σ) (t :: us)

/-- An opening bracket closes nothing. -/
theorem Token.isCloser_of_kind {t : Token} {o d : Char} (ht : t.kind = .mark o)
    (ho : closer? o = some d) : t.isCloser = false := by
  rw [Bool.eq_false_iff]
  intro hcloser
  simp only [Token.isCloser, Token.isMark, ht, Bool.or_eq_true, decide_eq_true_eq,
    Token.Kind.mark.injEq] at hcloser
  rcases hcloser with (rfl | rfl) | rfl <;> cases ho

/-- A name closes nothing. -/
theorem Token.isCloser_of_isName {t : Token} (h : Grammar.isName t = true) :
    t.isCloser = false := by
  obtain ⟨kind, start, stop, comma⟩ := t
  cases kind with
  | name text => rfl
  | _ => cases h

/-- A mark that is no closing bracket closes nothing. -/
theorem Token.isCloser_of_isMark {t : Token} {c : Char} (h : t.isMark c = true)
    (hc : c ≠ ')' ∧ c ≠ ']' ∧ c ≠ '\x7d') : t.isCloser = false := by
  have hkind : t.kind = .mark c := by simpa [Token.isMark] using h
  simpa [Token.isCloser, Token.isMark, hkind, not_or, and_assoc] using hc

/-- What closes a bracket is a closing bracket. -/
theorem Token.isCloser_of_closer? {t : Token} {o d : Char} (ho : closer? o = some d)
    (ht : t.kind = .mark d) : t.isCloser = true := by
  unfold closer? at ho
  split at ho
  · obtain rfl := Option.some.inj ho
    simp [Token.isCloser, Token.isMark, ht]
  · obtain rfl := Option.some.inj ho
    simp [Token.isCloser, Token.isMark, ht]
  · obtain rfl := Option.some.inj ho
    simp [Token.isCloser, Token.isMark, ht]
  · cases ho

/-- An opening bracket is not plain. -/
theorem Token.isPlain_of_kind {t : Token} {o d : Char} (ht : t.kind = .mark o)
    (ho : closer? o = some d) : t.isPlain = false := by
  simp only [Token.isPlain, ht, ho, Option.isNone_some, Bool.false_and]

namespace Inside

variable {next us : List Token} {t : Token} {c d o : Char} {σ : List Char}

/-- As long as a bracket is open, a token is left. -/
theorem ne_nil (h : Inside next (c :: σ) us) : us ≠ [] := by
  cases h <;> exact List.cons_ne_nil _ _

/-- Behind an opening bracket its closing one is on top. -/
theorem of_opening (h : Inside next (c :: σ) (t :: us)) (ht : t.kind = .mark o)
    (ho : closer? o = some d) : Inside next (d :: c :: σ) us := by
  -- only the case of an opening bracket fits the token
  cases h with
  | plain hplain h => exact absurd hplain (by simp [Token.isPlain_of_kind ht ho])
  | colon hcolon hc hus h =>
    obtain rfl : o = ':' := by simpa [ht] using hcolon
    cases ho
  | @opening _ o' _ d' _ _ ht' ho' h =>
    obtain rfl : o = o' := by simpa [ht] using ht'
    obtain rfl : d = d' := by simpa [ho] using ho'
    exact h
  | closing ht' hc h => exact absurd hc (by simp [Token.isCloser_of_kind ht ho])

/-- A closing bracket is the one on top. -/
theorem of_closer (h : Inside next (c :: σ) (t :: us)) (hc : t.isCloser = true) :
    t.kind = .mark c ∧ Inside next σ us := by
  cases h with
  | plain hplain h =>
    cases hkind : t.kind with
    | mark c' => simp [Token.isPlain, hkind, hc] at hplain
    | _ => simp [Token.isCloser, Token.isMark, hkind] at hc
  | colon hcolon _ _ h => simp [Token.isCloser, Token.isMark, hcolon] at hc
  | opening ht ho h => exact absurd hc (by simp [Token.isCloser_of_kind ht ho])
  | closing ht _ h => exact ⟨ht, h⟩

/-- A colon leaves the brackets as they are, with no closing one behind it. -/
theorem of_colon (h : Inside next (c :: σ) (t :: us)) (ht : t.kind = .mark ':') :
    c ≠ ']' ∧ us.head?.any Token.isCloser = false ∧ Inside next (c :: σ) us := by
  cases h with
  | plain hplain h => simp [Token.isPlain, ht] at hplain
  | colon _ hc hus h => exact ⟨hc, hus, h⟩
  | @opening _ o _ d _ _ ht' ho h =>
    obtain rfl : ':' = o := by simpa [ht] using ht'
    cases ho
  | closing ht' hc h => simp [Token.isCloser, Token.isMark, ht] at hc

end Inside

/-! ### Above a floor -/

/-- Whether tokens stand inside some brackets, and maybe inside more that were opened later. -/
def Above (next : List Token) (φ : List Char) (us : List Token) : Prop :=
  ∃ τ, Inside next (τ ++ φ) us

namespace Above

variable {next us : List Token} {t : Token} {c : Char} {φ : List Char}

/-- The brackets of a stack are a floor with nothing above it. -/
theorem of_inside (h : Inside next φ us) : Above next φ us :=
  ⟨[], h⟩

/-- What stands above a floor stands above the one below. -/
theorem weaken (h : Above next (c :: φ) us) : Above next φ us := by
  obtain ⟨τ, h⟩ := h
  exact ⟨τ ++ [c], by rwa [List.append_assoc]⟩

/-- What stands above several brackets stands above the last of them. -/
theorem append {τ : List Char} (h : Above next (τ ++ φ) us) : Above next φ us := by
  obtain ⟨τ', h⟩ := h
  exact ⟨τ' ++ τ, by rwa [List.append_assoc]⟩

/-- The stack above a floor has a top. -/
theorem exists_top (h : Above next (c :: φ) us) :
    ∃ d σ τ, d :: σ = τ ++ c :: φ ∧ Inside next (d :: σ) us := by
  obtain ⟨τ, h⟩ := h
  cases τ with
  | nil => exact ⟨c, φ, [], rfl, h⟩
  | cons d τ => exact ⟨d, τ ++ c :: φ, d :: τ, rfl, h⟩

/-- Above a floor with a bracket, a token is left. -/
theorem exists_cons (h : Above next (c :: φ) us) : ∃ t us', us = t :: us' := by
  obtain ⟨d, σ, τ, -, h⟩ := h.exists_top
  exact List.exists_cons_of_ne_nil h.ne_nil

/-- Only the closing bracket on the floor leads below it. -/
theorem tail (h : Above next (c :: φ) (t :: us)) (ht : t.kind = .mark c → t.isCloser = false) :
    Above next (c :: φ) us := by
  obtain ⟨τ, h⟩ := h
  -- the stack is taken apart by what the token does to it
  generalize hσ : τ ++ c :: φ = σ at h
  cases h with
  | out => simp at hσ
  | plain _ h => exact ⟨τ, hσ ▸ h⟩
  | colon _ _ _ h => exact ⟨τ, hσ ▸ h⟩
  | @opening _ _ _ d _ _ _ _ h => exact ⟨d :: τ, by rw [List.cons_append, hσ]; exact h⟩
  | closing hkind hcloser h =>
    cases τ with
    | nil =>
      obtain ⟨rfl, rfl⟩ := List.cons.inj hσ
      exact absurd hcloser (by simp [ht hkind])
    | cons d τ =>
      obtain ⟨rfl, rfl⟩ := List.cons.inj hσ
      exact ⟨τ, h⟩

/-- One token leads out of one bracket at most. -/
theorem tail_weaken (h : Above next (c :: φ) (t :: us)) : Above next φ us := by
  -- only a closing bracket takes anything off the stack
  by_cases hc : t.isCloser = true
  · obtain ⟨d, σ, τ, hτ, hinside⟩ := h.exists_top
    obtain ⟨-, hinside⟩ := hinside.of_closer hc
    cases τ with
    | nil =>
      obtain ⟨rfl, rfl⟩ := List.cons.inj hτ
      exact .of_inside hinside
    | cons d' τ =>
      obtain ⟨rfl, rfl⟩ := List.cons.inj hτ
      exact Above.weaken ⟨τ, hinside⟩
  · exact (h.tail fun _ => by simpa using hc).weaken

end Above

/-! ## Sweeps inside brackets -/

namespace Salvage

open Follows (whenever_apply startsWith_ite)

/-- The sweep `q` takes `n` tokens at least, and does not get below the floor that it stands above,
if the bracket on the floor and the token in hand are as `P` says. -/
def Stays {α : Type} (n : Nat) (P : Char → Token → Prop) (q : Sweep α) : Prop :=
  ∀ ⦃next c φ t us⦄, P c t → Above next (c :: φ) (t :: us) →
    Above next (c :: φ) (q (t :: us)).2 ∧ (q (t :: us)).2.length + n ≤ us.length + 1

/-- The sweep `q` gets below one closing bracket at most. -/
def Closes {α : Type} (d : Char) (q : Sweep α) : Prop :=
  ∀ ⦃next φ us⦄, Above next (d :: φ) us →
    Above next φ (q us).2 ∧ (q us).2.length ≤ us.length

/-- What holds of every bracket and every token. -/
def Always (_ : Char) (_ : Token) : Prop :=
  True

section Combinators

variable {α β : Type} {n m : Nat} {P Q : Char → Token → Prop} {C : Char → Prop} {q : Sweep α}
  {test : Token → Bool}

/-- Fewer tokens may be promised, and more asked of where a sweep starts. -/
theorem Stays.mono (h : Stays n P q) (hm : m ≤ n) (hQ : ∀ c t, Q c t → P c t) : Stays m Q q := by
  intro next c φ t us ht habove
  obtain ⟨habove', hlength⟩ := h (hQ c t ht) habove
  exact ⟨habove', by omega⟩

/-- What stays anywhere stays where something more is known. -/
theorem Stays.always (h : Stays n Always q) : Stays n P q :=
  h.mono (Nat.le_refl n) fun _ _ _ => trivial

/-- A sweep that takes nothing stays where it is. -/
theorem stays_pure (a : α) : Stays 0 P (pure a) :=
  fun _ _ _ _ _ _ habove => ⟨habove, Nat.le_refl _⟩

/-- Nothing is known of the token in hand behind a first part, but the floor is the same. -/
theorem Stays.bind {f : α → Sweep β} (hq : Stays n P q)
    (hf : ∀ a, Stays m (fun c _ => ∃ t, P c t) (f a)) : Stays (n + m) P (q >>= f) := by
  intro next c φ t us ht habove
  obtain ⟨habove', hlength⟩ := hq ht habove
  -- above the floor there is a token for the second part, too
  obtain ⟨t', us', hus'⟩ := habove'.exists_cons
  rw [hus'] at habove' hlength
  obtain ⟨habove'', hlength'⟩ := hf (q (t :: us)).1 ⟨t, ht⟩ habove'
  rw [bind_apply, hus']
  rw [List.length_cons] at hlength
  exact ⟨habove'', by omega⟩

/-- A part that stays anywhere may stand behind any other. -/
theorem Stays.andThen {f : α → Sweep β} (hq : Stays n P q) (hf : ∀ a, Stays 0 Always (f a)) :
    Stays n P (q >>= f) :=
  hq.bind (m := 0) fun a => (hf a).always

/-- A token may be passed over unless it closes the bracket on the floor. -/
theorem stays_pass (h : ∀ c t, P c t → t.kind = .mark c → t.isCloser = false) :
    Stays 1 P pass := by
  intro next c φ t us ht habove
  exact ⟨habove.tail (h c t ht), Nat.le_refl _⟩

/-- A part that a token starts stays if it does so where that token is in hand. -/
theorem Stays.whenever {q : Sweep Unit} (h : Stays n (fun c t => P c t ∧ test t = true) q) :
    Stays 0 P (whenever test q) := by
  intro next c φ t us ht habove
  rw [whenever_apply]
  split
  · next htest =>
    obtain ⟨habove', hlength⟩ := h ⟨ht, by simpa using htest⟩ habove
    exact ⟨habove', by omega⟩
  · exact ⟨habove, Nat.le_refl _⟩

/-- Where the token in hand always starts the part, the part takes what it takes. -/
theorem Stays.whenever_of {q : Sweep Unit} (h : Stays n P q) (hP : ∀ c t, P c t → test t = true) :
    Stays n P (Salvage.whenever test q) := by
  intro next c φ t us ht habove
  rw [whenever_apply, if_pos (by simpa using hP c t ht)]
  exact h ht habove

/-- A part that is only passed over where a token starts it. -/
theorem Stays.guarded {q : Sweep Unit} (h : Stays n (fun _ t => test t = true) q) :
    Stays 0 P (Salvage.whenever test q) :=
  Stays.whenever (h.mono (Nat.le_refl n) fun _ _ ht => ht.2)

/-- Of two parts, the one that is chosen stays. -/
theorem Stays.ite {r : Sweep α} (h : Stays n (fun c t => P c t ∧ test t = true) q)
    (hr : Stays 0 P r) : Stays 0 P (do if ← startsWith test then q else r) := by
  intro next c φ t us ht habove
  rw [startsWith_ite]
  split
  · next htest =>
    obtain ⟨habove', hlength⟩ := h ⟨ht, by simpa using htest⟩ habove
    exact ⟨habove', by omega⟩
  · exact hr ht habove

/-- A token that closes nothing can be passed over. -/
theorem stays_passIf (h : ∀ t, test t = true → t.isCloser = false) : Stays 0 P (passIf test) :=
  Stays.whenever (n := 1) <| stays_pass fun _ t ht _ => h t ht.2

/-- A loop stays where a round stays, by induction on what bounds the rounds. -/
theorem Stays.repeated {q : Sweep (Option α)} (h : Stays 0 (fun c _ => C c) q) :
    Stays 0 (fun c _ => C c) (repeated q) := by
  -- nothing but the bracket on the floor is known from round to round
  have hrepeat (supply : List Token) : Stays 0 (fun c _ => C c) (repeatFrom q supply) := by
    induction supply with
    | nil => exact stays_pure _
    | cons s supply ih =>
      refine h.bind (m := 0) fun oa => ?_
      cases oa with
      | none => exact stays_pure _
      | some a =>
        refine Stays.bind (n := 0) (m := 0) ?_ fun _ => stays_pure _
        exact ih.mono (Nat.le_refl _) fun c _ ⟨_, hc⟩ => hc
  intro next c φ t us hc habove
  exact hrepeat (t :: us) hc habove

/-- A loop that looks at the token in hand stays where its rounds stay. -/
theorem Stays.many (h : Stays n (fun c t => C c ∧ test t = true) q) :
    Stays 0 (fun c _ => C c) (many test q) := by
  refine Stays.repeated (Stays.ite (n := n) ?_ (stays_pure _))
  exact h.bind (m := 0) fun _ => stays_pure _

/-! ### Out of one bracket -/

/-- A part that stays, and one behind it that gets out of the bracket on the floor. -/
theorem Stays.closes_bind {d : Char} {f : α → Sweep β} (hq : Stays 0 (fun c _ => c = d) q)
    (hf : ∀ a, Closes d (f a)) : Closes d (q >>= f) := by
  intro next φ us habove
  obtain ⟨t, us, rfl⟩ := habove.exists_cons
  obtain ⟨habove', hlength⟩ := hq rfl habove
  obtain ⟨habove'', hlength'⟩ := hf (q (t :: us)).1 habove'
  rw [List.length_cons] at *
  exact ⟨habove'', by rw [bind_apply]; omega⟩

/-- Passing over a closing bracket, if it is in hand, gets out of one bracket at most. -/
theorem closes_passIf (d : Char) : Closes d (passIf (·.isMark d)) := by
  intro next φ us habove
  obtain ⟨t, us, rfl⟩ := habove.exists_cons
  rw [passIf, whenever_apply]
  split
  · exact ⟨habove.tail_weaken, Nat.le_succ _⟩
  · exact ⟨habove.weaken, Nat.le_refl _⟩

/-- What is made of its answer changes nothing about the brackets of a sweep. -/
theorem Closes.map {d : Char} {f : α → β} (h : Closes d q) :
    Closes d (q >>= fun a => pure (f a)) :=
  fun _ _ _ habove => h habove

/-- What gets out of one bracket may follow the token that opens it. -/
theorem Closes.opens {o d : Char} (ho : closer? o = some d) (h : Closes d q) :
    Stays 1 (fun _ t => t.isMark o = true) (pass >>= fun _ => q) := by
  intro next c φ t us ht habove
  -- the whole stack is the floor for what stands behind the bracket
  obtain ⟨e, σ, τ, hσ, hinside⟩ := habove.exists_top
  have hbehind := hinside.of_opening (by simpa [Token.isMark] using ht) ho
  obtain ⟨habove', hlength⟩ := h (Above.of_inside hbehind)
  rw [hσ] at habove'
  refine ⟨habove'.append, ?_⟩
  show (q us).2.length + 1 ≤ us.length + 1
  omega

/-- What a colon says about the brackets around it and about the token behind it. -/
def BehindColon (c : Char) (t : Token) : Prop :=
  c ≠ ']' ∧ t.isCloser = false

/-- Behind a colon, the whole stack is the floor, so that its top is known. -/
theorem Stays.colon (h : Stays n BehindColon q) :
    Stays 1 (fun _ t => t.isMark ':' = true) (pass >>= fun _ => q) := by
  intro next c φ t us ht habove
  obtain ⟨d, σ, τ, hσ, hinside⟩ := habove.exists_top
  -- the token behind the colon closes nothing, and the colon stands in no square brackets
  obtain ⟨hd, hhead, hinside⟩ := hinside.of_colon (by simpa [Token.isMark] using ht)
  obtain ⟨t', us, rfl⟩ := List.exists_cons_of_ne_nil hinside.ne_nil
  obtain ⟨habove', hlength⟩ := h ⟨hd, by simpa using hhead⟩ (Above.of_inside hinside)
  rw [hσ] at habove'
  refine ⟨habove'.append, ?_⟩
  show (q (t' :: us)).2.length + 1 ≤ us.length + 1 + 1
  omega

end Combinators

end Salvage

end SchemaAtlas
