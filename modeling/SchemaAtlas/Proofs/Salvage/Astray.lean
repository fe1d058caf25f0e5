import SchemaAtlas.Proofs.Salvage.Brackets
import SchemaAtlas.Proofs.Salvage.Selections

/-!
# A sweep that has lost its way

Wherever the sweep that salvages directives goes on inside brackets, it stays inside them, part by
part of the grammar. Two parts need a closer look: a type may pass over square brackets that do not
belong to it, and an operation takes the token that stands where its selection set belongs.

* `Salvage.stays_value?`, `Salvage.stays_passType`   values and types
* `Salvage.stays_passSelectionSet`                   selection sets
* `Salvage.stays_typeDirectives`                     type definitions
-/

namespace SchemaAtlas

namespace Salvage

variable {P : Char → Token → Prop}

/-! ## Values and directives -/

/-- A mark that closes nothing can be passed over where it is in hand. -/
theorem stays_passMark {c : Char} (hc : c ≠ ')' ∧ c ≠ ']' ∧ c ≠ '\x7d') :
    Stays 1 (fun _ t => t.isMark c = true) pass :=
  stays_pass fun _ _ ht _ => Token.isCloser_of_isMark ht hc

/-- A mark that closes nothing can be passed over wherever it may be missing. -/
theorem stays_passIfMark {c : Char} (hc : c ≠ ')' ∧ c ≠ ']' ∧ c ≠ '\x7d') :
    Stays 0 P (passIf (·.isMark c)) :=
  stays_passIf fun _ ht => Token.isCloser_of_isMark ht hc

/-- A name that may be missing can be passed over. -/
theorem stays_passName : Stays 0 P passName :=
  stays_passIf fun _ ht => Token.isCloser_of_isName ht

/-- Where a name is in hand, passing over it takes a token. -/
theorem stays_namePassed : Stays 1 (fun _ t => Grammar.isName t = true) passName :=
  (stays_pass fun _ _ ht _ => Token.isCloser_of_isName ht).whenever_of fun _ _ ht => ht

/-- Taking a name, if one is in hand, stays inside the brackets. -/
theorem stays_name? : Stays 0 P name? := by
  intro next c φ t us ht habove
  rw [name?_cons]
  cases hname : t.name? with
  | none => exact ⟨habove, Nat.le_refl _⟩
  | some name =>
    have hcloser : t.isCloser = false := Token.isCloser_of_isName (by simp [Grammar.isName, hname])
    exact ⟨habove.tail fun _ => hcloser, Nat.le_succ _⟩

/-- What can be passed over where a value may stand: all but the bracket on the floor. -/
def NotFloor (c : Char) (t : Token) : Prop :=
  t.kind = .mark c → t.isCloser = false

/-- A value is told by the token in hand, where one is left. -/
theorem valueOf_cons (nested : Sweep (Option Value)) (passing : Bool) (t : Token)
    (us : List Token) :
    valueOf nested passing (t :: us) =
      (match t.kind with
        | .mark '$' => do
          pass
          return (← name?).map Value.variable
        | .number => do
          pass
          return some .number
        | .string text => do
          pass
          return some (.string text)
        | .name _ => return (← name?).map Grammar.wordValue
        | .mark '[' => do
          pass
          let items ← many (!·.isMark ']') nested
          passIf (·.isMark ']')
          return some (.list (items.filterMap id))
        | .mark '\x7b' => do
          pass
          let fields ← repeated do
            match ← name? with
            | none => return none
            | some key =>
              if ← startsWith (·.isMark ':') then
                pass
                return some (key, ← nested)
              else return some (key, none)
          passIf (·.isMark '\x7d')
          return some (.object fields)
        | _ => do
          if passing then pass
          return none : Sweep (Option Value)) (t :: us) := rfl

/-- A loop over names with values behind colons. -/
theorem stays_keyed {γ : Type} {q : Sweep (Option Value)} {C : Char → Prop}
    (hq : Stays 0 BehindColon q) (make : Name → Option Value → γ) :
    Stays 0 (fun c _ => C c)
      (repeated do
        match ← name? with
        | none => return none
        | some key =>
          if ← startsWith (·.isMark ':') then
            pass
            return some (make key (← q))
          else return some (make key none)) := by
  -- each round takes a name, so only what stands behind a colon can matter
  refine Stays.repeated (stays_name?.andThen fun found => ?_)
  cases found with
  | none => exact stays_pure _
  | some key =>
    refine Stays.ite (n := 1) ?_ (stays_pure _)
    exact (hq.andThen fun _ => stays_pure _).colon.mono (Nat.le_refl _) fun _ _ ht => ht.2

section Values

variable {nested : Sweep (Option Value)} (hnested : Stays 0 NotFloor nested)
include hnested

/-- A list is passed over with the bracket that ends it, and no further. -/
theorem stays_list : Stays 1 (fun _ t => t.isMark '[' = true)
    (do
      pass
      let items ← many (!·.isMark ']') nested
      passIf (·.isMark ']')
      return some (.list (items.filterMap id)) : Sweep (Option Value)) := by
  refine Closes.opens (d := ']') rfl ?_
  refine Stays.closes_bind (Stays.many (n := 0) (hnested.mono (Nat.le_refl _) ?_)) fun items =>
    (closes_passIf ']').map
  -- the loop ends at the bracket on the floor
  rintro c t ⟨rfl, ht⟩ hkind
  simp [Token.isMark, hkind] at ht

/-- An object is passed over with the brace that ends it, and no further. -/
theorem stays_object : Stays 1 (fun _ t => t.isMark '\x7b' = true)
    (do
      pass
      let fields ← repeated do
        match ← name? with
        | none => return none
        | some key =>
          if ← startsWith (·.isMark ':') then
            pass
            return some (key, ← nested)
          else return some (key, none)
      passIf (·.isMark '\x7d')
      return some (.object fields) : Sweep (Option Value)) := by
  -- the brace opens, and the loop inside ends at its counterpart at the latest
  refine Closes.opens (d := '\x7d') rfl ?_
  have hcolon : Stays 0 BehindColon nested :=
    hnested.mono (Nat.le_refl _) fun c t ht _ => ht.2
  have hfields := stays_keyed (C := (· = '\x7d')) hcolon Prod.mk
  exact Stays.closes_bind hfields fun _ => (closes_passIf '\x7d').map

/-- A value stays inside the brackets around it if those inside it do. -/
theorem stays_valueOf (passing : Bool) :
    Stays 0 (fun c t => passing = true → NotFloor c t) (valueOf nested passing) := by
  intro next c φ t us ht habove
  have hmark {c' : Char} (hkind : t.kind = .mark c') : t.isMark c' = true := by
    simp [Token.isMark, hkind]
  have hplain : Stays 0 (fun _ t => t.isCloser = false) pass :=
    (stays_pass fun _ _ ht _ => ht).mono (Nat.zero_le 1) fun _ _ ht => ht
  -- what is no value is passed over only where the sweep says so
  have hpassing : Stays 0 (fun c t => passing = true → NotFloor c t)
      (do
        if passing then pass
        return none : Sweep (Option Value)) := by
    cases passing with
    | true => exact fun _ _ _ _ _ ht habove => ⟨habove.tail (ht rfl), Nat.le_succ _⟩
    | false => exact stays_pure _
  rw [valueOf_cons]
  -- from here on, the bracket on the floor and the token in hand are fixed
  refine (?_ : Stays 0 (fun c' t' => c' = c ∧ t' = t) _) ⟨rfl, rfl⟩ habove
  generalize (do
    if passing then pass
    return none : Sweep (Option Value)) = passed at hpassing ⊢
  -- the kinds of values, as the sweep tells them
  split
  · next hkind =>
    refine (hplain.andThen fun _ => stays_name?.andThen fun _ => stays_pure _).mono
      (Nat.le_refl _) ?_
    rintro _ _ ⟨rfl, rfl⟩
    exact Token.isCloser_of_isMark (hmark hkind) (by decide)
  · next hkind =>
    refine (hplain.andThen fun _ => stays_pure _).mono (Nat.le_refl _) ?_
    rintro _ _ ⟨rfl, rfl⟩
    simp [Token.isCloser, Token.isMark, hkind]
  · next text hkind =>
    refine (hplain.andThen fun _ => stays_pure _).mono (Nat.le_refl _) ?_
    rintro _ _ ⟨rfl, rfl⟩
    simp [Token.isCloser, Token.isMark, hkind]
  · exact stays_name?.andThen fun _ => stays_pure _
  · next hkind => exact (stays_list hnested).mono (Nat.zero_le 1) fun _ _ h => h.2 ▸ hmark hkind
  · next hkind => exact (stays_object hnested).mono (Nat.zero_le 1) fun _ _ h => h.2 ▸ hmark hkind
  · exact hpassing.mono (Nat.le_refl _) fun _ _ h => h.1 ▸ h.2 ▸ ht

end Values

/-- A nested value stays inside the brackets around it, however deep it is nested. -/
theorem stays_nestedValue (levels : Nat) : Stays 0 NotFloor (nestedValue levels) := by
  -- below the last level no value is read, and nothing passed over
  induction levels with
  | zero => exact stays_pure _
  | succ levels ih => exact (stays_valueOf ih true).mono (Nat.le_refl _) fun _ _ ht _ => ht

/-- A value stays inside the brackets around it, whatever stands in its place. -/
theorem stays_value? : Stays 0 P value? :=
  (stays_valueOf (stays_nestedValue _) false).mono (Nat.le_refl _) fun _ _ _ hpassing =>
    absurd hpassing (by decide)

/-- Arguments are passed over with the parenthesis that ends them. -/
theorem stays_arguments : Stays 1 (fun _ t => t.isMark '(' = true) arguments := by
  refine Closes.opens (d := ')') rfl ?_
  exact Stays.closes_bind (stays_keyed (C := (· = ')')) stays_value? Argument.mk) fun _ =>
    (closes_passIf ')').map

/-- Directives stay inside the brackets around them. -/
theorem stays_directives : Stays 0 P directives := by
  have hdirective : Stays 1 (fun _ t => True ∧ t.isMark '@' = true)
      (do
        pass
        let name ← name?
        let arguments ← if ← startsWith (·.isMark '(') then arguments else pure []
        return name.map fun name => { name, arguments : Directive }) := by
    refine ((stays_passMark (c := '@') (by decide)).mono (Nat.le_refl _) fun _ _ ht =>
      ht.2).andThen fun _ => stays_name?.andThen fun _ => ?_
    -- the arguments stand in brackets of their own
    refine Stays.ite (n := 1) ?_ (stays_pure _)
    exact (stays_arguments.andThen fun _ => stays_pure _).mono (Nat.le_refl _) fun _ _ ht => ht.2
  exact (hdirective.many.mono (Nat.le_refl _) fun _ _ _ => trivial).andThen fun _ => stays_pure _

/-- Passing over directives stays inside the brackets around them. -/
theorem stays_passDirectives : Stays 0 P passDirectives :=
  stays_directives.andThen fun _ => stays_pure _

/-! ## Types and the values that they type -/

/-- Square brackets at most are passed over behind the item of a list type. -/
theorem stays_behindItem (answer : Option Token) :
    Stays 0 (fun c _ => c ≠ ']')
      (do
        match answer with
        | none => passIf (·.isMark ']')
        | some broken => passIf fun t => t.isMark ']' && t.start == broken.stop
        passIf (·.isMark '!')) := by
  -- a test for a square bracket never passes the bracket on the floor
  have hsquare {test : Token → Bool} (htest : ∀ t, test t = true → t.isMark ']' = true) :
      Stays 0 (fun c _ => c ≠ ']') (passIf test) := by
    refine Stays.whenever (n := 1) (stays_pass fun c t ht hkind => ?_)
    have hmark := htest t ht.2
    simp only [Token.isMark, hkind, decide_eq_true_eq, Token.Kind.mark.injEq] at hmark
    exact absurd hmark ht.1
  cases answer with
  | none => exact (hsquare fun _ ht => ht).andThen fun _ => stays_passIfMark (by decide)
  | some broken =>
    exact (hsquare fun t ht => (Bool.and_eq_true_iff.1 ht).1).andThen fun _ =>
      stays_passIfMark (by decide)

/-- A list type is passed over up to the floor, whose bracket is not a square one. -/
theorem stays_passItem {item : Sweep (Option Token)} (hitem : Stays 0 BehindColon item)
    (hcloser : ∀ t us, t.isMark ']' = true → item (t :: us) = (some t, us)) :
    Stays 1 (fun c t => c ≠ ']' ∧ t.isMark '[' = true) (do
      pass
      passItem item) := by
  intro next c φ t us ⟨hc, ht⟩ habove
  -- the bracket of the list stands on top while its item is passed over
  obtain ⟨d, σ, τ, hσ, hinside⟩ := habove.exists_top
  have hbehind := hinside.of_opening (d := ']') (by simpa [Token.isMark] using ht) rfl
  obtain ⟨t', us, rfl⟩ := List.exists_cons_of_ne_nil hbehind.ne_nil
  have hstep : Above next (c :: φ) (item (t' :: us)).2 ∧
      (item (t' :: us)).2.length ≤ us.length + 1 := by
    cases hclosed : t'.isCloser with
    | true =>
      -- the item is missing, and the bracket of its list stands in its place
      obtain ⟨hkind, hinside'⟩ := hbehind.of_closer hclosed
      rw [hcloser t' us (by simp [Token.isMark, hkind])]
      rw [hσ] at hinside'
      exact ⟨⟨τ, hinside'⟩, Nat.le_succ _⟩
    | false =>
      have habove' : Above next (c :: φ) (t' :: us) := ⟨']' :: τ, by rwa [List.cons_append, ← hσ]⟩
      exact hitem ⟨hc, hclosed⟩ habove'
  obtain ⟨hitem', hlength⟩ := hstep
  obtain ⟨t'', us'', hus''⟩ := hitem'.exists_cons
  rw [hus''] at hitem' hlength
  obtain ⟨habove', hlength'⟩ := stays_behindItem (item (t' :: us)).1 hc hitem'
  have hrest : (do
      pass
      passItem item : Sweep Unit) (t :: t' :: us) = _ :=
    show passItem item (t' :: us) = _ from bind_apply item _ _
  rw [hrest, hus'']
  rw [List.length_cons] at hlength
  exact ⟨habove', Nat.succ_le_succ (Nat.le_trans hlength' hlength)⟩

/-- A square bracket is no type, and it is the answer that says so. -/
theorem passType_closer (levels : Nat) (t : Token) (us : List Token) (ht : t.isMark ']' = true) :
    passType levels (t :: us) = (some t, us) := by
  have hkind : t.kind = .mark ']' := by simpa [Token.isMark] using ht
  have hopening : t.isMark '[' = false := by simp [Token.isMark, hkind]
  have hname : Grammar.isName t = false := by simp [Grammar.isName, Token.name?, hkind]
  cases levels <;>
    · show passTypeOf _ (t :: us) = _
      rw [passTypeOf_cons, if_neg (by simp [hopening]), if_neg (by simp [hname])]

/-- Behind a colon a type stays inside the brackets around it. -/
theorem stays_passType (levels : Nat) : Stays 0 BehindColon (passType levels) := by
  have htypeOf (behindBracket : Sweep Unit)
      (hlist : Stays 1 (fun c t => c ≠ ']' ∧ t.isMark '[' = true) (do
        pass
        behindBracket)) : Stays 0 BehindColon (passTypeOf behindBracket) := by
    intro next c φ t us ⟨hc, hcloser⟩ habove
    rw [passTypeOf_cons]
    split
    · next hmark =>
      obtain ⟨habove', hlength⟩ := hlist ⟨hc, hmark⟩ habove
      exact ⟨habove', Nat.le_of_succ_le hlength⟩
    · have htail := habove.tail fun _ => hcloser
      obtain ⟨t', us, rfl⟩ := htail.exists_cons
      split
      · obtain ⟨habove', hlength⟩ :=
          stays_passIfMark (P := Always) (c := '!') (by decide) trivial htail
        exact ⟨habove', Nat.le_succ_of_le hlength⟩
      · exact ⟨htail, Nat.le_succ _⟩
  -- a list type is one level deeper
  induction levels with
  | zero =>
    refine htypeOf _ ?_
    refine (stays_passMark (c := '[') (by decide)).mono (Nat.le_refl _) fun _ _ ht => ht.2
  | succ levels ih => exact htypeOf _ (stays_passItem ih (passType_closer levels))

/-- What stands behind a colon is passed over as a type without leaving the brackets around it. -/
theorem stays_passTyping : Stays 0 BehindColon passTyping :=
  (stays_passType _).andThen fun _ => stays_pure _

/-- A default value stays inside the brackets around it. -/
theorem stays_passDefault : Stays 0 P passDefault := by
  refine Stays.guarded (n := 1) ?_
  exact (stays_passMark (by decide)).andThen fun _ => stays_value?.andThen fun _ => stays_pure _

/-- Passes over a colon, a type and what may follow it. -/
theorem stays_typed {q : Sweep Unit} (hq : Stays 0 Always q) :
    Stays 0 P (whenever (·.isMark ':') do
      pass
      whenever startsType do
        passTyping
        q) := by
  refine Stays.guarded (n := 1) (Stays.colon (n := 0) (Stays.whenever (n := 0) ?_))
  exact (stays_passTyping.mono (Nat.le_refl _) fun _ _ ht => ht.1).andThen fun _ => hq

/-- A description closes nothing. -/
theorem stays_passDescription : Stays 0 P passDescription := by
  refine stays_passIf fun t ht => ?_
  obtain ⟨kind, start, stop, comma⟩ := t
  cases kind with
  | string text => rfl
  | _ => cases ht

/-- An argument that a field takes stays inside the brackets around it. -/
theorem stays_passInputValue : Stays 0 P passInputValue := by
  refine stays_passDescription.andThen fun _ => stays_passName.andThen fun _ => ?_
  exact stays_typed (stays_passDefault.andThen fun _ => stays_passDirectives)

/-- A block ends at its closing bracket at the latest. -/
theorem closes_block {item : Sweep Unit} (closing : Char) (hitem : Stays 0 Always item) :
    Closes closing (do
      let _ ← many Grammar.isDescribedName item
      passIf (·.isMark closing)) :=
  Stays.closes_bind (Stays.many (C := (· = closing)) hitem.always) fun _ => closes_passIf closing

/-- A block is passed over with its brackets, and no further. -/
theorem stays_passBlock {item : Sweep Unit} {opening closing : Char}
    (h : closer? opening = some closing) (hitem : Stays 0 Always item) :
    Stays 0 P (whenever (·.isMark opening) (passBlock closing item)) :=
  Stays.guarded ((closes_block closing hitem).opens h)

/-- A field of a type stays inside the brackets around it. -/
theorem stays_passField : Stays 0 P passField := by
  refine stays_passDescription.andThen fun _ => stays_passName.andThen fun _ => ?_
  refine (stays_passBlock rfl stays_passInputValue).andThen fun _ => ?_
  exact stays_typed stays_passDirectives

/-! ## Operations and fragments -/

/-- A type condition stays inside the brackets around it. -/
theorem stays_passTypeCondition : Stays 0 P passTypeCondition := by
  refine Stays.guarded (n := 0) ?_
  refine (stays_passIf fun t ht => ?_).andThen fun _ => stays_passName
  exact Token.isCloser_of_isName (Follows.isName_of_isWord ht)

section Selections

variable {nested : Sweep Unit} (hnested : Stays 1 (fun _ t => t.isMark '\x7b' = true) nested)
include hnested

/-- A selected field takes a name at least, and stays inside the brackets around it. -/
theorem stays_passSelectedField :
    Stays 1 (fun _ t => Grammar.isName t = true) (passSelectedField nested) := by
  have hbehind : Stays 0 Always (do
      whenever (·.isMark '(') do
        let _ ← arguments
      passDirectives
      whenever (·.isMark '\x7b') nested) :=
    (Stays.guarded (n := 1) (stays_arguments.andThen fun _ => stays_pure _)).andThen
      fun _ => stays_passDirectives.andThen fun _ => hnested.guarded
  have hnamed := stays_namePassed.andThen fun _ => hbehind
  have hselected := stays_passName.andThen (P := Always) fun _ => hbehind
  -- the field may have an alias, told by the colon behind the name
  intro next c φ t us ht habove
  rw [passSelectedField_eq]
  split
  · next hcolon =>
    -- an alias and its colon are passed over first
    have htail := habove.tail fun _ => Token.isCloser_of_isName ht
    obtain ⟨t', us, rfl⟩ := htail.exists_cons
    have hmark : t'.isMark ':' = true := (by simpa using hcolon : _ ∧ _).2
    have htail' := htail.tail fun _ => Token.isCloser_of_isMark hmark (by decide)
    obtain ⟨t'', us, rfl⟩ := htail'.exists_cons
    obtain ⟨habove', hlength⟩ := hselected trivial htail'
    exact ⟨habove', Nat.succ_le_succ (Nat.le_succ_of_le hlength)⟩
  · exact hnamed ht habove

/-- A selection stays inside the brackets around it. -/
theorem stays_passSelection : Stays 0 P (passSelection nested) := by
  have hspread : Stays 1 (fun _ t => t.kind = .spread) pass := by
    refine stays_pass fun _ t ht hkind => ?_
    cases ht.symm.trans hkind
  have hset : Stays 0 Always (whenever (·.isMark '\x7b') nested) := hnested.guarded
  have hinline := hspread.andThen fun _ => stays_passTypeCondition.andThen fun _ =>
    stays_passDirectives.andThen fun _ => hset.andThen fun _ => stays_pure (some ())
  have hnamed := hspread.andThen fun _ => stays_passName.andThen fun _ =>
    stays_passDirectives.andThen fun _ => stays_pure (some ())
  intro next c φ t us _ habove
  -- a spread, a field, or nothing that can be selected
  by_cases hkind : t.kind = .spread
  · rw [passSelection_of_spread hkind]
    split
    · obtain ⟨habove', hlength⟩ := hinline hkind habove
      exact ⟨habove', Nat.le_of_succ_le hlength⟩
    · split
      · obtain ⟨habove', hlength⟩ := hnamed hkind habove
        exact ⟨habove', Nat.le_of_succ_le hlength⟩
      · exact ⟨habove, Nat.le_refl _⟩
  · by_cases hname : Grammar.isName t = true
    · rw [passSelection_of_name hname]
      obtain ⟨habove', hlength⟩ := stays_passSelectedField hnested hname habove
      exact ⟨habove', Nat.le_of_succ_le hlength⟩
    · rw [passSelection_stop nested (t :: us) (by simp [hname, hkind])]
      exact ⟨habove, Nat.le_refl _⟩

end Selections

/-- A selection set is passed over with the brace that ends it. -/
theorem stays_passSelectionSet (levels : Nat) :
    Stays 1 (fun _ t => t.isMark '\x7b' = true) (passSelectionSet levels) := by
  -- below the last level, only the brace itself is passed over
  induction levels with
  | zero => exact stays_passMark (by decide)
  | succ levels ih =>
    -- the selections end at the brace at the latest
    refine Closes.opens (d := '\x7d') rfl ?_
    exact Stays.closes_bind (Stays.repeated (C := (· = '\x7d')) (stays_passSelection ih)) fun _ =>
      closes_passIf '\x7d'

/-- The variables of an operation are passed over with the parenthesis that ends them. -/
theorem stays_passVariables : Stays 1 (fun _ t => t.isMark '(' = true) passVariables := by
  -- the parenthesis opens, and each variable behind its sign stays inside
  refine Closes.opens (d := ')') rfl ?_
  refine Stays.closes_bind (Stays.many (n := 1) (C := (· = ')')) ?_) fun _ => closes_passIf ')'
  refine ((stays_passMark (c := '$') (by decide)).mono (Nat.le_refl _) fun _ _ ht =>
    ht.2).andThen fun _ => stays_passName.andThen fun _ => ?_
  refine Stays.guarded (Stays.colon (n := 0) ?_)
  exact stays_passTyping.andThen fun _ => stays_passDefault.andThen fun _ => stays_passDirectives

/-- What stands before the selection set of an operation stays inside the brackets around it. -/
theorem stays_passOperationHead :
    Stays 1 (fun _ t => t.isCloser = false) passOperationHead := by
  refine (stays_pass fun _ _ ht _ => ht).andThen fun _ => stays_passName.andThen fun _ => ?_
  exact stays_passVariables.guarded.andThen fun _ => stays_passDirectives

/-- A fragment stays inside the brackets around it. -/
theorem stays_passFragment : Stays 1 (fun _ t => t.isCloser = false) passFragment := by
  refine (stays_pass fun _ _ ht _ => ht).andThen fun _ => ?_
  refine (stays_passIf fun t ht => Token.isCloser_of_isName (Bool.and_eq_true_iff.1 ht).1).andThen
    fun _ => stays_passTypeCondition.andThen fun _ => stays_passDirectives.andThen fun _ => ?_
  exact (stays_passSelectionSet _).guarded

/-! ## Definitions -/

/-- Items parted by a mark stay inside the brackets around them. -/
theorem stays_separated {separator : Char} {item : Sweep Unit}
    (h : separator ≠ ')' ∧ separator ≠ ']' ∧ separator ≠ '\x7d') (hitem : Stays 0 Always item) :
    Stays 0 P (separated separator item) := by
  refine (stays_passIfMark h).andThen fun _ => hitem.andThen fun _ => ?_
  refine Stays.andThen ?_ fun _ => stays_pure _
  refine (Stays.many (C := fun _ => True) (n := 1) ?_).mono (Nat.le_refl _) fun _ _ _ => trivial
  exact ((stays_passMark h).andThen fun _ => hitem).mono (Nat.le_refl _) fun _ _ ht => ht.2

/-- A value of an enum stays inside the brackets around it. -/
theorem stays_passEnumValue : Stays 0 P (do
    passDescription
    passName
    passDirectives) :=
  stays_passDescription.andThen fun _ => stays_passName.andThen fun _ => stays_passDirectives

/-- Passes over root operations behind the brace before them. -/
theorem closes_rootOperations : Closes '\x7d' (do
    let _ ← many Grammar.isName do
      pass
      whenever (·.isMark ':') do
        pass
        passName
    passIf (·.isMark '\x7d')) := by
  refine Stays.closes_bind (Stays.many (n := 1) (C := (· = '\x7d')) ?_) fun _ =>
    closes_passIf '\x7d'
  refine (stays_pass fun _ _ ht _ => Token.isCloser_of_isName ht.2).andThen fun _ => ?_
  exact Stays.guarded ((stays_passMark (by decide)).andThen fun _ => stays_passName)

/-- The definition of a type stays inside the brackets around it, whatever kind it is of. -/
theorem stays_typeDirectives (kind : TypeKind) : Stays 0 P (typeDirectives kind) := by
  have himplements : Stays 0 Always (whenever (·.isWord "implements") do
      pass
      separated '&' passName) := by
    refine Stays.guarded (n := 1) ((stays_pass fun _ t ht hkind => ?_).andThen fun _ =>
      stays_separated (by decide) stays_passName)
    simp [Token.isWord, hkind] at ht
  have hmembers : Stays 0 Always (whenever (·.isMark '=') do
      pass
      separated '|' passName) :=
    Stays.guarded ((stays_passMark (by decide)).andThen fun _ =>
      stays_separated (by decide) stays_passName)
  refine stays_passName.andThen fun _ => ?_
  -- what follows the directives depends on the kind
  cases kind with
  | scalar => exact stays_directives.andThen fun _ => stays_pure _
  | object =>
    refine himplements.andThen fun _ => stays_directives.andThen fun _ => ?_
    exact (stays_passBlock rfl stays_passField).andThen fun _ => stays_pure _
  | interface =>
    refine himplements.andThen fun _ => stays_directives.andThen fun _ => ?_
    exact (stays_passBlock rfl stays_passField).andThen fun _ => stays_pure _
  | union => exact stays_directives.andThen fun _ => hmembers.andThen fun _ => stays_pure _
  | enum =>
    refine stays_directives.andThen fun _ => ?_
    exact (stays_passBlock rfl stays_passEnumValue).andThen fun _ => stays_pure _
  | input =>
    refine stays_directives.andThen fun _ => ?_
    exact (stays_passBlock rfl stays_passInputValue).andThen fun _ => stays_pure _

/-- The definition of a schema stays inside the brackets around it. -/
theorem stays_schemaDirectives : Stays 0 P schemaDirectives := by
  refine stays_directives.andThen fun _ => ?_
  exact (Stays.guarded (closes_rootOperations.opens rfl)).andThen fun _ => stays_pure _

/-- A word can be passed over. -/
theorem stays_passWord (word : String) : Stays 1 (fun _ t => t.isWord word = true) pass := by
  refine stays_pass fun _ t ht hkind => ?_
  simp [Token.isWord, hkind] at ht

/-- The definition of a directive stays inside the brackets around it. -/
theorem stays_passDirectiveDefinition : Stays 0 P passDirectiveDefinition := by
  refine (stays_passIfMark (by decide)).andThen fun _ => stays_passName.andThen fun _ => ?_
  refine (stays_passBlock rfl stays_passInputValue).andThen fun _ => ?_
  refine (stays_passWord "repeatable").guarded.andThen fun _ =>
    (stays_passWord "on").guarded.andThen fun _ => Stays.guarded (n := 0) ?_
  -- the locations, of which each is a name
  refine stays_separated (by decide) (stays_passIf fun t ht => Token.isCloser_of_isName ?_)
  cases hname : t.name? with
  | none => simp [hname] at ht
  | some name => simp [Grammar.isName, hname]

end Salvage

end SchemaAtlas
