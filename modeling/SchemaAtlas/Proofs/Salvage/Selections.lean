import SchemaAtlas.Proofs.Salvage.Values

/-!
# Operations in step

The sweep that salvages directives passes over operations and fragments as the reader of documents
does. A spread and an alias are told by the token behind the one in hand, so the token behind the
last one of a text must not matter there.

* `Salvage.passes_selectionSet`   selection sets, level by level
* `Salvage.passes_operation`, `Salvage.passes_fragment`   what may be run
-/

namespace SchemaAtlas

open Token (Alike KindTest)

namespace Salvage

open Reader Follows

/-- A type condition is passed over where one is read. -/
theorem passes_typeCondition {E : List Token → Prop} :
    Passes 2 E Grammar.typeCondition passTypeCondition := by
  have hbegins : Begins Grammar.isName (word "on") :=
    begins_take fun _ h => isName_of_isWord (Option.isSome_ite.1 h)
  refine whenever_of_begins ?_ Token.kindTest_isName (hbegins.bind _)
  refine (word_passIf "on").bind_anywhere (m := 1) fun _ _ _ => ?_
  exact name_passName.map_left fun _ _ _ => trivial

/-- What stands behind the token in hand reads alike, if it is there at all. -/
theorem behind_alike {more ts us : List Token} (halike : Alike more ts us) {test : Token → Bool}
    (htest : KindTest test) (hlength : 2 ≤ ts.length) :
    (us.drop 1).head?.any (fun u => !u.afterComma && test u) =
      (ts.drop 1).head?.any fun t => !t.afterComma && test t := by
  cases halike with
  | done => simp at hlength
  | @next t u ts us hkind hcomma hrest =>
    -- the second token is there, and so is what stands before it
    cases hrest with
    | done => simp at hlength
    | @next t' u' ts us hkind' hcomma' hrest =>
      have hsame : u'.afterComma = t'.afterComma := by simpa using hcomma t' rfl
      simp [hsame, htest t' u' hkind']

section Selections

variable {levels : Nat} {nested : Reader Nat} {nested' : Sweep Unit}
  (hlevels : levels ≤ Grammar.depthLimit) (hnested : Passes 0 Inner nested nested')
include hlevels hnested

/-- A field of a selection set behind its alias. -/
theorem passes_selected :
    Passes 1 Inner
      (do
        let _ ← name
        let _ ← maybe (·.isMark '(') (Grammar.arguments false levels)
        let _ ← Grammar.directives false levels
        let _ ← maybe (·.isMark '\x7b') nested)
      (do
        passName
        whenever (·.isMark '(') do
          let _ ← arguments
        passDirectives
        whenever (·.isMark '\x7b') nested') := by
  refine name_passName.bind_anywhere (m := 0) fun _ _ _ => ?_
  -- what the arguments are does not matter here
  have harguments : Passes 3 Inner (Grammar.arguments false levels) (do let _ ← arguments) :=
    (follows_arguments false hlevels).map_right fun _ _ _ => trivial
  refine (maybe_whenever harguments (Token.kindTest_isMark '(') fun _ h => h.elim).bind (m := 0)
    (fun _ _ _ => ?_) fun _ => (steady_many _ _).bind fun _ => (steady_maybe _ _).bind fun _ =>
      steady_pure _
  refine (follows_passDirectives false hlevels).inner.bind (m := 0) (fun _ _ _ => ?_) fun _ =>
    (steady_maybe _ _).bind fun _ => steady_pure _
  exact (maybe_whenever hnested (Token.kindTest_isMark '\x7b') fun _ h => h.elim).map_left
    fun _ _ _ => trivial

omit hlevels hnested in
/-- An alias is written where a colon follows the token in hand. -/
theorem selectedField_eq (levels : Nat) (nested : Reader Nat) (ts : List Token) :
    Grammar.selectedField levels nested ts =
      if (ts.drop 1).head?.any (fun t => !t.afterComma && t.isMark ':') = true then
        (do
          let _ ← name
          let _ ← mark ':'
          let _ ← name
          let _ ← maybe (·.isMark '(') (Grammar.arguments false levels)
          let _ ← Grammar.directives false levels
          let _ ← maybe (·.isMark '\x7b') nested) ts
      else
        (do
          let _ ← name
          let _ ← maybe (·.isMark '(') (Grammar.arguments false levels)
          let _ ← Grammar.directives false levels
          let _ ← maybe (·.isMark '\x7b') nested) ts := by
  show ((if _ = true then _ else _ : Reader Unit) ts) = _
  split <;> rfl

omit hlevels hnested in
/-- A field of a selection set begins with a name, be it its own or its alias. -/
theorem begins_selectedField (levels : Nat) (nested : Reader Nat) :
    Begins Grammar.isName (Grammar.selectedField levels nested) := by
  intro ts r h
  rw [selectedField_eq] at h
  split at h
  · exact begins_name.bind _ ts r h
  · exact begins_name.bind _ ts r h

omit hlevels hnested in
/-- The sweep tells an alias by the same colon. -/
theorem passSelectedField_eq (nested' : Sweep Unit) (us : List Token) :
    passSelectedField nested' us =
      if (us.drop 1).head?.any (fun t => !t.afterComma && t.isMark ':') = true then
        (do
          pass
          pass
          passName
          whenever (·.isMark '(') do
            let _ ← arguments
          passDirectives
          whenever (·.isMark '\x7b') nested') us
      else
        (do
          passName
          whenever (·.isMark '(') do
            let _ ← arguments
          passDirectives
          whenever (·.isMark '\x7b') nested') us := by
  show ((if _ = true then _ else _ : Sweep Unit) us) = _
  split <;> rfl

/-- A field of a selection set is passed over, with its alias if it has one. -/
theorem passes_selectedField :
    Passes 1 Inner (Grammar.selectedField levels nested) (passSelectedField nested') := by
  have hselected := passes_selected hlevels hnested
  have haliased := name_pass.bind_anywhere (m := 2) fun _ _ _ =>
    (mark_pass ':').bind_anywhere (m := 1) fun _ _ _ => hselected
  intro more ts us a rest halike h hend
  -- a token is left behind the field, so what stands behind its first token is there too
  rw [selectedField_eq] at h
  have hlength : 2 ≤ ts.length := by
    -- nothing that is inside can be the last token
    have hrest : 0 < rest.length := List.length_pos_iff.2 hend
    split at h
    · have := (haliased (Alike.refl ts) h hend).2.length_le
      omega
    · have := (hselected (Alike.refl ts) h hend).2.length_le
      omega
  rw [passSelectedField_eq, behind_alike halike (Token.kindTest_isMark ':') hlength]
  -- with an alias or without one
  split at h
  · next hcolon =>
    rw [if_pos hcolon]
    obtain ⟨-, htogether⟩ := haliased halike h hend
    exact ⟨trivial, htogether.mono (by omega)⟩
  · next hcolon =>
    rw [if_neg hcolon]
    exact hselected halike h hend

omit hlevels hnested in
/-- What stands behind a spread that is no named one. -/
theorem kindTest_inline :
    KindTest fun t => t.isWord "on" || t.isMark '@' || t.isMark '\x7b' := by
  intro t u h
  simp only [Token.isWord, Token.isMark, h]

omit hlevels hnested in
/-- Behind a spread that is no named one, only the type of a fragment is a name. -/
theorem passes_maybeTypeCondition {more ts us rest : List Token} {a : Option Unit}
    (halike : Alike more ts us)
    (hinline : ts.head?.any (fun t => t.isWord "on" || t.isMark '@' || t.isMark '\x7b') = true)
    (h : maybe (·.isWord "on") Grammar.typeCondition ts = .ok (a, rest)) :
    Together 0 ts us rest (passTypeCondition us).2 := by
  cases halike with
  | done => cases hinline
  | @next t u ts us hkind hcomma hrest =>
    have halike := Token.Alike.next hkind hcomma hrest
    rw [maybe_cons] at h
    cases ht : t.isWord "on" with
    | true =>
      rw [ht, if_pos rfl, map_eq_pure_bind, Reader.bind_eq_ok] at h
      obtain ⟨_, _, hcondition, hpure⟩ := h
      obtain ⟨-, rfl⟩ := Reader.pure_eq_ok.1 hpure
      have hstep := passes_typeCondition (E := Anywhere) halike hcondition fun _ => trivial
      exact hstep.2.mono (Nat.zero_le 2)
    | false =>
      obtain ⟨-, rfl⟩ : none = a ∧ t :: ts = rest := by simpa [ht] using h
      -- no type is read: a mark stands there, which no sweep takes for a name
      have hmark : t.kind = .mark '@' ∨ t.kind = .mark '\x7b' := by
        simpa [ht, Token.isMark] using hinline
      have hname : Grammar.isName u = false := by
        rw [← Token.kindTest_isName t u hkind]
        rcases hmark with hmark | hmark <;> simp [Grammar.isName, Token.name?, hmark]
      rw [passTypeCondition, whenever_apply, if_neg (by simp [hname])]
      exact .refl _ _

omit hlevels hnested in
/-- A spread is told by the token behind it. -/
theorem passSelection_of_spread {u : Token} {us : List Token} (hu : u.kind = .spread) :
    passSelection nested' (u :: us) =
      if us.head?.any (fun t => !t.afterComma &&
          (t.isWord "on" || t.isMark '@' || t.isMark '\x7b')) = true then
        (do
          pass
          passTypeCondition
          passDirectives
          whenever (·.isMark '\x7b') nested'
          return some ()) (u :: us)
      else if us.head?.any (fun t => !t.afterComma && Grammar.isName t) = true then
        (do
          pass
          passName
          passDirectives
          return some ()) (u :: us)
      else (none, u :: us) := by
  show ((if u.kind = .spread then _ else _ : Sweep (Option Unit)) (u :: us)) = _
  rw [if_pos hu]
  show ((if _ = true then _ else (_ : Sweep (Option Unit))) (u :: us)) = _
  -- the two questions that the sweep asks
  split
  · next hinline => exact (if_pos hinline).symm
  · next hinline =>
    refine Eq.trans ?_ (if_neg hinline).symm
    show ((if _ = true then _ else (_ : Sweep (Option Unit))) (u :: us)) = _
    split
    · next hnamed => exact (if_pos hnamed).symm
    · next hnamed => exact (if_neg hnamed).symm

omit hlevels hnested in
/-- A reader of spreads rejects wrong tokens. -/
theorem rejects_spread : Rejects fun t => if t.kind = .spread then some t else none := by
  intro t ht
  simp [ht]

/-- A fragment in place. What stands behind the spread has no comma before it. -/
theorem passes_inlineSpread (hbegins : Begins (·.isMark '\x7b') nested)
    {more ts us rest : List Token} {t u : Token} (halike : Alike more (t :: ts) (u :: us))
    (ht : t.kind = .spread)
    (hinline : ts.head?.any (fun t => !t.afterComma &&
      (t.isWord "on" || t.isMark '@' || t.isMark '\x7b')) = true)
    (h : (do
      let _ ← take fun t => if t.kind = .spread then some t else none
      let _ ← maybe (·.isWord "on") Grammar.typeCondition
      let _ ← Grammar.directives false levels
      let _ ← nested : Reader Unit) (t :: ts) = .ok ((), rest)) (hend : rest = [] → Inner more) :
    Together 1 (t :: ts) (u :: us) rest
      ((do
        pass
        passTypeCondition
        passDirectives
        whenever (·.isMark '\x7b') nested'
        return some () : Sweep (Option Unit)) (u :: us)).2 := by
  obtain ⟨_, ts₁, htake, h⟩ := Reader.bind_eq_ok.1 h
  obtain ⟨_, ts₂, hmaybe, h⟩ := Reader.bind_eq_ok.1 h
  obtain ⟨_, ts₃, hdirectives, h⟩ := Reader.bind_eq_ok.1 h
  obtain ⟨_, ts₄, hset, hpure⟩ := Reader.bind_eq_ok.1 h
  obtain ⟨-, rfl⟩ := Reader.pure_eq_ok.1 hpure
  -- the spread
  obtain ⟨-, htogether₁⟩ :=
    take_pass (E := Anywhere) rejects_spread halike htake fun _ => trivial
  have halike₁ := htogether₁.alike halike
  have hhead : ts₁.head?.any (fun t => t.isWord "on" || t.isMark '@' || t.isMark '\x7b') =
      true := by
    obtain ⟨-, rfl⟩ : t = _ ∧ ts = ts₁ := by simpa [take, ht] using htake
    cases ts with
    | nil => cases hinline
    | cons t' ts => simp_all
  -- its type and its directives, of which the selection set takes none
  have htogether₂ := passes_maybeTypeCondition halike₁ hhead hmaybe
  have halike₂ := htogether₂.alike halike₁
  obtain ⟨-, htogether₃⟩ := (follows_passDirectives false hlevels).inner halike₂ hdirectives
    fun hnil => by simpa [hnil] using hbegins _ _ hset
  -- its selection set
  obtain ⟨-, htogether₄⟩ := whenever_of_begins hnested (Token.kindTest_isMark '\x7b') hbegins
    (htogether₃.alike halike₂) hset hend
  exact htogether₁.trans (htogether₂.trans (htogether₃.trans htogether₄))

omit hnested in
/-- The name of a fragment. -/
theorem follows_namedSpread :
    Follows 2 Inner (fun _ passed => passed = some ())
      (do
        let _ ← take fun t => if t.kind = .spread then some t else none
        let _ ← Grammar.fragmentName
        let _ ← Grammar.directives false levels)
      (do
        pass
        passName
        passDirectives
        return some ()) := by
  -- the three dots, the name and the directives in turn
  refine (take_pass rejects_spread).bind_anywhere (m := 1) fun _ _ _ => ?_
  refine (nameExcept_passName _).bind_anywhere (m := 0) fun _ _ _ => ?_
  exact ((follows_passDirectives false hlevels).inner.map_right (S := fun _ b => b = some ())
    fun _ _ _ => rfl).map_left fun _ _ hb => hb

/-- A spread is passed over, whether it names a fragment or spells one out. -/
theorem passes_spread (hbegins : Begins (·.isMark '\x7b') nested) {more ts us rest : List Token}
    {t u : Token} (halike : Alike more (t :: ts) (u :: us)) (ht : t.kind = .spread)
    (hu : u.kind = .spread)
    (h : Grammar.spread levels nested (t :: ts) = .ok ((), rest)) (hend : rest = [] → Inner more) :
    (passSelection nested' (u :: us)).1 = some () ∧
      Together 1 (t :: ts) (u :: us) rest (passSelection nested' (u :: us)).2 := by
  obtain ⟨inline, _, hbehind, h⟩ := Reader.bind_eq_ok.1 h
  obtain ⟨rfl, rfl⟩ := Prod.mk.inj (Except.ok.inj hbehind)
  obtain ⟨named, _, hbehind, h⟩ := Reader.bind_eq_ok.1 h
  obtain ⟨rfl, rfl⟩ := Prod.mk.inj (Except.ok.inj hbehind)
  -- a spread on its own is to blame, so a token stands behind it
  have hlength : 2 ≤ (t :: ts).length := by
    cases ts with
    | nil => cases h
    | cons t' ts => simp
  have hinline := behind_alike halike kindTest_inline hlength
  have hnamed := behind_alike halike Token.kindTest_isName hlength
  simp only [List.drop_succ_cons, List.drop_zero] at hinline hnamed h
  rw [passSelection_of_spread hu, hinline, hnamed]
  -- a fragment in place, a named one, or neither
  split at h
  · next hfound =>
    rw [if_pos hfound]
    exact ⟨rfl, passes_inlineSpread hlevels hnested hbegins halike ht hfound h hend⟩
  · next hfound =>
    rw [if_neg hfound]
    split at h
    · next hfound =>
      rw [if_pos hfound]
      obtain ⟨hpassed, htogether⟩ := follows_namedSpread hlevels halike h hend
      exact ⟨hpassed, htogether.mono (by omega)⟩
    · cases h

omit hlevels hnested in
/-- What a member of a selection set starts with. -/
theorem kindTest_selection : KindTest fun t => Grammar.isName t || t.kind = .spread := by
  intro t u h
  simp only [Token.kindTest_isName t u h, h]

omit hlevels hnested in
/-- A name begins a field. -/
theorem passSelection_of_name {u : Token} {us : List Token} (hu : Grammar.isName u = true) :
    passSelection nested' (u :: us) = (some (), (passSelectedField nested' (u :: us)).2) := by
  have hspread : u.kind ≠ .spread := by
    intro hkind
    simp [Grammar.isName, Token.name?, hkind] at hu
  show ((if u.kind = .spread then _ else _ : Sweep (Option Unit)) (u :: us)) = _
  rw [if_neg hspread]
  show ((if Grammar.isName u = true then _ else _ : Sweep (Option Unit)) (u :: us)) = _
  rw [if_pos hu]
  rfl

/-- A selection is passed over, and the sweep knows that there was one. -/
theorem passes_selection (hbegins : Begins (·.isMark '\x7b') nested) :
    Follows 1 Inner (fun _ passed => ∃ b, passed = some b ∧ True) (Grammar.selection levels nested)
      (passSelection nested') := by
  intro more ts us a rest halike h hend
  cases halike with
  | done => cases h
  | @next t u ts us hkind hcomma hrest =>
    have halike := Token.Alike.next hkind hcomma hrest
    obtain ⟨_, _, hpeek, h⟩ := Reader.bind_eq_ok.1 h
    obtain ⟨rfl, rfl⟩ := Prod.mk.inj (Except.ok.inj hpeek)
    dsimp only [List.head?_cons] at h
    -- a spread or a field
    split at h
    · next ht =>
      obtain ⟨hpassed, htogether⟩ :=
        passes_spread hlevels hnested hbegins halike ht (hkind.symm.trans ht) h hend
      exact ⟨⟨(), hpassed, trivial⟩, htogether⟩
    · next ht =>
      have hname : Grammar.isName u = true := by
        rw [← Token.kindTest_isName t u hkind]
        simpa using begins_selectedField levels nested _ _ h
      obtain ⟨-, htogether⟩ := passes_selectedField hlevels hnested halike h hend
      rw [passSelection_of_name hname]
      exact ⟨⟨(), rfl, trivial⟩, htogether⟩

end Selections

/-- A selection set begins with a brace, however deep it is nested. -/
theorem begins_selectionSet (levels : Nat) :
    Begins (·.isMark '\x7b') (Grammar.selectionSet levels) := by
  cases levels <;> exact (begins_mark '\x7b').bind _

/-- Where no selection starts, none is passed over. -/
theorem passSelection_stop (nested' : Sweep Unit) (us : List Token)
    (h : us.head?.any (fun t => Grammar.isName t || t.kind = .spread) = false) :
    passSelection nested' us = (none, us) := by
  cases us with
  | nil => rfl
  | cons u us =>
    obtain ⟨hname, hspread⟩ : Grammar.isName u = false ∧ u.kind ≠ .spread := by simpa using h
    show ((if u.kind = .spread then _ else _ : Sweep (Option Unit)) (u :: us)) = _
    rw [if_neg hspread]
    show ((if Grammar.isName u = true then _ else _ : Sweep (Option Unit)) (u :: us)) = _
    rw [if_neg (by simp [hname])]
    rfl

/-- A selection set is passed over level by level. -/
theorem passes_selectionSet {E : List Token → Prop} {levels : Nat}
    (h : levels ≤ Grammar.depthLimit) :
    Passes 3 E (Grammar.selectionSet levels) (passSelectionSet levels) := by
  -- where no level is left, no selection set is read
  induction levels generalizing E with
  | zero =>
    refine of_fails fun ts r hok => ?_
    obtain ⟨_, _, -, hblame⟩ := Reader.bind_eq_ok.1 hok
    cases hblame
  | succ levels ih =>
    have hlevels : levels ≤ Grammar.depthLimit := by omega
    have hnested : Passes 0 Inner (Grammar.selectionSet levels) (passSelectionSet levels) :=
      (ih hlevels).mono (Nat.zero_le 3) fun _ h => h
    -- the members of the selection set, whose own sets are one level deeper
    have hselection := passes_selection hlevels hnested (begins_selectionSet levels)
    refine (mark_pass '\x7b').bind_anywhere (m := 2) fun _ _ _ => ?_
    refine (many1_repeated (n := 0) (R := fun _ _ => True) hselection kindTest_selection
      (passSelection_stop _) fun _ h => h.elim).bind_inner (m := 1) (fun _ _ _ => ?_) fun _ =>
      (needs_take _).bind _
    exact (mark_passIf '\x7d').map_left fun _ _ _ => trivial

/-! ### Operations -/

/-- The definition of a variable is passed over. -/
theorem passes_variableDefinition :
    Passes 4 Closed Grammar.variableDefinition
      (do
        pass
        passName
        whenever (·.isMark ':') do
          pass
          passTyping
          passDefault
          passDirectives) := by
  -- the colon is told first, and the type behind it
  have hassoc : Grammar.variableDefinition = (do
      let _ ← mark '$'
      let _ ← name
      let _ ← mark ':'
      let _ ← Grammar.typeRef Grammar.depthLimit
      Grammar.defaultValue
      let _ ← Grammar.directives true Grammar.depthLimit) := by
    simp only [Grammar.variableDefinition, Grammar.typing, bind_assoc]
  rw [hassoc]
  refine (mark_pass '$').bind_anywhere (m := 3) fun _ _ _ => ?_
  refine name_passName.bind_anywhere (m := 2) fun _ _ _ => ?_
  refine whenever_of_begins ?_ (Token.kindTest_isMark ':') ((begins_mark ':').bind _)
  refine (mark_pass ':').bind_anywhere (m := 1) fun _ _ _ => ?_
  have htyping : Passes 1 Closed (Grammar.typeRef Grammar.depthLimit) passTyping :=
    (follows_typeRef Grammar.depthLimit).map_right fun _ _ _ => trivial
  refine htyping.bind (m := 0) (fun _ _ _ => ?_) fun _ => steady_defaultValue.bind fun _ =>
    (steady_many _ _).bind fun _ => steady_pure _
  refine passes_defaultValue.bind (m := 0) (fun _ _ _ => ?_) fun _ =>
    (steady_many _ _).bind fun _ => steady_pure _
  exact (follows_passDirectives true (Nat.le_refl _)).map_left fun _ _ _ => trivial

/-- The variables of an operation are passed over between their parentheses. -/
theorem passes_variableDefinitions {E : List Token → Prop} :
    Passes 3 E Grammar.variableDefinitions passVariables := by
  refine ((mark_pass '(').bind_anywhere (m := 5) fun _ _ _ => ?_).mono (by omega) fun _ h => h
  refine (many1_many passes_variableDefinition.inner (Token.kindTest_isMark '$')
    ((begins_mark '$').bind _) fun _ h => h.elim).bind_inner (m := 1) (fun _ _ _ => ?_) fun _ =>
    (needs_take _).bind _
  exact (mark_passIf ')').map_left fun _ _ _ => trivial

/-- An operation up to its selection set. -/
def operationHead : Reader Unit := do
  let _ ← take Grammar.operationKind?
  let _ ← maybe Grammar.isName name
  let _ ← maybe (·.isMark '(') Grammar.variableDefinitions
  let _ ← Grammar.directives false Grammar.depthLimit

/-- Passes over an operation up to its selection set. -/
def passOperationHead : Sweep Unit := do
  pass
  passName
  whenever (·.isMark '(') passVariables
  passDirectives

/-- A reader of the keywords of operations rejects wrong tokens. -/
theorem rejects_operationKind? : Rejects Grammar.operationKind? := by
  intro t ht
  simp [Grammar.operationKind?, Token.isWord, ht]

/-- What stands before the selection set of an operation is passed over. -/
theorem passes_operationHead : Passes 1 Inner operationHead passOperationHead := by
  refine (take_pass rejects_operationKind?).bind_anywhere (m := 0) fun _ _ _ => ?_
  refine (maybe_whenever name_pass Token.kindTest_isName fun _ h => h.elim).bind (m := 0)
    (fun _ _ _ => ?_) fun _ => (steady_maybe _ _).bind fun _ => (steady_many _ _).bind fun _ =>
    steady_pure _
  refine (maybe_whenever (E := Inner) passes_variableDefinitions (Token.kindTest_isMark '(')
    fun _ h => h.elim).bind (m := 0) (fun _ _ _ => ?_) fun _ => (steady_many _ _).bind fun _ =>
    steady_pure _
  exact (follows_passDirectives false (Nat.le_refl _)).inner.map_left fun _ _ _ => trivial

/-- An operation is read as its head and its selection set. -/
theorem operation_eq_ok {ts rest : List Token} {executable : Executable}
    (h : Grammar.operation ts = .ok (executable, rest)) :
    ∃ mid stop, operationHead ts = .ok ((), mid) ∧
      Grammar.selectionSet Grammar.depthLimit mid = .ok (stop, rest) := by
  obtain ⟨_, _, hpeek, h⟩ := Reader.bind_eq_ok.1 h
  obtain ⟨-, rfl⟩ := Prod.mk.inj (Except.ok.inj hpeek)
  obtain ⟨kind, ts₁, hkind, h⟩ := Reader.bind_eq_ok.1 h
  obtain ⟨name, ts₂, hname, h⟩ := Reader.bind_eq_ok.1 h
  obtain ⟨taken, ts₃, htaken, h⟩ := Reader.bind_eq_ok.1 h
  obtain ⟨directives, ts₄, hdirectives, h⟩ := Reader.bind_eq_ok.1 h
  obtain ⟨stop, ts₅, hset, hpure⟩ := Reader.bind_eq_ok.1 h
  obtain ⟨-, rfl⟩ := Reader.pure_eq_ok.1 hpure
  -- the head is what was read before the selection set
  refine ⟨ts₄, stop, Reader.bind_eq_ok.2 ⟨kind, ts₁, hkind, ?_⟩, hset⟩
  refine Reader.bind_eq_ok.2 ⟨name, ts₂, hname, ?_⟩
  refine Reader.bind_eq_ok.2 ⟨taken, ts₃, htaken, ?_⟩
  exact Reader.bind_eq_ok.2 ⟨directives, ts₄, hdirectives, rfl⟩

/-- The sweep passes over a token if no selection set stands behind the head. -/
theorem passOperation_eq (us : List Token) :
    passOperation us =
      if (passOperationHead us).2.head?.any (·.isMark '\x7b') = true then
        passSelectionSet Grammar.depthLimit (passOperationHead us).2
      else pass (passOperationHead us).2 := by
  show (if _ = true then _ else _ : Sweep Unit) (passOperationHead us).2 = _
  split
  · next hbrace => exact (if_pos hbrace).symm
  · next hbrace => exact (if_neg hbrace).symm

/-- An operation is passed over. -/
theorem passes_operation {E : List Token → Prop} : Passes 4 E Grammar.operation passOperation := by
  intro more ts us executable rest halike h hend
  obtain ⟨mid, stop, hhead, hset⟩ := operation_eq_ok h
  have hmid := begins_selectionSet _ _ _ hset
  obtain ⟨-, htogether⟩ := passes_operationHead halike hhead fun hnil => by simp [hnil] at hmid
  have halike' := htogether.alike halike
  -- the brace that the reader has found is found by the sweep as well
  have hbrace : (passOperationHead us).2.head?.any (·.isMark '\x7b') = true :=
    (begins_selectionSet _).any_head (Token.kindTest_isMark '\x7b') halike' hset
  rw [passOperation_eq, if_pos hbrace]
  obtain ⟨-, htogether'⟩ := passes_selectionSet (Nat.le_refl _) halike' hset hend
  exact ⟨trivial, htogether.trans htogether'⟩

/-- A query without a name is passed over as its selection set. -/
theorem passes_shorthandQuery {E : List Token → Prop} :
    Passes 3 E Grammar.shorthandQuery (passSelectionSet Grammar.depthLimit) := by
  intro more ts us executable rest halike h hend
  obtain ⟨_, _, hpeek, h⟩ := Reader.bind_eq_ok.1 h
  obtain ⟨-, rfl⟩ := Prod.mk.inj (Except.ok.inj hpeek)
  obtain ⟨stop, mid, hset, hpure⟩ := Reader.bind_eq_ok.1 h
  obtain ⟨-, rfl⟩ := Reader.pure_eq_ok.1 hpure
  exact passes_selectionSet (Nat.le_refl _) halike hset hend

/-- A fragment is passed over. -/
theorem passes_fragment {E : List Token → Prop} : Passes 7 E Grammar.fragment passFragment := by
  -- a fragment is not named like the word before its type
  have hname : Passes 1 Inner Grammar.fragmentName
      (passIf fun t => Grammar.isName t && !t.isWord "on") := by
    refine take_passIf (rejects_filter _) (fun t u h => ?_) fun t h => ?_
    · simp only [Token.kindTest_isName t u h, Token.isWord, h]
    · obtain ⟨n, hn⟩ := Option.isSome_iff_exists.1 h
      obtain ⟨hname, hon⟩ := Option.filter_eq_some_iff.1 hn
      obtain ⟨kind, start, stop, comma⟩ := t
      cases kind with
      | name text =>
        obtain rfl : (⟨text, start⟩ : Name) = n := Option.some.inj hname
        simpa [Grammar.isName, Token.name?, Token.isWord] using hon
      | _ => cases hname
  refine take_bind (m := 6) (fun _ => ?_) fun _ => (needs_take _).bind _
  -- name, type and directives, of which none can be the last
  refine hname.bind_inner (m := 5) (fun _ _ _ => ?_) fun _ => ((needs_take _).bind _).bind _
  refine passes_typeCondition.bind_anywhere (m := 3) fun _ _ _ => ?_
  refine (follows_passDirectives false (Nat.le_refl _)).inner.bind_inner (m := 3)
    (fun _ _ _ => ?_) fun _ => ?_
  · exact (whenever_of_begins (passes_selectionSet (Nat.le_refl _))
      (Token.kindTest_isMark '\x7b') (begins_selectionSet _)).map_left fun _ _ _ => trivial
  · exact (begins_selectionSet _).needs.bind _

end Salvage

end SchemaAtlas
