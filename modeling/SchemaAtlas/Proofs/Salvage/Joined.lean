import SchemaAtlas.Proofs.Salvage.Dispatch
import SchemaAtlas.Proofs.Salvage.Queries

/-!
# Sweeping over joined texts

The tokens of joined texts are those of the texts, one after another. A sweep over them keeps step
with the readers of the texts. Where a definition without its block stands before a query without a
name, the sweep loses its way inside the braces of the query. It finds back at their end, and
whatever it took for a definition in between, it does not miss one.

* `Salvage.definition?_inside`   what is taken for a definition inside brackets
* `Finds`                        which directives a sweep finds, and which ones it makes up
* `finds_joined`                 joined texts, by induction on the texts
-/

namespace SchemaAtlas

open Token (Alike KindTest)

namespace Salvage

open Reader Follows

/-! ## Inside brackets -/

/-- Behind its keyword every definition stays inside the brackets around it. -/
theorem Behind.stays {word : String} {p : Reader Definition} {q : Sweep (List Directive)}
    (h : Behind word p q) : Stays 0 Always q := by
  cases h with
  | schema => exact stays_schemaDirectives
  | directive => exact stays_passDirectiveDefinition.andThen fun _ => stays_pure _
  | type _ => exact stays_typeDirectives _

/-- Behind its keyword every extension stays inside the brackets around it. -/
theorem Extends.stays {word : String} {p : Reader Definition} {q : Sweep (List Directive)}
    (h : Extends word p q) : Stays 0 Always q := by
  cases h with
  | schema => exact stays_schemaDirectives
  | type _ => exact stays_typeDirectives _

/-- A string literal closes nothing. -/
theorem isCloser_of_isString {t : Token} (h : t.isString = true) : t.isCloser = false := by
  obtain ⟨text, hkind⟩ := exists_string h
  simp [Token.isCloser, Token.isMark, hkind]

/-- A word closes nothing. -/
theorem isCloser_of_name {t : Token} {word : String} (h : t.kind = .name word) :
    t.isCloser = false := by
  simp [Token.isCloser, Token.isMark, h]

/-- Two tokens that open and close nothing, before something that stays. -/
theorem stays_behindTwo {q : Sweep (List Directive)} (hq : Stays 0 Always q) {next : List Token}
    {c : Char} {φ : List Char} {t t' : Token} {us : List Token} (ht : t.isCloser = false)
    (ht' : t'.isCloser = false) (h : Above next (c :: φ) (t :: t' :: us)) :
    Above next (c :: φ) (q us).2 ∧ (q us).2.length + 1 ≤ (t' :: us).length + 1 := by
  have hbehind := (h.tail fun _ => ht).tail fun _ => ht'
  obtain ⟨t'', us, rfl⟩ := hbehind.exists_cons
  obtain ⟨habove, hlength⟩ := hq trivial hbehind
  exact ⟨habove, Nat.succ_le_succ (Nat.le_succ_of_le hlength)⟩

/-- Only an operation that cannot be read leads out of a bracket, of one at most. -/
theorem passOperation_above {next : List Token} {c : Char} {σ : List Char} {t : Token}
    {us : List Token} (ht : t.isCloser = false) (h : Above next (c :: σ) (t :: us)) :
    (passOperation (t :: us)).2.length ≤ us.length ∧
      (Above next (c :: σ) (passOperation (t :: us)).2 ∨
        Above next σ (passOperation (t :: us)).2 ∧
          ∀ d rest, Grammar.operation (t :: us) ≠ .ok (d, rest)) := by
  -- up to its selection set, an operation stays above the floor
  obtain ⟨hhead, hlength⟩ := stays_passOperationHead ht h
  obtain ⟨t', us', hus'⟩ := hhead.exists_cons
  rw [passOperation_eq]
  split
  · next hbrace =>
    rw [hus'] at hhead hlength hbrace ⊢
    obtain ⟨habove, hlength'⟩ := stays_passSelectionSet Grammar.depthLimit
      (by simpa using hbrace) hhead
    rw [List.length_cons] at hlength
    exact ⟨by omega, .inl habove⟩
  · next hbrace =>
    -- without a selection set, the sweep passes over one token more
    refine ⟨?_, .inr ⟨?_, fun d rest hok => hbrace ?_⟩⟩
    · rw [hus'] at hlength ⊢
      show us'.length ≤ us.length
      rw [List.length_cons] at hlength
      omega
    · rw [hus'] at hhead ⊢
      exact hhead.tail_weaken
    · -- the operation goes on where the sweep stands, with a brace
      obtain ⟨mid, stop, hmid, hset⟩ := operation_eq_ok hok
      have hbegins := begins_selectionSet _ _ _ hset
      obtain ⟨-, k, -, -, hrest, hpassed, -⟩ := passes_operationHead (Alike.refl (t :: us)) hmid
        fun hnil => by simp [hnil] at hbegins
      rw [hpassed, ← hrest]
      exact hbegins

/-- What is taken for a definition inside brackets ends inside of them or right behind. If it can
be read as one, it ends inside. -/
theorem definition?_inside {next : List Token} {c : Char} {σ : List Char} {us : List Token}
    (h : Inside next (c :: σ) us) :
    ∃ ds σ', (definition? us).1 = some ds ∧ Inside next σ' (definition? us).2 ∧
      (definition? us).2.length < us.length ∧
      ∀ d rest, Grammar.definition us = .ok (d, rest) → σ' ≠ [] := by
  obtain ⟨t, us, rfl⟩ := List.exists_cons_of_ne_nil h.ne_nil
  have habove := Above.of_inside h
  obtain ⟨p, q, hchosen⟩ | ⟨herror, hpassed⟩ := exists_chosen t us
  -- a sweep that stays above the floor ends inside
  · have hstays (hq : Above next (c :: σ) (q (t :: us)).2 ∧
        (q (t :: us)).2.length + 1 ≤ us.length + 1) :
        ∃ ds σ', (definition? (t :: us)).1 = some ds ∧ Inside next σ' (definition? (t :: us)).2 ∧
          (definition? (t :: us)).2.length < (t :: us).length ∧
          ∀ d rest, Grammar.definition (t :: us) = .ok (d, rest) → σ' ≠ [] := by
      obtain ⟨⟨τ, hinside⟩, hlength⟩ := hq
      rw [hchosen.sweep_eq]
      exact ⟨_, τ ++ c :: σ, rfl, hinside, hlength, fun _ _ _ => by simp⟩
    -- each thing that may be taken for a definition
    cases hchosen with
    | query ht =>
      exact hstays (stays_passSelectionSet Grammar.depthLimit (by simp [Token.isMark, ht]) habove)
    | fragment ht =>
      have hcloser : t.isCloser = false := by
        obtain ht | ⟨ht, -⟩ := ht
        · exact isCloser_of_name ht
        · exact isCloser_of_isString ht
      exact hstays (stays_passFragment hcloser habove)
    | operation ht =>
      obtain ⟨word, hname, -⟩ := exists_word ht
      obtain ⟨hlength, habove' | ⟨habove', hfails⟩⟩ :=
        passOperation_above (isCloser_of_name hname) habove
      · exact hstays ⟨habove', Nat.succ_le_succ hlength⟩
      · obtain ⟨τ, hinside⟩ := habove'
        rw [(Chosen.operation ht).sweep_eq, (Chosen.operation ht).reader_eq]
        refine ⟨[], τ ++ σ, rfl, hinside, Nat.lt_succ_of_le hlength, fun d rest hok => ?_⟩
        rw [map_eq_pure_bind, Reader.bind_eq_ok] at hok
        obtain ⟨executable, mid, hoperation, -⟩ := hok
        exact absurd hoperation (hfails executable mid)
    | keyword ht h =>
      refine hstays ?_
      exact ((stays_pass fun _ _ hcloser _ => hcloser).andThen fun _ => h.stays)
        (isCloser_of_name ht) habove
    | described ht hword hbehind =>
      obtain ⟨t', us, rfl, -, ht'⟩ := Chosen.wordBehind_eq_some hword
      refine hstays ?_
      rw [bind_apply, passDescription, Chosen.passIf_cons ht]
      exact stays_behindTwo hbehind.stays (isCloser_of_isString ht) (isCloser_of_name ht') habove
    | extension ht hword hextends =>
      obtain ⟨t', us, rfl, -, ht'⟩ := Chosen.wordBehind_eq_some hword
      refine hstays ?_
      exact stays_behindTwo hextends.stays (isCloser_of_name ht) (isCloser_of_name ht') habove
  -- nothing is chosen: the sweep passes over the token in hand
  · obtain ⟨τ, hinside⟩ := habove.tail_weaken
    rw [hpassed, herror]
    exact ⟨[], τ ++ σ, rfl, hinside, by simp, by simp⟩

/-! ## Runs over all tokens -/

/-- The definitions that tokens are read as, to their end. -/
inductive Reads : List Token → List Definition → Prop
  | done : Reads [] []
  | next {ts rest : List Token} {d : Definition} {ds : List Definition}
      (h : Grammar.definition ts = .ok (d, rest)) (hrest : Reads rest ds) : Reads ts (d :: ds)

/-- The directives that a sweep keeps, one list for each thing that it took for a definition. -/
inductive Sweeps : List Token → List (List Directive) → Prop
  | done : Sweeps [] []
  | next {us : List Token} {ds : List Directive} {lists : List (List Directive)}
      (h : (definition? us).1 = some ds) (hlength : (definition? us).2.length < us.length)
      (hrest : Sweeps (definition? us).2 lists) : Sweeps us (ds :: lists)

/-- As a reader takes tokens, so does the sweep over the same ones. -/
theorem rest_eq_of_definition {us rest : List Token} {d : Definition}
    (h : Grammar.definition us = .ok (d, rest)) :
    rest = (definition? us).2 ∧ rest.length < us.length := by
  obtain ⟨-, htogether | ⟨-, t, more', hmore, -⟩⟩ :=
    introduces_definition (Alike.refl us) h fun _ => closed_nil
  · obtain ⟨k, hk, hle, hrest, hpassed, -⟩ := htogether
    refine ⟨hrest.trans hpassed.symm, ?_⟩
    rw [hrest, List.length_drop]
    omega
  · cases hmore

/-- What a document is made of without a fault is read to the end of the tokens. -/
theorem reads_of_definitionsFrom {supply ts : List Token} {ds : List Definition}
    (hlength : ts.length ≤ supply.length) (h : Document.definitionsFrom supply ts = (ds, none)) :
    Reads ts ds := by
  -- a definition for each token that bounds the rounds
  induction supply generalizing ts ds with
  | nil =>
    obtain rfl : ts = [] := by simpa using hlength
    obtain ⟨rfl, -⟩ := Prod.mk.inj h
    exact .done
  | cons s supply ih =>
    cases ts with
    | nil =>
      obtain ⟨rfl, -⟩ := Prod.mk.inj h
      exact .done
    | cons t ts =>
      rw [Document.definitionsFrom] at h
      cases hdefinition : Grammar.definition (t :: ts) with
      | error rest => simp [hdefinition] at h
      | ok r =>
        -- a definition takes a token, so the supply lasts
        obtain ⟨d, rest⟩ := r
        simp only [hdefinition, Prod.mk.injEq] at h
        obtain ⟨rfl, hfault⟩ := h
        have hrest := (rest_eq_of_definition hdefinition).2
        simp only [List.length_cons] at hlength hrest
        exact .next hdefinition (ih (by omega) (Prod.ext rfl hfault))

/-- The rounds of a sweep are as many as it has found lists. -/
theorem repeatFrom_of_sweeps {us : List Token} {lists : List (List Directive)}
    (h : Sweeps us lists) {supply : List Token} (hlength : us.length ≤ supply.length) :
    (repeatFrom definition? supply us).1 = lists := by
  -- round by round
  induction h generalizing supply with
  | done => cases supply <;> rfl
  | @next us ds lists hfound hless hrest ih =>
    cases supply with
    | nil => simp only [List.length_nil] at hlength; omega
    | cons s supply =>
      -- a round takes a token, so the supply lasts
      rw [List.length_cons] at hlength
      have hbound : (definition? us).2.length ≤ supply.length := by omega
      have hrounds := ih hbound
      rw [repeatFrom_cons, hfound]
      show ds :: (repeatFrom definition? supply (definition? us).2).1 = _
      rw [hrounds]

/-- What is salvaged is what a sweep over all tokens keeps. -/
theorem directiveLists_of_sweeps {us : List Token} {lists : List (List Directive)}
    (h : Sweeps us lists) : directiveLists us = lists :=
  repeatFrom_of_sweeps h (Nat.le_refl _)

/-- Tokens inside brackets are not read to their end: a bracket is never read as a definition. -/
theorem not_reads_of_inside {next us : List Token} {c : Char} {σ : List Char}
    (h : Inside next (c :: σ) us) (ds : List Definition) : ¬ Reads us ds := by
  intro hreads
  -- definition by definition, with some bracket open behind each
  induction hreads generalizing c σ with
  | done => exact h.ne_nil rfl
  | @next us rest d ds hdefinition hrest ih =>
    -- a definition that can be read ends inside the same brackets
    obtain ⟨found, σ', -, hinside, -, hne⟩ := definition?_inside h
    rw [← (rest_eq_of_definition hdefinition).1] at hinside
    obtain ⟨c', σ', rfl⟩ := List.exists_cons_of_ne_nil (hne d rest hdefinition)
    exact ih hinside

/-! ## What is found -/

/-- The sweep over tokens finds the directives `own` in this order. It makes up none if `strict`, or
if the tokens are read as definitions to their end. -/
def Finds (strict : Prop) (us : List Token) (own : List Directive) : Prop :=
  ∃ lists, Sweeps us lists ∧ List.SublistForall₂ SameDirective own lists.flatten ∧
    (strict ∨ (∃ ds, Reads us ds) → List.Forall₂ SameDirective own lists.flatten)

namespace Finds

variable {strict : Prop}

/-- Where no token is left, there is nothing to find. -/
theorem nil : Finds strict [] [] :=
  ⟨[], .done, .nil, fun _ => .nil⟩

/-- Less may be promised of what is made up. -/
theorem mono {strict' : Prop} {us : List Token} {own : List Directive} (h : Finds strict us own)
    (hstrict : strict' → strict) : Finds strict' us own := by
  obtain ⟨lists, hsweeps, hsublist, hequal⟩ := h
  exact ⟨lists, hsweeps, hsublist, fun hor => hequal (hor.imp_left hstrict)⟩

/-- Related items may stand in front on both sides. -/
theorem sublistForall₂_append {α β : Type} {R : α → β → Prop} {as as' : List α} {bs bs' : List β}
    (h : List.Forall₂ R as bs) (h' : List.SublistForall₂ R as' bs') :
    List.SublistForall₂ R (as ++ as') (bs ++ bs') := by
  induction h with
  | nil => exact h'
  | cons hR _ ih => exact .cons hR ih

/-- More items may stand in front of the longer list. -/
theorem sublistForall₂_append_right {α β : Type} {R : α → β → Prop} {as : List α} {bs : List β}
    (h : List.SublistForall₂ R as bs) (bs' : List β) : List.SublistForall₂ R as (bs' ++ bs) := by
  induction bs' with
  | nil => exact h
  | cons b bs' ih => exact .cons_right ih

/-- A definition that is found in step. -/
theorem cons {us : List Token} {d : Definition} {ds own : List Directive}
    (h : (definition? us).1 = some ds) (hds : SameDirectives d ds)
    (hlength : (definition? us).2.length < us.length)
    (hrest : Finds strict (definition? us).2 own) : Finds strict us (d.directives ++ own) := by
  obtain ⟨lists, hsweeps, hsublist, hequal⟩ := hrest
  refine ⟨ds :: lists, .next h hlength hsweeps, ?_, ?_⟩
  · rw [List.flatten_cons]
    exact sublistForall₂_append hds hsublist
  · intro hor
    rw [List.flatten_cons]
    refine List.rel_append hds (hequal (hor.imp_right ?_))
    -- whoever reads all tokens reads the same definition first
    rintro ⟨_, hreads⟩
    cases hreads with
    | done => cases hlength
    | @next _ rest d' ds' hdefinition hreads =>
      rw [(rest_eq_of_definition hdefinition).1] at hreads
      exact ⟨ds', hreads⟩

/-- Whatever is found behind brackets is found inside of them, too, after what is made up there.
The induction is on the number of tokens. -/
theorem of_inside {next us : List Token} {σ : List Char} {own : List Directive}
    (h : Inside next σ us) (hnext : Finds False next own) : Finds False us own := by
  induction hlength : us.length using Nat.strongRecOn generalizing us σ with
  | ind n ih =>
    cases σ with
    | nil =>
      cases h
      exact hnext
    | cons c σ =>
      -- what is made up inside comes before what is found behind
      obtain ⟨ds, σ', hfound, hinside, hless, -⟩ := definition?_inside h
      obtain ⟨lists, hsweeps, hsublist, -⟩ := ih _ (hlength ▸ hless) hinside rfl
      refine ⟨ds :: lists, .next hfound hless hsweeps, ?_, ?_⟩
      · rw [List.flatten_cons]
        exact sublistForall₂_append_right hsublist ds
      · rintro (hfalse | ⟨ds', hreads⟩)
        · exact hfalse.elim
        · exact absurd hreads (not_reads_of_inside h ds')

end Finds

/-! ## Joined texts -/

/-- The tokens of texts one after another. -/
inductive Joins : List (List Token) → List Token → Prop
  | nil : Joins [] []
  | cons {ts more us : List Token} {tss : List (List Token)} (h : Alike more ts us)
      (hmore : Joins tss more) : Joins (ts :: tss) us

/-- The directives of definitions, in the order in which they are written. -/
def directivesOf (ds : List Definition) : List Directive :=
  ds.flatMap Definition.directives

/-- Texts that are read as definitions go on with none before them. -/
theorem closed_of_joins {tss : List (List Token)} {dss : List (List Definition)}
    {us : List Token} (h : Joins tss us) (hreads : List.Forall₂ Reads tss dss) : Closed us := by
  -- texts without tokens are skipped
  induction h generalizing dss with
  | nil => exact closed_nil
  | @cons ts more us tss halike hmore ih =>
    cases hreads with
    | cons hread hreads =>
      cases hread with
      | done =>
        rw [halike.eq_of_nil]
        exact ih hreads
      | next hdefinition _ =>
        -- what begins a definition goes on with none before it
        obtain ⟨p, q, hchosen⟩ := exists_chosen_of_ok hdefinition
        exact (hchosen.alike halike).closed

/-- Whether tokens begin with a brace, as a query without a name does. -/
def beginsWithBrace (ts : List Token) : Bool :=
  ts.head?.any (·.isMark '\x7b')

/-- Whether none of some texts begins with a brace. -/
def Braceless (tss : List (List Token)) : Prop :=
  ∀ ts ∈ tss, beginsWithBrace ts = false

/-- Without the first of them, the texts are still without braces in front. -/
theorem Braceless.of_cons {ts : List Token} {tss : List (List Token)}
    (h : Braceless (ts :: tss)) : Braceless tss :=
  fun other hother => h other (List.mem_cons_of_mem _ hother)

/-- The same holds of the texts behind the first one, if there is one. -/
theorem Braceless.tail {tss : List (List Token)} (h : Braceless tss) : Braceless tss.tail :=
  fun ts hts => h ts (List.mem_of_mem_tail hts)

/-- Texts none of which begins with a brace do not begin with one together. -/
theorem Braceless.joins {tss : List (List Token)} {us : List Token} (h : Braceless tss)
    (hjoins : Joins tss us) : beginsWithBrace us = false := by
  induction hjoins with
  | nil => rfl
  | @cons ts more us tss halike hmore ih =>
    cases ts with
    | nil =>
      rw [halike.eq_of_nil]
      exact ih h.of_cons
    | cons t ts =>
      -- a text that has tokens begins what is joined
      have hhead : beginsWithBrace (t :: ts) = false := h _ List.mem_cons_self
      rw [← hhead]
      exact halike.any_head (Token.kindTest_isMark '\x7b') (List.cons_ne_nil t ts)

/-- What starts with a brace and is read as a definition is a query without a name. -/
theorem inside_of_definition {t : Token} {ts rest : List Token} {d : Definition}
    (ht : t.kind = .mark '\x7b') (h : Grammar.definition (t :: ts) = .ok (d, rest)) :
    d.directives = [] ∧ Inside rest ['\x7d'] ts := by
  rw [(Chosen.query ht).reader_eq, map_eq_pure_bind, Reader.bind_eq_ok] at h
  obtain ⟨executable, mid, hquery, hpure⟩ := h
  obtain ⟨rfl, rfl⟩ := Reader.pure_eq_ok.1 hpure
  -- the query is its selection set, which is a bracket
  obtain ⟨_, _, hpeek, hbehind⟩ := Reader.bind_eq_ok.1 hquery
  obtain ⟨-, rfl⟩ := Prod.mk.inj (Except.ok.inj hpeek)
  obtain ⟨stop, mid', hset, hpure⟩ := Reader.bind_eq_ok.1 hbehind
  obtain ⟨-, rfl⟩ := Reader.pure_eq_ok.1 hpure
  obtain ⟨t', ts', hts, -, hinside⟩ := Grammar.inside_of_selectionSet hset
  obtain ⟨rfl, rfl⟩ := List.cons.inj hts
  exact ⟨rfl, hinside⟩

/-- What a sweep finds that is where texts begin. It makes up nothing if no text but the first one
begins with a brace. -/
def FindsJoined (tss : List (List Token)) (dss : List (List Definition)) : Prop :=
  ∀ ⦃us⦄, Joins tss us → Finds (Braceless tss.tail) us (directivesOf dss.flatten)

/-- What a sweep finds that has swallowed the first brace of texts. -/
def FindsSwallowed (tss : List (List Token)) (dss : List (List Definition)) : Prop :=
  ∀ ⦃us us'⦄, Joins tss us → Swallows us us' →
    Finds False us' (directivesOf dss.flatten) ∧ us'.length < us.length

/-- What a sweep finds that is somewhere in a text before other ones. -/
def FindsBehind (tss : List (List Token)) (dss : List (List Definition)) : Prop :=
  ∀ ⦃ts us more ds⦄, Reads ts ds → Alike more ts us → Joins tss more →
    Finds (Braceless tss) us (directivesOf ds ++ directivesOf dss.flatten)

/-- The directives of a text stand before those of the texts behind it. -/
theorem directivesOf_flatten_cons (ds : List Definition) (dss : List (List Definition)) :
    directivesOf (ds :: dss).flatten = directivesOf ds ++ directivesOf dss.flatten := by
  rw [List.flatten_cons, directivesOf, List.flatMap_append]
  rfl

/-- No definition is read from no tokens. -/
theorem not_reads_nil {d : Definition} {ds : List Definition} : ¬ Reads [] (d :: ds) := by
  intro h
  cases h with
  | next hdefinition _ => cases hdefinition

section Files

variable {tss : List (List Token)} {dss : List (List Definition)} {ts : List Token}
  {ds : List Definition}

/-- A text is swept definition by definition, by induction on its definitions. -/
theorem FindsJoined.behind (hjoined : FindsJoined tss dss) (hswallowed : FindsSwallowed tss dss)
    (hreads : List.Forall₂ Reads tss dss) : FindsBehind tss dss := by
  intro ts us more ds hread halike hmore
  -- at the end of the text, what is left are the texts behind it
  induction hread generalizing us with
  | done =>
    rw [halike.eq_of_nil]
    exact (hjoined hmore).mono Braceless.tail
  | @next ts rest d ds hdefinition hrest ih =>
    -- the next definition of the text
    have hlength := halike.length
    obtain ⟨⟨found, hfound, hsame⟩, htogether | ⟨rfl, hswallows⟩⟩ :=
      introduces_definition halike hdefinition fun _ => closed_of_joins hmore hreads
    -- it takes its own tokens, and the rest of the text comes behind it
    · have hbehind := ih (htogether.alike halike)
      obtain ⟨k, hk, hle, -, hpassed, -⟩ := htogether
      have hless : (definition? us).2.length < us.length := by
        rw [hpassed, List.length_drop]
        omega
      have hcons := Finds.cons hfound hsame hless hbehind
      rwa [← List.append_assoc] at hcons
    · -- the last definition takes up what the next text begins with
      obtain ⟨hfinds, hless⟩ := hswallowed hmore hswallows
      have hbrace : Braceless tss → False := fun hbraceless => by
        have hbegins := hbraceless.joins hmore
        obtain ⟨t, more', rfl, ht, -⟩ := hswallows
        exact absurd ht (by simpa [beginsWithBrace] using hbegins)
      have hcons := Finds.cons hfound hsame (by omega) (hfinds.mono hbrace)
      cases ds with
      | nil => simpa [directivesOf] using hcons
      | cons d' ds => exact absurd hrest not_reads_nil

/-- What is swallowed is the beginning of a query without a name, which declares nothing. -/
theorem FindsSwallowed.cons (hswallowed : FindsSwallowed tss dss) (hbehind : FindsBehind tss dss)
    (hread : Reads ts ds) : FindsSwallowed (ts :: tss) (ds :: dss) := by
  intro us us' hjoins hswallows
  rw [directivesOf_flatten_cons]
  cases hjoins with
  | @cons _ more _ _ halike hmore =>
    -- a text without tokens leaves the brace to the next one
    cases hread with
    | done =>
      rw [halike.eq_of_nil] at hswallows ⊢
      exact hswallowed hmore hswallows
    | @next _ rest d ds hdefinition hrest =>
      obtain ⟨t, us, rfl, ht, block, hcloses, rfl⟩ := hswallows
      cases halike with
      | done => cases hdefinition
      | @next t₀ _ ts _ hkind _ halike =>
        have ht₀ : t₀.kind = .mark '\x7b' := by simpa [Token.isMark, hkind] using ht
        -- the brace opens the query, and the sweep is inside of it
        obtain ⟨hnone, hinside⟩ := inside_of_definition ht₀ hdefinition
        obtain ⟨next, hinside', hnext⟩ := hinside.alike halike
        obtain ⟨⟨τ, habove⟩, hlength⟩ := hcloses (Above.of_inside hinside')
        -- behind the query, it is back in the text
        have hfinds := Finds.of_inside habove ((hbehind hrest hnext hmore).mono False.elim)
        refine ⟨?_, Nat.lt_succ_of_le hlength⟩
        have hown : directivesOf (d :: ds) = directivesOf ds := by
          rw [directivesOf, List.flatMap_cons, hnone]
          rfl
        rwa [hown]

end Files

/-- A sweep over joined texts that can be read finds the directives of all of them, by induction on
the texts. -/
theorem finds_joined {tss : List (List Token)} {dss : List (List Definition)}
    (hreads : List.Forall₂ Reads tss dss) : FindsJoined tss dss := by
  suffices h : FindsJoined tss dss ∧ FindsSwallowed tss dss from h.1
  -- no text is left: there is nothing to find, and no brace to swallow
  induction hreads with
  | nil =>
    refine ⟨fun us hjoins => ?_, fun us us' hjoins hswallows => ?_⟩
    · cases hjoins
      exact .nil
    · cases hjoins
      obtain ⟨t, more, hmore, -⟩ := hswallows
      cases hmore
  | @cons ts ds tss dss hread hreads ih =>
    -- a text before other ones, from what holds of those
    have hbehind := ih.1.behind ih.2 hreads
    refine ⟨fun us hjoins => ?_, ih.2.cons hbehind hread⟩
    cases hjoins with
    | cons halike hmore =>
      rw [directivesOf_flatten_cons]
      exact hbehind hread halike hmore

end Salvage

end SchemaAtlas
