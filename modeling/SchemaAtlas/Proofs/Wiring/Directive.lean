import SchemaAtlas.Proofs.Document.Spelling
import SchemaAtlas.Proofs.Document.Taking
import SchemaAtlas.Proofs.Wiring.Recovery
import SchemaAtlas.Proofs.Crawl.Reachability

/-!
# Includes of files that begin with a wiring directive

A file that begins with a schema definition with a wiring directive includes the files of the
directive, whatever follows in the next lines. If nothing is wrong there, the directive is read with
the rest of the document; otherwise its files are recovered from the characters. Both readers find
the same files, however these are called and whatever separates them.

* `written_directiveText`           the tokens of the definition
* `takes_schemaDefinition`          what the grammar reads from them
* `recoveredIncludes_directiveText` what is recovered without the grammar
* `includes_directiveText`          the includes of the whole text
-/

namespace SchemaAtlas.Wiring

open Reader Grammar
open Token (Kind Written Apart)

/-! ## How a directive is written -/

/-- Items one after another, each as `write` says, with commas and white space between them. -/
inductive Listed {α : Type} (write : α → String) : List α → List Char → Prop
  | nil : Listed write [] []
  | last (a : α) : Listed write [a] (write a).toList
  | next {a : α} {as : List α} (gap : List Char) {cs : List Char} (hne : gap ≠ [])
      (hgap : ∀ c ∈ gap, c = ',' ∨ Token.isBlank c = true) (hrest : Listed write as cs) :
      Listed write (a :: as) ((write a).toList ++ (gap ++ cs))

/-- A plain literal. -/
def quote (text : String) : String :=
  "\"" ++ text ++ "\""

/-- A declaration as an object. -/
def Declaration.write (d : Declaration) : String :=
  "\x7b document: " ++ quote d.document ++ ", persist: " ++ toString d.persist ++ " \x7d"

/-- A schema definition whose wiring directive has a list of files and a list of declarations. -/
def directiveText (files executables : String) : String :=
  "schema @sdl(files: [" ++ files ++ "], executables: [" ++ executables ++
    "]) \x7b query: Query \x7d"

/-! ## Its tokens -/

/-- The kinds of the tokens of a declaration. -/
def Declaration.kinds (d : Declaration) : List Kind :=
  [.mark '\x7b', .name "document", .mark ':', .string d.document, .name "persist", .mark ':',
    .name (toString d.persist), .mark '\x7d']

/-- The kinds of the tokens of an argument whose value is a list. -/
def listKinds (word : String) (items : List Kind) : List Kind :=
  .name word :: .mark ':' :: .mark '[' :: (items ++ [.mark ']'])

/-- The kinds of the tokens of a schema definition with a wiring directive. -/
def directiveKinds (paths : List String) (declared : List Declaration) : List Kind :=
  let behind : List Kind := [.mark ')', .mark '\x7b', .name "query", .mark ':', .name "Query",
    .mark '\x7d']
  .name "schema" :: .mark '@' :: .name "sdl" :: .mark '(' ::
    (listKinds "files" (paths.flatMap fun path => [.string path]) ++
      (listKinds "executables" (declared.flatMap Declaration.kinds) ++ behind))

/-- Commas and white space write no tokens. -/
theorem written_gap {gap cs : List Char} {kinds : List Kind}
    (hgap : ∀ c ∈ gap, c = ',' ∨ Token.isBlank c = true) (hcs : Written kinds cs) :
    Written kinds (gap ++ cs) := by
  induction gap with
  | nil => exact hcs
  | cons c gap ih =>
    obtain ⟨hc, hmore⟩ := List.forall_mem_cons.1 hgap
    rcases hc with rfl | hblank
    · exact .comma (ih hmore)
    · exact .blank hblank (ih hmore)

/-- Commas and white space go on with no word. -/
theorem apart_gap {gap : List Char} (hne : gap ≠ [])
    (hgap : ∀ c ∈ gap, c = ',' ∨ Token.isBlank c = true) (cs : List Char) :
    Apart (gap ++ cs) := by
  obtain ⟨c, gap, rfl⟩ := List.exists_cons_of_ne_nil hne
  rcases hgap c List.mem_cons_self with rfl | hblank
  · exact Token.apart_comma _
  · exact Token.apart_of_isBlank hblank _

/-- Items that write tokens do so in a list. -/
theorem Listed.written {α : Type} {write : α → String} {kindsOf : α → List Kind} {as : List α}
    {cs rest : List Char} {kinds : List Kind} (hlist : Listed write as cs)
    (h : ∀ a ∈ as, ∀ {kinds rest}, Apart rest → Written kinds rest →
      Written (kindsOf a ++ kinds) ((write a).toList ++ rest))
    (hapart : Apart rest) (hrest : Written kinds rest) :
    Written (as.flatMap kindsOf ++ kinds) (cs ++ rest) := by
  -- each item is apart from the next one by the gap between them
  induction hlist with
  | nil => exact hrest
  | last a =>
    rw [List.flatMap_singleton]
    exact h a (by simp) hapart hrest
  | @next a as gap cs hne hgap _ ih =>
    rw [List.flatMap_cons, List.append_assoc, List.append_assoc, List.append_assoc]
    exact h a (by simp) (apart_gap hne hgap _) <|
      written_gap hgap (ih fun b hb => h b (by simp [hb]))

/-- A plain literal writes one token. -/
theorem written_quote {text : String} (h : Quoted.IsPlain text) {rest : List Char}
    {kinds : List Kind} (hapart : Apart rest) (hrest : Written kinds rest) :
    Written ([.string text] ++ kinds) ((quote text).toList ++ rest) := by
  have hstring := Written.string h hapart hrest
  simpa [quote] using hstring

/-- The two flags are words. -/
theorem isWord_toString (flag : Bool) : Token.IsWord (toString flag) := by
  cases flag <;> decide

/-- A declaration writes its tokens. -/
theorem Declaration.written {d : Declaration} (h : Quoted.IsPlain d.document) {rest : List Char}
    {ks : List Kind} (hrest : Written ks rest) :
    Written (d.kinds ++ ks) (d.write.toList ++ rest) := by
  have hchars : d.write.toList ++ rest = '\x7b' :: ' ' :: ("document".toList ++ ':' :: ' ' ::
      '"' :: (d.document.toList ++ '"' :: ',' :: ' ' :: ("persist".toList ++ ':' :: ' ' ::
        ((toString d.persist).toList ++ ' ' :: '\x7d' :: rest)))) := by
    rw [show d.write = "\x7b document: " ++ quote d.document ++ ", persist: " ++
      toString d.persist ++ " \x7d" from rfl]
    simp [quote]
  rw [hchars]
  -- token by token, with the blanks between them
  refine .mark (by decide) (.blank (by decide) ?_)
  refine .word (by decide) (by decide) (.mark (by decide) (.blank (by decide) ?_))
  refine .string h (Token.apart_comma _) (.comma (.blank (by decide) ?_))
  refine .word (by decide) (by decide) (.mark (by decide) (.blank (by decide) ?_))
  exact .word (isWord_toString _) (by decide) (.blank (by decide) (.mark (by decide) hrest))

/-- An argument whose value is a list of items that write tokens. -/
theorem Listed.written_argument {α : Type} {write : α → String} {kindsOf : α → List Kind}
    {word : String} {as : List α} {cs rest : List Char} {ks : List Kind} (hword : Token.IsWord word)
    (hlist : Listed write as cs)
    (h : ∀ a ∈ as, ∀ {kinds rest}, Apart rest → Written kinds rest →
      Written (kindsOf a ++ kinds) ((write a).toList ++ rest))
    (hrest : Written ks rest) :
    Written (listKinds word (as.flatMap kindsOf) ++ ks)
      (word.toList ++ ':' :: ' ' :: '[' :: (cs ++ ']' :: rest)) := by
  -- the items are followed by the bracket that closes the list
  have hitems := hlist.written h (Token.apart_of_isPunctuator (by decide) rest)
    (.mark (c := ']') (by decide) hrest)
  rw [listKinds, List.cons_append, List.cons_append, List.cons_append, List.append_assoc]
  exact .word hword (by decide) <| .mark (by decide) <| .blank (by decide) <|
    .mark (by decide) hitems

/-- The definition writes its tokens. -/
theorem written_directiveText {paths : List String} {declared : List Declaration}
    {files executables : String} (hpaths : ∀ path ∈ paths, Quoted.IsPlain path)
    (hdeclared : ∀ d ∈ declared, Quoted.IsPlain d.document)
    (hfiles : Listed quote paths files.toList)
    (hexecutables : Listed Declaration.write declared executables.toList) :
    Written (directiveKinds paths declared) (directiveText files executables).toList := by
  have hchars : (directiveText files executables).toList =
      "schema".toList ++ ' ' :: '@' :: ("sdl".toList ++ '(' ::
        ("files".toList ++ ':' :: ' ' :: '[' :: (files.toList ++ ']' :: ',' :: ' ' ::
          ("executables".toList ++ ':' :: ' ' :: '[' :: (executables.toList ++ ']' :: ')' :: ' ' ::
            '\x7b' :: ' ' :: ("query".toList ++ ':' :: ' ' ::
              ("Query".toList ++ ' ' :: '\x7d' :: []))))))) := by
    rw [show directiveText files executables = "schema @sdl(files: [" ++ files ++
      "], executables: [" ++ executables ++ "]) \x7b query: Query \x7d" from rfl]
    simp
  rw [hchars]
  -- token by token; the two lists are arguments of the directive
  refine .word (by decide) (by decide) (.blank (by decide) (.mark (by decide) ?_))
  refine .word (by decide) (by decide) (.mark (by decide) ?_)
  refine hfiles.written_argument (by decide)
    (fun path hpath => written_quote (hpaths path hpath)) (.comma (.blank (by decide) ?_))
  refine hexecutables.written_argument (by decide)
    (fun d hd _ _ _ hrest => Declaration.written (hdeclared d hd) hrest) (.mark (by decide) ?_)
  refine .blank (by decide) (.mark (by decide) (.blank (by decide) ?_))
  refine .word (by decide) (by decide) (.mark (by decide) (.blank (by decide) ?_))
  exact .word (by decide) (by decide) (.blank (by decide) (.mark (by decide) .nil))

/-! ## What is read from it -/

/-- A declaration is read from its tokens. -/
theorem takes_declaration {d : Declaration} {part : List Token} (levels : Nat)
    (h : part.map Token.kind = d.kinds) :
    ∃ v, declaration? v = some d ∧ part.head?.any (!·.isMark ']') = true ∧
      (value true (levels + 1)).Takes Anywhere part v := by
  obtain ⟨opening, _, rfl, hopening, h⟩ := List.map_eq_cons_iff.1 h
  obtain ⟨document, _, rfl, hdocument, h⟩ := List.map_eq_cons_iff.1 h
  obtain ⟨colon, _, rfl, hcolon, h⟩ := List.map_eq_cons_iff.1 h
  obtain ⟨path, _, rfl, hpath, h⟩ := List.map_eq_cons_iff.1 h
  obtain ⟨persist, _, rfl, hpersist, h⟩ := List.map_eq_cons_iff.1 h
  obtain ⟨colon', _, rfl, hcolon', h⟩ := List.map_eq_cons_iff.1 h
  obtain ⟨flag, _, rfl, hflag, h⟩ := List.map_eq_cons_iff.1 h
  obtain ⟨closing, _, rfl, hclosing, h⟩ := List.map_eq_cons_iff.1 h
  obtain rfl := List.map_eq_nil_iff.1 h
  -- two fields, the second of which holds a truth value
  have hfields : List.Forall₂ (fun part field => part.head?.any isName = true ∧
      (objectField (value true levels)).Takes Anywhere part field)
      [[document, colon, path], [persist, colon', flag]]
      [(⟨"document", document.start⟩, some (.string d.document)),
        (⟨"persist", persist.start⟩, some (wordValue ⟨toString d.persist, flag.start⟩))] :=
    .cons ⟨by simp [isName, Token.name?, hdocument],
        takes_objectField hdocument hcolon (takes_string hpath)⟩ <|
      .cons ⟨by simp [isName, Token.name?, hpersist],
        takes_objectField hpersist hcolon' (takes_wordValue hflag)⟩ .nil
  refine ⟨_, ?_, by simp [Token.isMark, hopening], takes_object hopening hclosing hfields⟩
  obtain ⟨document, persist⟩ := d
  cases persist <;> rfl

/-- Values that are read as declarations are these declarations. -/
theorem filterMap_declaration {declared : List Declaration} {vs : List Value}
    (h : List.Forall₂ (fun d v => declaration? v = some d) declared vs) :
    vs.filterMap declaration? = declared := by
  induction h with
  | nil => rfl
  | cons hd _ ih => rw [List.filterMap_cons_some hd, ih]

/-- A path is read from its token. -/
theorem takes_path {path : String} {part : List Token} (levels : Nat)
    (h : part.map Token.kind = [.string path]) :
    ∃ v, .string path = v ∧ part.head?.any (!·.isMark ']') = true ∧
      (value true levels).Takes Anywhere part v := by
  obtain ⟨t, _, rfl, ht, hrest⟩ := List.map_eq_cons_iff.1 h
  obtain rfl := List.map_eq_nil_iff.1 hrest
  exact ⟨_, rfl, by simp [Token.isMark, ht], takes_string ht⟩

/-- An argument whose value is a list is read from its tokens, if its items are. -/
theorem takes_listArgument {α : Type} {kindsOf : α → List Kind} {word : String} {as : List α}
    {ts : List Token} {P : α → Value → Prop} (levels : Nat)
    (h : ts.map Token.kind = listKinds word (as.flatMap kindsOf))
    (hitems : ∀ a ∈ as, ∀ part, part.map Token.kind = kindsOf a →
      ∃ v, P a v ∧ part.head?.any (!·.isMark ']') = true ∧
        (value true levels).Takes Anywhere part v) :
    ∃ start vs, (argument true (levels + 1)).Takes Anywhere ts
      { name := ⟨word, start⟩, value := some (.list vs) } ∧ List.Forall₂ P as vs ∧
      ts.head?.any isName = true := by
  obtain ⟨name, _, rfl, hname, h⟩ := List.map_eq_cons_iff.1 h
  obtain ⟨colon, _, rfl, hcolon, h⟩ := List.map_eq_cons_iff.1 h
  obtain ⟨opening, _, rfl, hopening, h⟩ := List.map_eq_cons_iff.1 h
  obtain ⟨items, _, rfl, hkinds, h⟩ := List.map_eq_append_iff.1 h
  obtain ⟨closing, _, rfl, hclosing, h⟩ := List.map_eq_cons_iff.1 h
  obtain rfl := List.map_eq_nil_iff.1 h
  -- the tokens between the brackets fall into those of the items
  obtain ⟨parts, vs, rfl, hP, hvs⟩ := exists_parts hitems hkinds
  exact ⟨name.start, vs, takes_argument hname hcolon (takes_list hopening hclosing hvs), hP,
    by simp [isName, Token.name?, hname]⟩

/-- The types of operations that a schema definition ends with. -/
theorem takes_rootOperations {ts : List Token}
    (h : ts.map Token.kind =
      [.mark '\x7b', .name "query", .mark ':', .name "Query", .mark '\x7d']) :
    (maybe (·.isMark '\x7b') do
      let _ ← mark '\x7b'
      let _ ← many1 isName rootOperation
      let _ ← mark '\x7d').Takes Anywhere ts (some ()) := by
  obtain ⟨opening, _, rfl, hopening, h⟩ := List.map_eq_cons_iff.1 h
  obtain ⟨query, _, rfl, hquery, h⟩ := List.map_eq_cons_iff.1 h
  obtain ⟨colon, _, rfl, hcolon, h⟩ := List.map_eq_cons_iff.1 h
  obtain ⟨type, _, rfl, htype, h⟩ := List.map_eq_cons_iff.1 h
  obtain ⟨closing, _, rfl, hclosing, h⟩ := List.map_eq_cons_iff.1 h
  obtain rfl := List.map_eq_nil_iff.1 h
  have hkind : operationKind? query = some .query := by
    simp [operationKind?, Token.isWord, hquery, OperationKind.keyword]
  have hname := (takes_name (E := Anywhere) htype).maybe isName
    (by simp [isName, Token.name?, htype])
  -- one operation with its type, and no other before the closing brace
  have hoperation : rootOperation.Takes Anywhere [query, colon, type] () :=
    (takes_take hkind).cons ((takes_mark hcolon).cons (hname.bind_pure fun _ => rfl))
  refine Takes.maybe ?_ _ (by simp [Token.isMark, hopening])
  have hmark := (takes_mark (E := Anywhere) hclosing).bind_pure (f := fun _ => pure ())
    fun _ => rfl
  refine (takes_mark hopening).cons ((hoperation.many1 .nil).bind_of hmark ?_)
  intro rest _
  simp [isName, Token.name?, hclosing]

/-- A schema definition with a wiring directive is read from its tokens. -/
theorem takes_schemaDefinition {paths : List String} {declared : List Declaration}
    {ts : List Token} (h : ts.map Token.kind = directiveKinds paths declared) :
    ∃ directive vs, schemaDefinition.Takes Anywhere ts (.schema [directive]) ∧
      argumentsOf [directive] "files" = [.list (paths.map .string)] ∧
      argumentsOf [directive] "executables" = [.list vs] ∧
      vs.filterMap declaration? = declared := by
  obtain ⟨schema, _, rfl, hschema, h⟩ := List.map_eq_cons_iff.1 h
  obtain ⟨at', _, rfl, hat, h⟩ := List.map_eq_cons_iff.1 h
  obtain ⟨sdl, _, rfl, hsdl, h⟩ := List.map_eq_cons_iff.1 h
  obtain ⟨opening, _, rfl, hopening, h⟩ := List.map_eq_cons_iff.1 h
  obtain ⟨files, _, rfl, hfiles, h⟩ := List.map_eq_append_iff.1 h
  obtain ⟨executables, _, rfl, hexecutables, h⟩ := List.map_eq_append_iff.1 h
  obtain ⟨closing, operations, rfl, hclosing, hoperations⟩ := List.map_eq_cons_iff.1 h
  -- both lists are one level below the directive
  obtain ⟨start, _, htakes, hpaths, -⟩ := takes_listArgument 499 hfiles
    fun path _ part hpart => takes_path _ hpart
  have hvalues := List.forall₂_map_left_iff.2 hpaths
  rw [List.forall₂_eq_eq_eq] at hvalues
  subst hvalues
  obtain ⟨start', vs, htakes', hdeclared, hhead⟩ := takes_listArgument 499 hexecutables
    fun d _ part hpart => takes_declaration _ hpart
  have hdirective := takes_directive hat hsdl hopening hclosing htakes
    (.cons ⟨hhead, htakes'⟩ .nil)
  have hdirectives := Takes.many (·.isMark '@') <|
    .cons ⟨by simp [Token.isMark, hat], hdirective⟩ .nil
  have htokens :
      schema :: at' :: sdl :: opening :: (files ++ (executables ++ closing :: operations)) =
      schema :: ([at' :: sdl :: opening :: (files ++ [executables].flatten ++ [closing])].flatten ++
        operations) := by
    simp
  refine ⟨{ name := ⟨"sdl", sdl.start⟩, arguments := [
    { name := ⟨"files", start⟩, value := some (.list (paths.map .string)) },
    { name := ⟨"executables", start'⟩, value := some (.list vs) }] }, vs, ?_, rfl, rfl,
    filterMap_declaration hdeclared⟩
  rw [htokens]
  refine (takes_word hschema).cons (hdirectives.bind_of ?_ ?_)
  · exact (takes_rootOperations hoperations).bind_pure fun _ => rfl
  · intro rest _
    obtain ⟨brace, _, rfl, hbrace, -⟩ := List.map_eq_cons_iff.1 hoperations
    simp [Token.isMark, hbrace]

/-! ## The whole text -/

/-- What is read first is the first definition of a text. -/
theorem exists_definitions_eq {text : String} {d : Definition} {rest : List Token}
    (h : definition (Token.ofText text) = .ok (d, rest)) :
    ∃ more, (Document.ofText text).definitions = d :: more := by
  -- a fault further on leaves the definitions that were read
  have hdefinitions : (Document.ofText text).definitions =
      (Document.definitionsFrom (Token.ofText text) (Token.ofText text)).1 := by
    rcases hfrom : Document.definitionsFrom (Token.ofText text) (Token.ofText text) with ⟨ds, fault⟩
    simp only [Document.ofText, hfrom]
    split <;> rfl
  rw [hdefinitions]
  cases htokens : Token.ofText text with
  | nil =>
    rw [htokens] at h
    cases h
  | cons t ts =>
    rw [htokens] at h
    rw [Document.definitionsFrom, h]
    exact ⟨_, rfl⟩

/-- The word `schema` introduces a schema definition. -/
theorem definition_of_schema {t : Token} (h : t.kind = .name "schema") (ts : List Token) :
    definition (t :: ts) = schemaDefinition (t :: ts) := by
  obtain ⟨kind, start, stop, afterComma⟩ := t
  obtain rfl : kind = .name "schema" := h
  rfl

section Text

variable {paths : List String} {declared : List Declaration} {files executables : String}
  (hpaths : ∀ path ∈ paths, Quoted.IsPlain path ∧ ']' ∉ path.toList)
  (hdeclared : ∀ d ∈ declared, Quoted.IsPlain d.document)
  (hfiles : Listed quote paths files.toList)
  (hexecutables : Listed Declaration.write declared executables.toList)

include hpaths hdeclared hfiles hexecutables

/-- What a text that begins with a wiring directive gives to the arguments begins with the values
there, whether the text has syntax errors or not. -/
theorem arguments_directiveText (behind : String) :
    let document := Document.ofText (directiveText files executables ++ "\n" ++ behind)
    [.list (paths.map .string)] <+: arguments document "files" ∧
      ∃ vs, [.list vs] <+: arguments document "executables" ∧
        vs.filterMap declaration? = declared := by
  have hwritten := written_directiveText (fun path hpath => (hpaths path hpath).1) hdeclared hfiles
    hexecutables
  obtain ⟨ts, stop, comma, hscan, hkinds⟩ := hwritten.scan_append
    (Token.apart_of_isBlank (c := '\n') (by decide) behind.toList) 0 false
  obtain ⟨directive, vs, htakes, hfiles', hexecutables', hvs⟩ := takes_schemaDefinition hkinds
  have hchars : (directiveText files executables ++ "\n" ++ behind).toList =
      (directiveText files executables).toList ++ '\n' :: behind.toList := by
    simp
  obtain ⟨schema, rest, rfl, hschema, -⟩ := List.map_eq_cons_iff.1 hkinds
  -- the line feed ends the directive, so what follows does not go on with it
  have hdefinition : definition (Token.ofText (directiveText files executables ++ "\n" ++ behind)) =
      .ok (.schema [directive], Token.scan ('\n' :: behind.toList) stop comma) := by
    rw [Token.ofText, hchars, hscan, List.cons_append, definition_of_schema hschema,
      ← List.cons_append]
    exact htakes _ trivial
  obtain ⟨more, hmore⟩ := exists_definitions_eq hdefinition
  -- the arguments of later definitions come behind those of this one
  have hall (argument : String) :
      arguments (Document.ofText (directiveText files executables ++ "\n" ++ behind)) argument =
        argumentsOf [directive] argument ++
          more.flatMap fun d => argumentsOf d.directives argument := by
    rw [arguments, argumentsIn, hmore, List.map_cons, List.flatMap_cons, List.flatMap_map]
    rfl
  refine ⟨?_, vs, ?_, hvs⟩
  · rw [hall, hfiles']
    exact List.prefix_append _ _
  · rw [hall, hexecutables']
    exact List.prefix_append _ _

end Text

/-- What stands before the first string may be longer. -/
theorem Quotes.append {paths : List String} {gap cs : List Char} (hgap : '"' ∉ gap ∧ ']' ∉ gap)
    (h : Quotes paths cs) : Quotes paths (gap ++ cs) := by
  cases h with
  | done gap' hgap' =>
    exact .done _ (by simp [hgap.1, hgap.2, hgap'.1, hgap'.2])
  | next gap' hgap' hpath hrest =>
    rw [← List.append_assoc]
    exact .next _ (by simp [hgap.1, hgap.2, hgap'.1, hgap'.2]) hpath hrest

/-- The strings of a list are those that stand in quote marks. -/
theorem Listed.quotes {paths : List String} {cs : List Char}
    (hpaths : ∀ path ∈ paths, Quoted.IsPlain path ∧ ']' ∉ path.toList)
    (h : Listed quote paths cs) : Quotes paths cs := by
  have hplain {path : String} (h : Quoted.IsPlain path ∧ ']' ∉ path.toList) :
      '"' ∉ path.toList ∧ ']' ∉ path.toList :=
    ⟨fun hmem => (h.1 _ hmem).1 rfl, h.2⟩
  -- string by string, with the gaps between them
  induction h with
  | nil => exact .done [] (by simp)
  | last path =>
    have hquotes := Quotes.next [] (by simp) (hplain (hpaths path (by simp)))
      (.done [] (by simp))
    simpa [quote] using hquotes
  | @next path paths gap cs _ hgap _ ih =>
    have hgap' : '"' ∉ gap ∧ ']' ∉ gap := by
      constructor <;> intro hmem <;> rcases hgap _ hmem with hc | hc <;> revert hc <;> decide
    have hrest := (ih fun path hpath => hpaths path (by simp [hpath])).append hgap'
    have hquotes := Quotes.next [] (by simp) (hplain (hpaths path (by simp))) hrest
    simpa [quote] using hquotes

/-- The includes of the directive can be recovered. -/
theorem recoveredIncludes_directiveText {paths : List String} {files : String}
    (hpaths : ∀ path ∈ paths, Quoted.IsPlain path ∧ ']' ∉ path.toList)
    (hfiles : Listed quote paths files.toList) (executables behind : String) :
    paths <+: recoveredIncludes (directiveText files executables ++ "\n" ++ behind) := by
  -- the text has the form that is scanned for, with nothing before the files
  have htext : directiveText files executables ++ "\n" ++ behind =
      "schema " ++ "@sdl(" ++ "" ++ "files: [" ++ files ++ "]" ++
        (", executables: [" ++ executables ++ "]) \x7b query: Query \x7d\n" ++ behind) := by
    rw [← String.toList_inj, show directiveText files executables = "schema @sdl(files: [" ++
      files ++ "], executables: [" ++ executables ++ "]) \x7b query: Query \x7d" from rfl]
    simp
  rw [htext, recoveredIncludes_append _ _ _ _ paths (by simp [List.infix_cons_iff]) (by simp)
    (by simp) (by simp) (hfiles.quotes hpaths)]
  exact List.prefix_append _ _

/-- A syntax error elsewhere in a file does not lose its includes. If a text begins with a schema
definition with a wiring directive, then, whatever follows in the next line, its includes begin with
the files of the directive, and its declarations, if it has no syntax errors, with those of the
directive. -/
theorem includes_directiveText (path : FilePath) (paths : List String) (declared : List Declaration)
    (files executables behind : String)
    (hpaths : ∀ path ∈ paths, Quoted.IsPlain path ∧ ']' ∉ path.toList)
    (hdeclared : ∀ d ∈ declared, Quoted.IsPlain d.document)
    (hfiles : Listed quote paths files.toList)
    (hexecutables : Listed Declaration.write declared executables.toList) :
    let text := directiveText files executables ++ "\n" ++ behind
    paths <+: (contribution path text).includes ∧
      ((Document.ofText text).isSound = true →
        declared <+: declarations (Document.ofText text)) := by
  intro text
  obtain ⟨⟨more, hmore⟩, vs, ⟨more', hmore'⟩, hvs⟩ :=
    arguments_directiveText hpaths hdeclared hfiles hexecutables behind
  constructor
  · -- the files come from the document, or they are recovered
    rw [includes_contribution, SchemaAtlas.includesOf]
    split
    · have hvalue : includesOf (.list (paths.map .string)) = paths := by
        rw [includesOf, List.filterMap_map]
        exact List.filterMap_some
      rw [includes, ← hmore, List.flatMap_append, List.flatMap_singleton, hvalue]
      exact List.prefix_append _ _
    · exact recoveredIncludes_directiveText hpaths hfiles executables behind
  · intro _
    have hvalue : declarationsOf (.list vs) = declared := hvs
    rw [declarations, ← hmore', List.flatMap_append, List.flatMap_singleton, hvalue]
    exact List.prefix_append _ _

/-- A directive whose paths are awkward, before a definition and before one that is broken off. -/
theorem includes_directiveText_awkward :
    ["", "files: (\x7b"] <+: (contribution ⟨"/a"⟩
      (directiveText "\"\", \"files: (\x7b\"" "\x7b document: \"]) q\", persist: true \x7d" ++
        "\n" ++ "type \x7b")).includes ∧
    [⟨"]) q", true⟩] <+: declarations (Document.ofText
      (directiveText "\"\", \"files: (\x7b\"" "\x7b document: \"]) q\", persist: true \x7d" ++
        "\n" ++ "type A")) := by
  have hpaths : ∀ path ∈ ["", "files: (\x7b"], Quoted.IsPlain path ∧ ']' ∉ path.toList := by
    simp [Quoted.IsPlain, Quoted.isLineEnd]
  have hdeclared : ∀ d ∈ [(⟨"]) q", true⟩ : Declaration)], Quoted.IsPlain d.document := by
    simp [Quoted.IsPlain, Quoted.isLineEnd]
  have hfiles : Listed quote ["", "files: (\x7b"] "\"\", \"files: (\x7b\"".toList :=
    .next [',', ' '] (by decide) (by simp [Token.isBlank]) (.last _)
  have hexecutables : Listed Declaration.write [⟨"]) q", true⟩]
      "\x7b document: \"]) q\", persist: true \x7d".toList := .last _
  refine ⟨(includes_directiveText _ _ _ _ _ _ hpaths hdeclared hfiles hexecutables).1, ?_⟩
  refine (includes_directiveText ⟨"/a"⟩ _ _ _ _ _ hpaths hdeclared hfiles hexecutables).2 ?_
  decide +kernel

end SchemaAtlas.Wiring
