import Mathlib.Data.List.Flatten
import SchemaAtlas.Proofs.Crawl.Reachability
import SchemaAtlas.Proofs.Salvage.Texts

/-!
# The documents that a scan finds declared

The files without syntax errors are joined to one text, and the documents that this text declares
are scanned. Whatever the files declare is found there. More is found only if one of the files
behind the first begins with a query without a name. Where the file before it ends with a definition
that lacks its block, the braces of the query are taken for the block, and what is in them may look
like a definition.

* `Wiring.declarationsOfText_eq`   with or without syntax errors, a sweep finds what a text declares
* `Wiring.declarations_joined`     the declarations of joined texts
* `Scan.declarations_of_run_ok`    the declarations of the files of a scan
* `Scan.declarations_swallowing`   a scan that makes up a declaration
-/

namespace SchemaAtlas

open Salvage

namespace Wiring

/-! ## The declarations of directives -/

/-- The documents that a directive declares. -/
def declaredBy (directive : Directive) : List Declaration :=
  (argumentsOf [directive] "executables").flatMap declarationsOf

/-- The arguments of several directives are those of each of them, one after the other. -/
theorem argumentsOf_eq_flatMap (directives : List Directive) (argument : String) :
    argumentsOf directives argument = directives.flatMap fun d => argumentsOf [d] argument := by
  -- directive by directive
  induction directives with
  | nil => rfl
  | cons d directives ih =>
    rw [List.flatMap_cons, ← ih]
    unfold argumentsOf
    rw [← List.flatMap_append, ← List.filter_append]
    rfl

/-- What lists of directives declare is what each directive declares. -/
theorem flatMap_declarationsOf (lists : List (List Directive)) :
    (argumentsIn lists "executables").flatMap declarationsOf =
      lists.flatten.flatMap declaredBy := by
  -- the arguments of all directives are those of each directive in turn
  have harguments : argumentsIn lists "executables" =
      lists.flatten.flatMap fun d => argumentsOf [d] "executables" := by
    rw [List.flatMap_def, List.map_flatten, List.flatten_flatten, List.map_map]
    unfold argumentsIn
    rw [List.flatMap_def]
    congr 2
    funext directives
    rw [argumentsOf_eq_flatMap, List.flatMap_def]
    rfl
  rw [harguments, List.flatMap_assoc]
  rfl

/-- What is made of related items is the same if it is for each pair. -/
theorem flatMap_eq_of_forall₂ {α β γ : Type} {R : α → β → Prop} {f : α → List γ}
    {g : β → List γ} {as : List α} {bs : List β} (h : List.Forall₂ R as bs)
    (hfg : ∀ a b, R a b → f a = g b) : as.flatMap f = bs.flatMap g := by
  induction h with
  | nil => rfl
  | cons hR _ ih => rw [List.flatMap_cons, List.flatMap_cons, hfg _ _ hR, ih]

/-- The arguments of directives that are written alike declare the same. -/
theorem similar_argumentsOf {d d' : Directive} (h : SameDirective d d') (argument : String) :
    List.Forall₂ Value.Similar (argumentsOf [d] argument) (argumentsOf [d'] argument) := by
  have hname : d.name.text = d'.name.text := h.1
  -- the arguments that count are those of the same names
  have hsame : List.Forall₂ SameArgument (d.arguments.filter (·.name.text == argument))
      (d'.arguments.filter (·.name.text == argument)) := by
    refine List.rel_filter ?_ h.2
    intro a b hab
    have hname : a.name.text = b.name.text := hab.1
    show (a.name.text == argument) = true ↔ (b.name.text == argument) = true
    rw [hname]
  have hvalues := List.rel_filterMap (fun a b (hab : SameArgument a b) => hab.2) hsame
  unfold argumentsOf
  rw [List.filter_singleton, List.filter_singleton, hname]
  cases d'.name.text == directiveName with
  | true =>
    rw [cond_true, cond_true, List.flatMap_singleton, List.flatMap_singleton]
    exact hvalues
  | false => exact .nil

/-- Directives that are written alike declare the same. -/
theorem declaredBy_eq {d d' : Directive} (h : SameDirective d d') :
    declaredBy d = declaredBy d' :=
  flatMap_eq_of_forall₂ (similar_argumentsOf h "executables") fun _ _ hvalue =>
    hvalue.declarations

/-- A document declares what its directives declare. -/
theorem declarations_eq (document : Document) :
    declarations document = (directivesOf document.definitions).flatMap declaredBy := by
  rw [declarations, arguments, flatMap_declarationsOf, directivesOf, ← List.flatMap_def]

/-- Whether or not a text has syntax errors, it declares what a sweep over its tokens finds. -/
theorem declarationsOfText_eq (text : String) :
    declarationsOfText text =
      (directiveLists (Token.ofText text)).flatten.flatMap declaredBy := by
  simp only [declarationsOfText]
  -- a sound text is read, and any other one is swept
  split
  · next hsound =>
    rw [declarations_eq]
    exact flatMap_eq_of_forall₂ (sameDirectives_of_reads (reads_ofText hsound)) fun _ _ hsame =>
      declaredBy_eq hsame
  · exact flatMap_declarationsOf _

/-! ## The declarations of joined texts -/

/-- Joined texts declare whatever each of them declares, in the order of the texts. They declare no
more if none but the first of them begins with a brace, or if there are no syntax errors where they
are joined. -/
theorem declarations_joined {texts : List String}
    (h : ∀ text ∈ texts, (Document.ofText text).isSound = true) :
    (texts.flatMap fun text => declarations (Document.ofText text)).Sublist
        (declarationsOfText (String.join (texts.map (· ++ "\n")))) ∧
      (Braceless (texts.map Token.ofText).tail ∨
          (Document.ofText (String.join (texts.map (· ++ "\n")))).isSound = true →
        declarationsOfText (String.join (texts.map (· ++ "\n"))) =
          texts.flatMap fun text => declarations (Document.ofText text)) := by
  obtain ⟨lists, hsweeps, hsublist, hequal⟩ := finds_texts h
  -- all that the texts declare comes from their directives
  have hown : (texts.flatMap fun text => declarations (Document.ofText text)) =
      (directivesOf (texts.flatMap fun text => (Document.ofText text).definitions)).flatMap
        declaredBy := by
    have hdirectives : directivesOf (texts.flatMap fun text => (Document.ofText text).definitions) =
        texts.flatMap fun text => directivesOf (Document.ofText text).definitions :=
      List.flatMap_assoc
    rw [hdirectives, List.flatMap_assoc]
    exact List.flatMap_congr fun text _ => declarations_eq _
  rw [hown, declarationsOfText_eq, directiveLists_of_sweeps hsweeps]
  constructor
  · obtain ⟨found, hsame, hfound⟩ := List.sublistForall₂_iff.1 hsublist
    rw [flatMap_eq_of_forall₂ hsame fun _ _ hd => declaredBy_eq hd]
    exact hfound.flatMap declaredBy
  · intro hor
    have hsame := hequal (hor.imp_right fun hsound => ⟨_, reads_ofText hsound⟩)
    exact (flatMap_eq_of_forall₂ hsame fun _ _ hd => declaredBy_eq hd).symm

end Wiring

/-! ## The declarations of a scan -/

namespace Source

variable {source : Source}

/-- What the sound files at some paths declare, each of them read on its own. -/
def declarations (source : Source) (paths : List FilePath) : List Wiring.Declaration :=
  (source.soundFiles paths).flatMap fun file => Wiring.declarations file.document

/-- A sound file has the document of its text, which has no syntax errors. -/
theorem of_mem_soundFiles {paths : List FilePath} {file : Projection.SchemaFile}
    (h : file ∈ source.soundFiles paths) :
    file.document = Document.ofText file.text ∧ (Document.ofText file.text).isSound = true := by
  obtain ⟨p, -, text, -, hsound, rfl⟩ := exists_text_of_mem_soundFiles h
  exact ⟨rfl, hsound⟩

/-- What can be read is listed. -/
theorem mem_listing_of_text? {p : FilePath} {text : String} (h : source.text? p = some text) :
    (p.normalize, .ok text) ∈ source.listing := by
  unfold text? read at h
  -- a text is read only from a file that is listed under a right spelling
  cases hfind : source.find? p with
  | none => simp [hfind, Except.toOption] at h
  | some content =>
    cases hspelling : source.misspelling? p with
    | some reason => simp [hfind, hspelling, Except.toOption] at h
    | none =>
      have hcontent : content = .ok text := by
        cases content with
        | error reason => simp [hfind, hspelling, Except.toOption] at h
        | ok text' => simpa [hfind, hspelling, Except.toOption] using h
      obtain ⟨⟨q, content'⟩, hentry, rfl⟩ := Option.map_eq_some_iff.1 hfind
      obtain rfl : q = p.normalize := by simpa using List.find?_some hentry
      rw [← hcontent]
      exact List.mem_of_find?_eq_some hentry

end Source

/-- Whether a text begins with a query without a name. -/
def beginsWithQuery (text : String) : Bool :=
  beginsWithBrace (Token.ofText text)

/-- A scan that succeeds and follows documents finds whatever its sound files declare, in their
order. It makes up nothing if none but the first of them begins with a query without a name, or if
the assembled text has no syntax errors. -/
theorem Scan.declarations_of_run_ok (source : Source) (options : ScanOptions) (entry : FilePath)
    (cancelAfter : Option Nat) (s : Snapshot) (hfollow : options.followExecutables = true)
    (hok : (run source options entry cancelAfter).result = .ok s) :
    ∃ h c, (Crawl.start (target source entry h)).run entry.normalize options.maxFiles cancelAfter =
        (c, none) ∧
      s = Snapshot.ofRecords
        (c.records ++ ClientDocuments.records source entry.normalize.directory c.assembled) ∧
      (source.declarations s.files).Sublist (Wiring.declarationsOfText c.assembled) ∧
      ((∀ file ∈ (source.soundFiles s.files).tail, beginsWithQuery file.text = false) ∨
          (Document.ofText c.assembled).isSound = true →
        Wiring.declarationsOfText c.assembled = source.declarations s.files) := by
  obtain ⟨h, c, hrun, hs⟩ := exists_crawl_of_ok hok
  have hkept : c.Kept := .of_run hrun
  have hfiles : source.soundFiles s.files = source.soundFiles c.visited := by
    rw [hs, files_ofRecords_append options entry.normalize hkept, Source.soundFiles_filter]
  have hdocuments : documentRecords source options entry.normalize c.assembled =
      ClientDocuments.records source entry.normalize.directory c.assembled := by
    rw [documentRecords, if_pos hfollow]
  -- the assembled text joins the texts of the sound files
  let texts := (source.soundFiles s.files).map (·.text)
  have hassembled : c.assembled = String.join (texts.map (· ++ "\n")) := by
    rw [hkept.assembled, ← hfiles, List.map_map]
    rfl
  have hsound : ∀ text ∈ texts, (Document.ofText text).isSound = true := by
    intro text htext
    obtain ⟨file, hfile, rfl⟩ := List.mem_map.1 htext
    exact (Source.of_mem_soundFiles hfile).2
  have hown : source.declarations s.files =
      texts.flatMap fun text => Wiring.declarations (Document.ofText text) := by
    rw [List.flatMap_map]
    refine List.flatMap_congr fun file hfile => ?_
    rw [(Source.of_mem_soundFiles hfile).1]
  obtain ⟨hsublist, hequal⟩ := Wiring.declarations_joined hsound
  refine ⟨h, c, hrun, by rw [hs, hdocuments], ?_⟩
  rw [hassembled, hown]
  refine ⟨hsublist, fun hor => hequal (hor.imp_left fun hquery => ?_)⟩
  intro ts hts
  rw [List.map_map, ← List.map_tail] at hts
  obtain ⟨file, hfile, rfl⟩ := List.mem_map.1 hts
  exact hquery file hfile

/-- Files that declare documents. The first one ends with a type that lacks its block, and the
second one begins with a description. -/
def Source.declaring : Source :=
  { listing :=
      [(⟨"/p/index.graphql"⟩, .ok
          "extend schema @sdl(files: \"b.graphql\", executables: [\x7b document: \"q\" \x7d])
          type A"),
        (⟨"/p/b.graphql"⟩, .ok
          "\"B\" type B @sdl(executables: [\x7b document: \"r\", persist: true \x7d])")]
    absent := MemoryFiles.notLoaded }

/-- None of them begins with a query. -/
theorem Source.not_beginsWithQuery_declaring {paths : List FilePath} :
    ∀ file ∈ (Source.declaring.soundFiles paths).tail, beginsWithQuery file.text = false := by
  have hlisting : ∀ entry ∈ Source.declaring.listing,
      (entry.2.toOption.map beginsWithQuery).getD false = false := by
    decide +kernel
  intro file hfile
  obtain ⟨p, -, text, htext, -, rfl⟩ :=
    exists_text_of_mem_soundFiles (List.mem_of_mem_tail hfile)
  exact hlisting _ (mem_listing_of_text? htext)

/-- The scan of the two files finds what they declare, and nothing else. -/
theorem Scan.declarations_of_run_ok_declaring :
    ∃ s, (run Source.declaring .default ⟨"/p/index.graphql"⟩ none).result = .ok s ∧
      ∃ h c, (Crawl.start (target Source.declaring ⟨"/p/index.graphql"⟩ h)).run
          (FilePath.normalize ⟨"/p/index.graphql"⟩) none none = (c, none) ∧
        (Source.declaring.declarations s.files).Sublist
          (Wiring.declarationsOfText c.assembled) ∧
        Wiring.declarationsOfText c.assembled = Source.declaring.declarations s.files := by
  have h : Source.declaring.has (FilePath.normalize ⟨"/p/index.graphql"⟩) = true := by
    decide +kernel
  obtain ⟨s, hok⟩ : ∃ s, (run Source.declaring .default ⟨"/p/index.graphql"⟩ none).result = .ok s :=
    exists_ok rfl h rfl
  obtain ⟨h, c, hrun, -, hfound, hequal⟩ := declarations_of_run_ok _ _ _ none s rfl hok
  exact ⟨s, hok, h, c, hrun, hfound, hequal (.inl Source.not_beginsWithQuery_declaring)⟩

/-! ## What is made up -/

/-- A type without its block, and a file that begins with a query without a name. -/
def Source.swallowing : Source :=
  { listing :=
      [(⟨"/p/index.graphql"⟩, .ok
          "schema @sdl(files: [\"b.graphql\"]) \x7b query: Query \x7d type A"),
        (⟨"/p/b.graphql"⟩, .ok
          "\x7b a @x schema @sdl(executables: [\x7b document: \"q.graphql\" \x7d]) \x7d")]
    absent := MemoryFiles.notLoaded }

/-- The entry of these files is there. -/
theorem Source.has_swallowing :
    Source.swallowing.has (FilePath.normalize ⟨"/p/index.graphql"⟩) = true := by
  decide +kernel

/-- The crawl takes both files up, and their text declares a document. -/
theorem Crawl.exists_swallowed :
    ∃ c, (start (Scan.target Source.swallowing ⟨"/p/index.graphql"⟩ Source.has_swallowing)).run
        (FilePath.normalize ⟨"/p/index.graphql"⟩) none none = (c, none) ∧
      c.visited = [⟨"/p/index.graphql"⟩, ⟨"/p/b.graphql"⟩] ∧
      Wiring.declarationsOfText c.assembled = [⟨"q.graphql", false⟩] :=
  -- two files are taken up, and then nothing is left on the stack
  exists_run_of_within 3 _ (by decide +kernel)

/-- What a scan makes up: the braces of a query are taken for the block of a type, and what is in
them for a schema definition. -/
theorem Scan.declarations_swallowing :
    ∃ h c s, (Crawl.start (target Source.swallowing ⟨"/p/index.graphql"⟩ h)).run
          (FilePath.normalize ⟨"/p/index.graphql"⟩) none none = (c, none) ∧
      (run Source.swallowing .default ⟨"/p/index.graphql"⟩ none).result = .ok s ∧
      Source.swallowing.declarations s.files = [] ∧
      Wiring.declarationsOfText c.assembled = [⟨"q.graphql", false⟩] := by
  obtain ⟨c, hrun, hvisited, hfound⟩ := Crawl.exists_swallowed
  have hkept : c.Kept := .of_run hrun
  refine ⟨Source.has_swallowing, c, _, hrun, by rw [run_of_crawled hrun], ?_, hfound⟩
  rw [files_ofRecords_append .default _ hkept, Source.declarations, Source.soundFiles_filter,
    hvisited]
  decide +kernel

end SchemaAtlas
