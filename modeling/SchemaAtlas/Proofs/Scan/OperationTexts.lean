import SchemaAtlas.Proofs.Document.Ranges
import SchemaAtlas.Proofs.FileUri.RoundTrip
import SchemaAtlas.Proofs.Scan.Documents
import SchemaAtlas.Query.Operations

/-!
# The texts of the operations of a scan

An operation is kept with the URI of its document and the range that it has there. Asking for its
text means to find the document by the URI, to read it again, and to cut out the range. The range
can always be cut out. The document is found again if its path starts at the root and goes nowhere
up; no URI leads back to a path that starts anywhere else.

* `Scan.exists_document_of_ok`       where the operations of a scan come from
* `Scan.operationText_of_run_ok`     the text of an operation
* `Scan.operationText_here`          a scan none of whose operations has a text
-/

namespace SchemaAtlas

open ClientDocuments (Declared Scanned)

/-- Whether an operation was collected from the text of a document that declarations name. -/
structure OperationEntry.CollectedFrom (source : Source) (root : FilePath)
    (declarations : List Wiring.Declaration) (operation : OperationEntry) (path : FilePath)
    (text : String) : Prop where
  declared : Declared root declarations path
  scanned : Scanned source path text
  uri : operation.uri = FileUri.ofPath path
  range : ∃ executable ∈ (Document.ofText text).executables,
    operation.range = ⟨executable.start, executable.stop⟩

/-- Whether the document at a path can be found again by its URI: the path starts at the root, goes
nowhere up, and if it ends in a drive the slash behind it is no hindrance. -/
structure Source.Finds (source : Source) (path : FilePath) : Prop where
  isAbsolute : path.isAbsolute = true
  up : FilePath.Step.up ∉ path.route.steps
  drive : FileUri.endsInDrive path = true → source.misspelling? (FileUri.withSlash path) = none

namespace Source

variable {source : Source} {p q : FilePath} {text : String}

/-- A file is read under any spelling of its path that the source does not refuse. -/
theorem read_of_normalize (hnormal : q.normalize = p.normalize) (hq : source.misspelling? q = none)
    (h : source.read p = .ok text) : source.read q = .ok text := by
  -- the file is found by its normal form, whatever the spelling
  have hfind : source.find? q = source.find? p := by rw [find?, find?, hnormal]
  unfold read at h ⊢
  rw [hfind, hq]
  cases hcontent : source.find? p with
  | none =>
    rw [hcontent] at h
    cases h
  | some content =>
    rw [hcontent] at h
    dsimp only at h
    split at h
    · cases h
    · exact h

/-- The URI of a document that can be found again leads to its text. -/
theorem Finds.readUri (hfinds : source.Finds p) (hp : p.IsNormal) (h : source.read p = .ok text) :
    ∃ q, readUri source (FileUri.ofPath p) = .ok (q, text) := by
  have hpath := FileUri.toPath_ofPath hp hfinds.isAbsolute hfinds.up
  cases hdrive : FileUri.endsInDrive p with
  | true =>
    have hread : source.read (FileUri.withSlash p) = .ok text :=
      read_of_normalize (FileUri.normalize_withSlash hfinds.isAbsolute) (hfinds.drive hdrive) h
    rw [hdrive, if_pos rfl] at hpath
    exact ⟨FileUri.withSlash p, by simp only [SchemaAtlas.readUri, hpath, hread]⟩
  | false =>
    rw [hdrive, if_neg (by simp)] at hpath
    exact ⟨p, by simp only [SchemaAtlas.readUri, hpath, h]⟩

/-- No file can be read under a path from the root if all files have relative paths. -/
theorem read_ne_ok_of_relative (hrelative : ∀ file ∈ source.listing, file.1.isAbsolute = false)
    (hp : p.isAbsolute = true) : source.read p ≠ .ok text := by
  have habsolute : p.normalize.isAbsolute = true :=
    (congrArg FilePath.Route.rooted (FilePath.route_normalize p)).trans hp
  -- nothing that is listed has the normal form of an absolute path
  have hnone : source.find? p = none := by
    rw [find?, Option.map_eq_none_iff, List.find?_eq_none]
    intro file hfile heq
    have hfalse := hrelative file hfile
    rw [eq_of_beq heq, habsolute] at hfalse
    cases hfalse
  unfold read
  rw [hnone]
  intro h
  cases h

end Source

/-- What a URI reads is the file at the path that comes of it. -/
theorem readUri_eq_ok {source : Source} {uri text : String} {path : FilePath}
    (h : readUri source uri = .ok (path, text)) :
    FileUri.toPath uri = .ok path ∧ source.read path = .ok text := by
  unfold readUri at h
  -- only a URI that is a path, of a file that can be read, gives a text
  split at h
  · cases h
  · cases h
  · cases h
  · next q hpath =>
    split at h
    · next other hread =>
      obtain ⟨rfl, rfl⟩ := Prod.mk.inj (Except.ok.inj h)
      exact ⟨hpath, hread⟩
    · cases h

/-- The text of an operation is the slice of its file that its range marks. -/
theorem operationText_of_readUri {source : Source} {operation : OperationEntry} {path : FilePath}
    {text : String} {slice : List Char} (hread : readUri source operation.uri = .ok (path, text))
    (hslice : Text.slice? text.toList operation.range.start operation.range.stop = some slice) :
    operationText source operation = .ok (String.ofList slice) := by
  simp only [operationText, hread, bind, Except.bind, hslice]

namespace Scan

variable {source : Source} {options : ScanOptions} {entry : FilePath} {cancelAfter : Option Nat}
  {s : Snapshot}

/-- Every operation that a scan keeps was collected from a document that its files declare. -/
theorem exists_document_of_ok (hok : (run source options entry cancelAfter).result = .ok s)
    {uri : String} {operations : List OperationEntry}
    (huri : s.operations.get? uri = some operations) {operation : OperationEntry}
    (hmem : operation ∈ operations) :
    ∃ path text, operation.CollectedFrom source entry.normalize.directory
      (declared source options s.files) path text := by
  obtain ⟨before, hoperations, -, hs⟩ := exists_documents hok
  rw [hs] at huri
  obtain ⟨path, text, hdeclared, hscanned, rfl, rfl⟩ :=
    ClientDocuments.of_get?_operations before hoperations huri
  obtain ⟨executable, hexecutable, rfl⟩ := List.mem_map.1 hmem
  exact ⟨path, text, hdeclared, hscanned, rfl, executable, hexecutable, rfl⟩

/-- While the files are as they were scanned, the range of every operation can be cut out of the
text that it was collected from, and this piece is the text of the operation if the document can be
found again by its URI. -/
theorem operationText_of_run_ok (source : Source) (options : ScanOptions) (entry : FilePath)
    (cancelAfter : Option Nat) (s : Snapshot)
    (hok : (run source options entry cancelAfter).result = .ok s) (uri : String)
    (operations : List OperationEntry) (huri : s.operations.get? uri = some operations)
    (operation : OperationEntry) (hmem : operation ∈ operations) :
    ∃ path text slice, operation.CollectedFrom source entry.normalize.directory
        (declared source options s.files) path text ∧
      Text.slice? text.toList operation.range.start operation.range.stop = some slice ∧
      (source.Finds path → operationText source operation = .ok (String.ofList slice)) := by
  obtain ⟨path, text, hcollected⟩ := exists_document_of_ok hok huri hmem
  obtain ⟨executable, hexecutable, hrange⟩ := hcollected.range
  -- the range was taken from a sound reading, so it cuts a slice out
  obtain ⟨slice, hslice⟩ :=
    Document.slice?_of_mem_executables hcollected.scanned.isSound hexecutable
  have hcut : Text.slice? text.toList operation.range.start operation.range.stop = some slice := by
    rw [hrange]
    exact hslice
  refine ⟨path, text, slice, hcollected, hcut, fun hfinds => ?_⟩
  obtain ⟨q, hread⟩ := hfinds.readUri hcollected.declared.isNormal hcollected.scanned.read
  rw [← hcollected.uri] at hread
  exact operationText_of_readUri hread hcut

/-- A document that the files of a crawl declare is found in the snapshot by its URI. -/
theorem exists_operations_of_crawled (options : ScanOptions)
    {h : source.has entry.normalize = true} {c : Crawl source}
    (hrun : (Crawl.start (target source entry h)).run entry.normalize options.maxFiles cancelAfter =
      (c, none)) (hfollow : options.followExecutables = true) {path : FilePath} {text : String}
    (hdeclared : Declared entry.normalize.directory (Wiring.declarationsOfText c.assembled) path)
    (hscanned : Scanned source path text) :
    ∃ s persist, (run source options entry cancelAfter).result = .ok s ∧
      s.operations.get? (FileUri.ofPath path) =
        some (ClientDocuments.operationsOf path persist text) := by
  have hnone : c.HasNoDocuments := .of_run hrun
  have hoperations := (Snapshot.get?_ofRecords_of_isDocument hnone).1
  obtain ⟨other, hother, hkept, -⟩ :=
    ClientDocuments.isKept_of_scanned (.ofRecords c.records) hoperations hdeclared hscanned
  obtain rfl : text = other := Except.ok.inj (hscanned.read.symm.trans hother.read)
  -- the documents come after all that the crawl has found
  have hrecords : Snapshot.ofRecords (c.records ++
        documentRecords source options entry.normalize c.assembled) =
      (Snapshot.ofRecords c.records).addAll (ClientDocuments.recordsOfDeclared source
        entry.normalize.directory (Wiring.declarationsOfText c.assembled)) := by
    rw [Snapshot.ofRecords_append, documentRecords, if_pos hfollow]
    rfl
  rw [← hrecords] at hkept
  have hresult := congrArg Scan.result (run_of_crawled hrun)
  exact ⟨_, _, hresult, hkept⟩

end Scan

/-- A project at a place whose name means something in a URL, with characters of several bytes in
its document. -/
def Source.awkward : Source :=
  { listing :=
      [(⟨"/p %41/index.graphql"⟩, .ok
          "schema @sdl(executables: [\x7b document: \"ä?#.graphql\" \x7d])"),
        (⟨"/p %41/ä?#.graphql"⟩, .ok
          "# 😀\nquery Q \x7b a(b: \"é\") \x7d, \x7b b \x7d fragment F on T \x7b c \x7d")]
    absent := MemoryFiles.notLoaded }

/-- The files under awkward names are found by their URIs. -/
theorem Source.finds_awkward {path : FilePath} (hp : path.IsNormal)
    (hhas : Source.awkward.has path = true) : Source.awkward.Finds path := by
  have hlisting : ∀ entry ∈ Source.awkward.listing, entry.1.isAbsolute = true ∧
      FilePath.Step.up ∉ entry.1.route.steps := by
    decide +kernel
  obtain ⟨entry, hentry, heq⟩ := mem_listing_of_has hhas
  obtain ⟨habsolute, hup⟩ := hlisting entry hentry
  obtain rfl : entry.1 = path := heq.trans hp
  exact ⟨habsolute, hup, fun _ => rfl⟩

theorem Source.has_awkward :
    Source.awkward.has (FilePath.normalize ⟨"/p %41/index.graphql"⟩) = true := by
  decide +kernel

/-- The three operations of a file with an awkward name are cut out of its text. -/
theorem Scan.operationText_of_run_ok_awkward :
    ∃ s operations, (run Source.awkward .default ⟨"/p %41/index.graphql"⟩ none).result = .ok s ∧
      s.operations.get? (FileUri.ofPath ⟨"/p %41/ä?#.graphql"⟩) = some operations ∧
      operations.length = 3 ∧
      ∀ operation ∈ operations, ∃ path text slice,
        operation.CollectedFrom Source.awkward
          (FilePath.normalize ⟨"/p %41/index.graphql"⟩).directory
          (declared Source.awkward .default s.files) path text ∧
        Text.slice? text.toList operation.range.start operation.range.stop = some slice ∧
        operationText Source.awkward operation = .ok (String.ofList slice) := by
  -- one file is taken up, and it declares one document
  obtain ⟨c, hrun, hdeclared⟩ : ∃ c, (Crawl.start (target Source.awkward
        ⟨"/p %41/index.graphql"⟩ Source.has_awkward)).run
          (FilePath.normalize ⟨"/p %41/index.graphql"⟩) none none = (c, none) ∧
      Wiring.declarationsOfText c.assembled = [⟨"ä?#.graphql", false⟩] :=
    Crawl.exists_run_of_within 2 _ (by decide +kernel)
  have hdocument : Declared (FilePath.normalize ⟨"/p %41/index.graphql"⟩).directory
      (Wiring.declarationsOfText c.assembled) ⟨"/p %41/ä?#.graphql"⟩ :=
    ⟨⟨"ä?#.graphql", false⟩, by simp [hdeclared], by decide +kernel⟩
  obtain ⟨s, persist, hok, hget⟩ := exists_operations_of_crawled ScanOptions.default hrun rfl
    hdocument ⟨by decide +kernel, rfl, by decide +kernel⟩
  refine ⟨s, _, hok, hget, ?_, fun operation hmem => ?_⟩
  · rw [ClientDocuments.operationsOf, Document.operationEntries, List.length_map]
    decide +kernel
  · obtain ⟨path, text, slice, hcollected, hslice, htext⟩ :=
      operationText_of_run_ok _ _ _ none s hok _ _ hget operation hmem
    have hfinds : Source.awkward.Finds path :=
      Source.finds_awkward hcollected.declared.isNormal hcollected.scanned.has
    exact ⟨path, text, slice, hcollected, hslice, htext hfinds⟩

/-! ## Relative paths -/

/-- No operation has a text if all files have relative paths. -/
theorem operationText_ne_ok_of_relative {source : Source}
    (hrelative : ∀ file ∈ source.listing, file.1.isAbsolute = false) (operation : OperationEntry)
    (text : String) : operationText source operation ≠ .ok text := by
  cases hread : readUri source operation.uri with
  | error failure =>
    intro h
    simp [operationText, hread, bind, Except.bind] at h
  | ok result =>
    obtain ⟨path, whole⟩ := result
    obtain ⟨hpath, hwhole⟩ := readUri_eq_ok hread
    exact absurd hwhole
      (Source.read_ne_ok_of_relative hrelative (FileUri.isAbsolute_of_toPath hpath))

/-- A project in the directory where the scan is started. -/
def Source.here : Source :=
  { listing :=
      [(⟨"index.graphql"⟩, .ok
          "schema @sdl(executables: [\x7b document: \"q.graphql\" \x7d])"),
        (⟨"q.graphql"⟩, .ok "query Q \x7b x \x7d")]
    absent := MemoryFiles.notLoaded }

theorem Source.has_here : Source.here.has (FilePath.normalize ⟨"index.graphql"⟩) = true := by
  decide +kernel

/-- What a scan from a relative entry collects has no text when it is asked for. -/
theorem Scan.operationText_here :
    ∃ s operation, (run Source.here .default ⟨"index.graphql"⟩ none).result = .ok s ∧
      s.operations.get? (FileUri.ofPath ⟨"q.graphql"⟩) = some [operation] ∧
      Text.slice? "query Q \x7b x \x7d".toList operation.range.start operation.range.stop =
        some "query Q \x7b x \x7d".toList ∧
      ∀ text, operationText Source.here operation ≠ .ok text := by
  -- one file is taken up, and it declares one document
  obtain ⟨c, hrun, hdeclared⟩ : ∃ c, (Crawl.start (target Source.here ⟨"index.graphql"⟩
        Source.has_here)).run (FilePath.normalize ⟨"index.graphql"⟩) none none = (c, none) ∧
      Wiring.declarationsOfText c.assembled = [⟨"q.graphql", false⟩] :=
    Crawl.exists_run_of_within 2 _ (by decide +kernel)
  have hscanned : ClientDocuments.Scanned Source.here ⟨"q.graphql"⟩ "query Q \x7b x \x7d" :=
    ⟨by decide +kernel, rfl, by decide +kernel⟩
  have hdocument : Declared (FilePath.normalize ⟨"index.graphql"⟩).directory
      (Wiring.declarationsOfText c.assembled) ⟨"q.graphql"⟩ :=
    ⟨⟨"q.graphql", false⟩, by simp [hdeclared], by decide +kernel⟩
  obtain ⟨s, persist, hok, hget⟩ :=
    exists_operations_of_crawled ScanOptions.default hrun rfl hdocument hscanned
  have hexecutables : (Document.ofText "query Q \x7b x \x7d").executables =
      [⟨.query, some ⟨"Q", 6⟩, 0, 13⟩] := by
    decide +kernel
  have hslice : Text.slice? "query Q \x7b x \x7d".toList 0 13 =
      some "query Q \x7b x \x7d".toList := by
    decide +kernel
  rw [ClientDocuments.operationsOf, Document.operationEntries, hexecutables] at hget
  exact ⟨s, _, hok, hget, hslice, operationText_ne_ok_of_relative (by decide +kernel) _⟩

end SchemaAtlas
