import SchemaAtlas.Proofs.ClientDocuments.Persisted
import SchemaAtlas.Proofs.Crawl.Reachability

/-!
# The documents of a scan

A crawl leaves the operations and the ids to the documents of clients. They are scanned when the
crawl has ended, as far as the files that were found sound declare them.

* `Scan.exists_documents`   a scan that succeeds adds its documents to a snapshot without any
* `Scan.agree_of_run_ok`    the operations and the ids of a scan agree
-/

namespace SchemaAtlas

/-- Whether a record is one that a document of clients adds when it is scanned. -/
def Record.isDocument : Record → Bool
  | .operations .. | .persisted _ => true
  | _ => false

/-- What belongs to the schema belongs to no document. -/
theorem Record.isDocument_of_isSchema {r : Record} (h : r.isSchema = true) :
    r.isDocument = false := by
  cases r <;> first | rfl | cases h

/-- A list of records without documents builds a snapshot without any. -/
theorem Snapshot.get?_ofRecords_of_isDocument {records : List Record}
    (h : ∀ r ∈ records, r.isDocument = false) :
    (∀ uri, (ofRecords records).operations.get? uri = none) ∧
      ∀ id, (ofRecords records).persisted.get? id = none := by
  constructor
  · intro uri
    -- no record gives operations, and none a persisted document
    have hnil : records.filterMap (Record.operationsOf? uri) = [] :=
      List.filterMap_eq_nil_iff.2 fun r hr => by
        have := h r hr
        cases r <;> first | rfl | cases this
    rw [ofRecords, get?_operations_addAll, hnil]
    rfl
  · intro id
    have hnil : records.filterMap (Record.persistedOf? id) = [] :=
      List.filterMap_eq_nil_iff.2 fun r hr => by
        have := h r hr
        cases r <;> first | rfl | cases this
    rw [ofRecords, get?_persisted_addAll, hnil]
    rfl

/-! ## What a crawl leaves to the documents -/

namespace Crawl

variable {source : Source} {entry : FilePath} {maxFiles cancelAfter : Option Nat}

/-- What a file adds belongs to no document. -/
theorem isDocument_of_mem_contribution {path : FilePath} {text : String} {r : Record}
    (h : r ∈ (contribution path text).records) : r.isDocument = false := by
  cases hsound : (Document.ofText text).isSound with
  | true =>
    rw [contribution_of_sound path hsound] at h
    exact Record.isDocument_of_isSchema (isSchema_of_mem_records h)
  | false =>
    obtain ⟨offset, hcontribution⟩ := contribution_of_fault path hsound
    rw [hcontribution] at h
    obtain rfl := List.mem_singleton.1 h
    rfl

/-- Whether a crawl has added no documents. -/
def HasNoDocuments (c : Crawl source) : Prop :=
  ∀ r ∈ c.records, r.isDocument = false

/-- A diagnostic belongs to no document. -/
theorem HasNoDocuments.report {c : Crawl source} (hc : c.HasNoDocuments) (path : FilePath)
    (kind : DiagnosticKind) (message : String) : (c.report path kind message).HasNoDocuments := by
  intro r hr
  rcases List.mem_append.1 hr with hr | hr
  · exact hc r hr
  · obtain rfl := List.mem_singleton.1 hr
    rfl

/-- Adding a file adds no document. -/
theorem HasNoDocuments.addFile {c : Crawl source} (hc : c.HasNoDocuments) (path : FilePath)
    (text : String) : (c.addFile path text).HasNoDocuments := by
  intro r hr
  rw [addFile_eq] at hr
  rcases List.mem_append.1 hr with hr | hr
  · exact hc r hr
  rcases List.mem_cons.1 hr with rfl | hr
  · rfl
  rcases List.mem_append.1 hr with hr | hr
  · exact isDocument_of_mem_contribution hr
  · obtain ⟨diagnostic, rfl⟩ := of_mem_flatMap_missing hr
    rfl

/-- No step adds a document. -/
theorem HasNoDocuments.goes {c c' : Crawl source} (hc : c.HasNoDocuments)
    (h : Goes entry maxFiles c c') : c'.HasNoDocuments := by
  cases h with
  | again hstack hold => exact hc
  | read hstack hnew hlimit hread =>
    refine addFile ?_ _ _
    exact hc
  | unreadable hstack hnew hlimit hread hne => exact report hc _ _ _

/-- Neither does the end of a crawl. -/
theorem HasNoDocuments.ends {c c' : Crawl source} {failure : Option ScanError}
    (hc : c.HasNoDocuments) (h : Ends entry maxFiles cancelAfter c c' failure) :
    c'.HasNoDocuments := by
  cases h with
  | finished hstack => exact hc
  | cancelled hstack hcancel => exact hc
  | limited hstack hnew hlimit => exact report hc _ _ _
  | unreadable hstack hnew hread heq => exact hc

/-- A crawl adds no documents. -/
theorem HasNoDocuments.of_run {target : Target source} {c : Crawl source}
    {failure : Option ScanError}
    (h : (start target).run entry maxFiles cancelAfter = (c, failure)) : c.HasNoDocuments := by
  have hstart : (start target).HasNoDocuments := by
    intro r hr
    obtain rfl := List.mem_singleton.1 hr
    rfl
  exact holds_of_run hstart (fun _ _ hc hgoes => hc.goes hgoes)
    (fun _ _ _ hc hends => hc.ends hends) h

end Crawl

/-! ## The documents that the files declare -/

/-- The text that a scan puts together from the sound files at some paths. -/
def Source.assembled (source : Source) (paths : List FilePath) : String :=
  String.join ((source.soundFiles paths).map fun file => file.text ++ "\n")

namespace Scan

variable {source : Source} {options : ScanOptions} {entry : FilePath} {cancelAfter : Option Nat}
  {s : Snapshot}

/-- What a scan finds declared in its files, if it follows documents. -/
def declared (source : Source) (options : ScanOptions) (files : List FilePath) :
    List Wiring.Declaration :=
  if options.followExecutables then Wiring.declarationsOfText (source.assembled files) else []

/-- A scan that succeeds adds the documents that its files declare to a snapshot without any. -/
theorem exists_documents (hok : (run source options entry cancelAfter).result = .ok s) :
    ∃ before : Snapshot, (∀ uri, before.operations.get? uri = none) ∧
      (∀ id, before.persisted.get? id = none) ∧
      s = before.addAll (ClientDocuments.recordsOfDeclared source entry.normalize.directory
        (declared source options s.files)) := by
  obtain ⟨h, c, hrun, hs⟩ := exists_crawl_of_ok hok
  have hkept : c.Kept := .of_run hrun
  have hnone : c.HasNoDocuments := .of_run hrun
  obtain ⟨hoperations, hpersisted⟩ := Snapshot.get?_ofRecords_of_isDocument hnone
  refine ⟨.ofRecords c.records, hoperations, hpersisted, ?_⟩
  -- the crawl assembled the text of the files that the snapshot lists
  have hassembled : c.assembled = source.assembled s.files := by
    rw [hs, files_ofRecords_append options entry.normalize hkept, Source.assembled,
      Source.soundFiles_filter, hkept.assembled]
  have hdocuments : documentRecords source options entry.normalize c.assembled =
      ClientDocuments.recordsOfDeclared source entry.normalize.directory
        (declared source options s.files) := by
    rw [hassembled, documentRecords, declared]
    split
    · rfl
    · simp [ClientDocuments.recordsOfDeclared, ClientDocuments.collect]
  calc s = Snapshot.ofRecords (c.records ++ documentRecords source options entry.normalize
        c.assembled) := hs
    _ = _ := by rw [Snapshot.ofRecords_append, hdocuments]

/-- What a scan that succeeds says of operations agrees with what it says of ids. -/
theorem agree_of_run_ok (source : Source) (options : ScanOptions) (entry : FilePath)
    (cancelAfter : Option Nat) (s : Snapshot)
    (hok : (run source options entry cancelAfter).result = .ok s) :
    ClientDocuments.Agree source entry.normalize.directory (declared source options s.files) s := by
  obtain ⟨before, hoperations, hpersisted, hs⟩ := exists_documents hok
  have hagree := ClientDocuments.agree_addAll source entry.normalize.directory
    (declared source options s.files) before hoperations hpersisted
  rwa [← hs] at hagree

end Scan

/-- Two documents of one text, one of them declared twice. -/
def Source.twins : Source :=
  { listing :=
      [(⟨"/p/index.graphql"⟩, .ok
          "schema @sdl(executables: [\x7b document: \"a\", persist: true \x7d
            \x7b document: \"./a\" \x7d \x7b document: \"b\", persist: true \x7d])"),
        (⟨"/p/a"⟩, .ok "query Q \x7b x \x7d"),
        (⟨"/p/b"⟩, .ok "query Q \x7b x \x7d")]
    absent := MemoryFiles.notLoaded }

/-- Two documents of the same text are known by one id, and the scan agrees on them. -/
theorem Scan.agree_of_run_ok_twins :
    ∃ s, (run Source.twins .default ⟨"/p/index.graphql"⟩ none).result = .ok s ∧
      ClientDocuments.Agree Source.twins (FilePath.normalize ⟨"/p/index.graphql"⟩).directory
        (declared Source.twins .default s.files) s := by
  have h : Source.twins.has (FilePath.normalize ⟨"/p/index.graphql"⟩) = true := by decide +kernel
  obtain ⟨s, hok⟩ : ∃ s, (run Source.twins .default ⟨"/p/index.graphql"⟩ none).result = .ok s :=
    exists_ok rfl h rfl
  exact ⟨s, hok, agree_of_run_ok _ _ _ none s hok⟩

end SchemaAtlas
