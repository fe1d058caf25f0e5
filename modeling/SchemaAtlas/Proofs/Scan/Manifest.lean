import SchemaAtlas.Proofs.FileUri.RoundTrip
import SchemaAtlas.Proofs.OrderedMap
import SchemaAtlas.Proofs.Scan.Documents
import SchemaAtlas.Query.Operations

/-!
# The manifest of a snapshot

Persisted documents are kept by the ids of the texts that were scanned, and their texts are read
again when the manifest is asked for. Files may have changed meanwhile in any way. The manifest
then lists under an id the text that stands in the file of the entry now, if this is the text that
the id stands for, and it lists nothing else. It fails just when one of the files cannot be read.

* `Snapshot.manifest_eq_error_iff`  when a manifest fails
* `Snapshot.get?_manifest`          what a manifest lists
* `Scan.manifested_of_run_ok`       the manifests of a scan, now and whenever files have changed
-/

namespace SchemaAtlas

/-! ## What a manifest lists -/

namespace Snapshot

variable {later : Source} {s : Snapshot}

/-- The text of a persisted document, if it can be read and is the text that its id stands for. -/
def currentText? (later : Source) (id : String) (document : PersistedDocument) : Option String :=
  match readUri later document.uri with
  | .ok (_, text) => if Digest.documentId text == id then some text else none
  | .error _ => none

/-- Adds the text of an entry to a manifest. -/
def listText (later : Source) (texts : OrderedMap String)
    (entry : String × PersistedDocument) : OrderedMap String :=
  match currentText? later entry.1 entry.2 with
  | some text => texts.insert entry.1 text
  | none => texts

/-- One entry of a manifest. -/
def manifestStep (later : Source) (texts : OrderedMap String)
    (entry : String × PersistedDocument) : Except QueryError (OrderedMap String) := do
  let (_, text) ← readUri later entry.2.uri
  return if Digest.documentId text == entry.1 then texts.insert entry.1 text else texts

/-- A manifest is made of the persisted documents one by one, in the order of their ids. -/
theorem manifest_eq (later : Source) (s : Snapshot) :
    s.manifest later = s.persisted.entries.foldlM (manifestStep later) .empty := rfl

/-- An entry whose file can be read is listed if its text is the one that the id stands for. -/
theorem manifestStep_of_ok {texts : OrderedMap String} {entry : String × PersistedDocument}
    {read : FilePath × String} (h : readUri later entry.2.uri = .ok read) :
    manifestStep later texts entry = .ok (listText later texts entry) := by
  obtain ⟨path, text⟩ := read
  simp only [manifestStep, listText, currentText?, h]
  by_cases hid : (Digest.documentId text == entry.1) = true
  · simp [hid, bind, Except.bind, pure, Except.pure]
  · simp [hid, bind, Except.bind, pure, Except.pure]

/-- An entry whose file cannot be read makes the manifest fail. -/
theorem manifestStep_of_error {texts : OrderedMap String} {entry : String × PersistedDocument}
    {failure : QueryError} (h : readUri later entry.2.uri = .error failure) :
    manifestStep later texts entry = .error failure := by
  rw [manifestStep, h]
  rfl

/-- Reading the entries one by one comes to an end unless one of them cannot be read. -/
theorem foldlM_manifestStep (later : Source) (entries : List (String × PersistedDocument))
    (texts : OrderedMap String) :
    ((∃ entry ∈ entries, ∃ failure, readUri later entry.2.uri = .error failure) ∧
        ∃ failure, entries.foldlM (manifestStep later) texts = .error failure) ∨
      ((∀ entry ∈ entries, ∃ read, readUri later entry.2.uri = .ok read) ∧
        entries.foldlM (manifestStep later) texts =
          .ok (entries.foldl (listText later) texts)) := by
  -- the first entry that cannot be read ends it
  induction entries generalizing texts with
  | nil => exact .inr ⟨by simp, rfl⟩
  | cons entry entries ih =>
    rw [List.foldlM_cons, List.foldl_cons]
    cases hread : readUri later entry.2.uri with
    | error failure =>
      rw [manifestStep_of_error hread]
      exact .inl ⟨⟨entry, by simp, failure, hread⟩, failure, rfl⟩
    | ok read =>
      rw [manifestStep_of_ok hread]
      rcases ih (listText later texts entry) with ⟨⟨other, hmem, hother⟩, hfold⟩ | ⟨hall, hfold⟩
      · exact .inl ⟨⟨other, List.mem_cons_of_mem _ hmem, hother⟩, hfold⟩
      · refine .inr ⟨?_, hfold⟩
        intro other hmem
        rcases List.mem_cons.1 hmem with rfl | hmem
        · exact ⟨read, hread⟩
        · exact hall other hmem

/-- Listing an entry changes nothing under other ids. -/
theorem get?_listText (texts : OrderedMap String) (entry : String × PersistedDocument)
    (id : String) :
    (listText later texts entry).get? id =
      (if id = entry.1 then currentText? later id entry.2 else none).or (texts.get? id) := by
  unfold listText
  by_cases hid : id = entry.1
  · rw [hid, if_pos rfl]
    -- a document whose text has changed is not listed
    cases htext : currentText? later entry.1 entry.2 with
    | some text =>
      show (texts.insert entry.1 text).get? entry.1 = _
      rw [OrderedMap.insert, OrderedMap.get?_alter, if_pos rfl, Option.some_or]
    | none => rfl
  · rw [if_neg hid, Option.none_or]
    cases htext : currentText? later entry.1 entry.2 with
    | some text =>
      show (texts.insert entry.1 text).get? id = _
      rw [OrderedMap.insert, OrderedMap.get?_alter, if_neg hid]
    | none => rfl

/-- Under an id stands the text of its entry, if it was listed. -/
theorem get?_foldl_listText {entries : List (String × PersistedDocument)}
    (hascending : Ascending entries) (texts : OrderedMap String) (id : String) :
    (entries.foldl (listText later) texts).get? id =
      ((lookupEntry id entries).bind (currentText? later id)).or (texts.get? id) := by
  -- ids ascend, so no later entry has the id of this one
  induction entries generalizing texts with
  | nil => rfl
  | cons entry entries ih =>
    obtain ⟨k, document⟩ := entry
    obtain ⟨hk, hrest⟩ := List.pairwise_cons.1 hascending
    rw [List.foldl_cons, ih hrest, get?_listText]
    by_cases hid : id = k
    · subst hid
      -- an id has one entry
      have hnone : lookupEntry id entries = none := OrderedMap.lookupEntry_eq_none hk
      simp [lookupEntry, hnone]
    · simp [lookupEntry, hid, Ne.symm hid]

/-- A manifest fails just when an entry cannot be read. -/
theorem manifest_eq_error_iff :
    (∃ failure, s.manifest later = .error failure) ↔
      ∃ id document failure, s.persisted.get? id = some document ∧
        readUri later document.uri = .error failure := by
  rw [manifest_eq]
  -- one document cannot be read, or all of them can
  rcases foldlM_manifestStep later s.persisted.entries .empty with
    ⟨⟨entry, hmem, failure, hread⟩, hfold⟩ | ⟨hall, hfold⟩
  · constructor
    · intro _
      exact ⟨entry.1, entry.2, failure, OrderedMap.mem_entries_iff.1 hmem, hread⟩
    · intro _
      exact hfold
  · constructor
    · rintro ⟨failure, herror⟩
      rw [hfold] at herror
      cases herror
    · rintro ⟨id, document, failure, hdocument, hread⟩
      obtain ⟨read, hok⟩ := hall _ (OrderedMap.mem_entries_iff.2 hdocument)
      cases hok.symm.trans hread

/-- A manifest that does not fail lists the current text of every entry. -/
theorem get?_manifest {m : OrderedMap String} (h : s.manifest later = .ok m) (id : String) :
    m.get? id = (s.persisted.get? id).bind (currentText? later id) := by
  rw [manifest_eq] at h
  rcases foldlM_manifestStep later s.persisted.entries .empty with
    ⟨-, failure, hfold⟩ | ⟨-, hfold⟩
  · cases hfold.symm.trans h
  · obtain rfl := Except.ok.inj (hfold.symm.trans h)
    rw [get?_foldl_listText s.persisted.ascending, OrderedMap.get?_empty, Option.or_none]
    rfl

end Snapshot

/-! ## The manifests of a scan -/

/-- Whether a persisted document was made from the file at a path. -/
def PersistedDocument.IsOf (document : PersistedDocument) (path : FilePath) : Prop :=
  path.IsNormal ∧ document.uri = FileUri.ofPath path

/-- Whether the URIs of the persisted documents lead back to the paths that they were made from. -/
def Snapshot.LeadsBack (s : Snapshot) : Prop :=
  ∀ id document path, s.persisted.get? id = some document → document.IsOf path →
    FileUri.toPath document.uri = .ok path

open ClientDocuments (KnownBy entryOf)

/-- What the manifests of a snapshot are that was built of the documents which declarations of a
source name. -/
structure Snapshot.Manifested (source : Source) (root : FilePath)
    (declarations : List Wiring.Declaration) (s : Snapshot) : Prop where
  /-- Whatever has become of the files, a manifest fails just when the file of an entry cannot be
  read. -/
  error : ∀ later : Source, (∃ failure, s.manifest later = .error failure) ↔
    ∃ id document path reason, s.persisted.get? id = some document ∧ document.IsOf path ∧
      later.read path = .error reason
  /-- If it does not fail it lists the texts that still are what their ids stand for. -/
  text : ∀ (later : Source) (m : OrderedMap String), s.manifest later = .ok m → ∀ id text,
    m.get? id = some text ↔
      ∃ document path, s.persisted.get? id = some document ∧ document.IsOf path ∧
        later.read path = .ok text ∧ Digest.documentId text = id
  /-- No text is listed under an id that is not its own. -/
  own : ∀ (later : Source) (m : OrderedMap String), s.manifest later = .ok m → ∀ id text,
    m.get? id = some text → Digest.documentId text = id
  /-- While the files are as they were, every id is listed with the text that was scanned. -/
  unchanged : ∃ m, s.manifest source = .ok m ∧ m.keys = s.persisted.keys ∧
    ∀ id document, s.persisted.get? id = some document →
      ∃ path text, KnownBy source root declarations id path text ∧ document = entryOf path text ∧
        m.get? id = some text

/-- A URI that leads to a path is read as the file at this path. -/
theorem readUri_of_toPath {later : Source} {uri : String} {path : FilePath}
    (h : FileUri.toPath uri = .ok path) :
    readUri later uri =
      match later.read path with
      | .ok text => .ok (path, text)
      | .error reason => .error (.unreadable path reason) := by
  cases hread : later.read path <;> simp [readUri, h, hread]

/-- Reading a URI fails just when the file cannot be read. -/
theorem readUri_eq_error_iff {later : Source} {uri : String} {path : FilePath}
    (h : FileUri.toPath uri = .ok path) :
    (∃ failure, readUri later uri = .error failure) ↔
      ∃ reason, later.read path = .error reason := by
  rw [readUri_of_toPath h]
  cases later.read path with
  | ok text => simp
  | error reason => simp

/-- A text is current if it stands in the file and has the id. -/
theorem currentText?_eq_some_iff {later : Source} {id text : String} {document : PersistedDocument}
    {path : FilePath} (h : FileUri.toPath document.uri = .ok path) :
    Snapshot.currentText? later id document = some text ↔
      later.read path = .ok text ∧ Digest.documentId text = id := by
  rw [Snapshot.currentText?, readUri_of_toPath h]
  -- the text counts only if it still has the id that it was kept under
  cases later.read path with
  | error reason => simp
  | ok other =>
    by_cases hid : Digest.documentId other = id
    · simp only [hid, beq_self_eq_true, if_true, Option.some.injEq, Except.ok.injEq]
      constructor
      · rintro rfl
        exact ⟨rfl, hid⟩
      · exact And.left
    · simp only [beq_iff_eq, hid, if_false, Except.ok.injEq]
      constructor
      · intro hnone
        cases hnone
      · rintro ⟨rfl, heq⟩
        exact absurd heq hid

namespace ClientDocuments

variable {source : Source} {root : FilePath} {declarations : List Wiring.Declaration}
  {s : Snapshot}

/-- The entry of a document was made from the file at its path. -/
theorem KnownBy.isOf {id text : String} {path : FilePath}
    (h : KnownBy source root declarations id path text) : (entryOf path text).IsOf path :=
  ⟨h.declared.isNormal, rfl⟩

section LeadsBack

variable
  (hknown : ∀ id document, s.persisted.get? id = some document →
    ∃ path text, KnownBy source root declarations id path text ∧ document = entryOf path text)
  (hback : s.LeadsBack)

include hknown hback

/-- Once URIs lead back, a manifest fails just when the file of an entry cannot be read. -/
theorem exists_error_iff_of_leadsBack (later : Source) :
    (∃ failure, s.manifest later = .error failure) ↔
      ∃ id document path reason, s.persisted.get? id = some document ∧ document.IsOf path ∧
        later.read path = .error reason := by
  rw [Snapshot.manifest_eq_error_iff]
  constructor
  · rintro ⟨id, document, failure, hdocument, hread⟩
    -- every entry is that of a file, and its URI leads back there
    obtain ⟨path, scanned, hdoc, rfl⟩ := hknown id document hdocument
    have hpath := hback id _ path hdocument hdoc.isOf
    obtain ⟨reason, hreason⟩ := (readUri_eq_error_iff hpath).1 ⟨failure, hread⟩
    exact ⟨id, _, path, reason, hdocument, hdoc.isOf, hreason⟩
  · rintro ⟨id, document, path, reason, hdocument, hof, hreason⟩
    have hpath := hback id document path hdocument hof
    obtain ⟨failure, hread⟩ : ∃ failure, readUri later document.uri = .error failure :=
      (readUri_eq_error_iff hpath).2 ⟨reason, hreason⟩
    exact ⟨id, document, failure, hdocument, hread⟩

/-- Once URIs lead back, a manifest lists the text that stands in the file of an entry, if its id
stands for this text. -/
theorem get?_manifest_iff_of_leadsBack {later : Source} {m : OrderedMap String}
    (hm : s.manifest later = .ok m) (id text : String) :
    m.get? id = some text ↔
      ∃ document path, s.persisted.get? id = some document ∧ document.IsOf path ∧
        later.read path = .ok text ∧ Digest.documentId text = id := by
  rw [Snapshot.get?_manifest hm, Option.bind_eq_some_iff]
  constructor
  · rintro ⟨document, hdocument, hcurrent⟩
    obtain ⟨path, scanned, hdoc, rfl⟩ := hknown id document hdocument
    -- the URI leads back to the file that the document was scanned from
    have hpath := hback id _ path hdocument hdoc.isOf
    exact ⟨_, path, hdocument, hdoc.isOf, (currentText?_eq_some_iff hpath).1 hcurrent⟩
  · rintro ⟨document, path, hdocument, hof, hread⟩
    have hpath := hback id document path hdocument hof
    exact ⟨document, hdocument, (currentText?_eq_some_iff hpath).2 hread⟩

/-- While nothing has changed every file can be read, and the manifest does not fail. -/
theorem exists_manifest_of_unchanged : ∃ m, s.manifest source = .ok m := by
  cases hm : s.manifest source with
  | ok m => exact ⟨m, rfl⟩
  | error failure =>
    obtain ⟨id, document, path, reason, hdocument, hof, hreason⟩ :=
      (exists_error_iff_of_leadsBack hknown hback source).1 ⟨failure, hm⟩
    obtain ⟨path', scanned, hdoc, rfl⟩ := hknown id document hdocument
    obtain rfl : path = path' := FileUri.ofPath_inj hof.1 hdoc.isOf.1 hof.2.symm
    cases hreason.symm.trans hdoc.scanned.read

/-- While nothing has changed every text is the one that was scanned. -/
theorem listed_of_unchanged {m : OrderedMap String} (hm : s.manifest source = .ok m) {id : String}
    {document : PersistedDocument} (hdocument : s.persisted.get? id = some document) :
    ∃ path text, KnownBy source root declarations id path text ∧ document = entryOf path text ∧
      m.get? id = some text := by
  obtain ⟨path, scanned, hdoc, rfl⟩ := hknown id document hdocument
  have hlisted : m.get? id = some scanned :=
    (get?_manifest_iff_of_leadsBack hknown hback hm id scanned).2
      ⟨_, path, hdocument, hdoc.isOf, hdoc.scanned.read, hdoc.id⟩
  exact ⟨path, scanned, hdoc, rfl, hlisted⟩

/-- A snapshot whose persisted documents are known by their ids has the manifests that it should
have, if their URIs lead back. -/
theorem manifested_of_leadsBack : s.Manifested source root declarations where
  error := exists_error_iff_of_leadsBack hknown hback
  text := fun later m hm => get?_manifest_iff_of_leadsBack hknown hback hm
  own := by
    intro later m hm id text hget
    obtain ⟨-, -, -, -, -, hid⟩ := (get?_manifest_iff_of_leadsBack hknown hback hm id text).1 hget
    exact hid
  unchanged := by
    obtain ⟨m, hm⟩ := exists_manifest_of_unchanged hknown hback
    refine ⟨m, hm, ?_, fun id document => listed_of_unchanged hknown hback hm⟩
    apply OrderedMap.keys_eq_of_isSome
    intro id
    -- an id is listed exactly if a document was kept under it
    cases hdocument : s.persisted.get? id with
    | none =>
      rw [Snapshot.get?_manifest hm, hdocument]
      rfl
    | some document =>
      obtain ⟨path, scanned, -, -, hget⟩ := listed_of_unchanged hknown hback hm hdocument
      rw [hget]
      rfl

end LeadsBack

end ClientDocuments

namespace Scan

variable {source : Source} {options : ScanOptions} {entry : FilePath} {cancelAfter : Option Nat}
  {s : Snapshot}

/-- What a scan keeps under an id is the entry of a document that is known by it. -/
theorem exists_knownBy_of_ok (hok : (run source options entry cancelAfter).result = .ok s)
    {id : String} {document : PersistedDocument} (h : s.persisted.get? id = some document) :
    ∃ path text, KnownBy source entry.normalize.directory (declared source options s.files) id
      path text ∧ document = entryOf path text := by
  obtain ⟨before, -, hpersisted, hs⟩ := exists_documents hok
  rw [hs] at h
  obtain ⟨path, text, hknown, hdocument, -⟩ :=
    ClientDocuments.of_get?_persisted before hpersisted h
  exact ⟨path, text, hknown, hdocument⟩

/-- Whatever becomes of the files after a scan that succeeds, the manifest fails just when the file
of an entry cannot be read, and otherwise lists just the texts that still are what their ids stand
for, if the URIs of the entries lead back to their paths. -/
theorem manifested_of_run_ok (source : Source) (options : ScanOptions) (entry : FilePath)
    (cancelAfter : Option Nat) (s : Snapshot)
    (hok : (run source options entry cancelAfter).result = .ok s) (hback : s.LeadsBack) :
    s.Manifested source entry.normalize.directory (declared source options s.files) :=
  ClientDocuments.manifested_of_leadsBack (fun _ _ => exists_knownBy_of_ok hok) hback

end Scan

/-- The documents of twins lie where URIs lead back to. -/
theorem Source.leadsBack_twins {s : Snapshot}
    (hok : (Scan.run Source.twins .default ⟨"/p/index.graphql"⟩ none).result = .ok s) :
    s.LeadsBack := by
  have hlisting : ∀ entry ∈ Source.twins.listing, entry.1.isAbsolute = true ∧
      FilePath.Step.up ∉ entry.1.route.steps ∧ FileUri.endsInDrive entry.1 = false := by
    decide +kernel
  intro id document path hdocument hof
  obtain ⟨path', text, hknown, rfl⟩ := Scan.exists_knownBy_of_ok hok hdocument
  -- the paths are those of the listing, where no path ends in a drive letter
  obtain rfl : path = path' := FileUri.ofPath_inj hof.1 hknown.isOf.1 hof.2.symm
  obtain ⟨entry, hentry, heq⟩ := Source.mem_listing_of_has hknown.scanned.has
  obtain ⟨habsolute, hup, hdrive⟩ := hlisting entry hentry
  obtain rfl : entry.1 = path := heq.trans hof.1
  rw [hof.2, FileUri.toPath_ofPath hof.1 habsolute hup, hdrive]
  rfl

/-- The scan of the twins has the manifests that it should have. -/
theorem Scan.manifested_of_run_ok_twins :
    ∃ s, (run Source.twins .default ⟨"/p/index.graphql"⟩ none).result = .ok s ∧ s.LeadsBack ∧
      s.Manifested Source.twins (FilePath.normalize ⟨"/p/index.graphql"⟩).directory
        (declared Source.twins .default s.files) := by
  have h : Source.twins.has (FilePath.normalize ⟨"/p/index.graphql"⟩) = true := by decide +kernel
  obtain ⟨s, hok⟩ : ∃ s, (run Source.twins .default ⟨"/p/index.graphql"⟩ none).result = .ok s :=
    exists_ok rfl h rfl
  have hback := Source.leadsBack_twins hok
  exact ⟨s, hok, hback, manifested_of_run_ok _ _ _ none s hok hback⟩

end SchemaAtlas
