import SchemaAtlas.Proofs.ClientDocuments.Accounts

/-!
# The documents that servers know by an id

An index keeps operations by the URI of their document, and documents by an id that depends on
their text alone. Several documents may have one id; the last one in path order is kept under it.
The two maps agree: what is kept under an id is what is kept under the URI of that document, and
an operation is marked as persisted just when the id of its document is known.

* `of_get?_persisted`   what stands under an id
* `agree_addAll`        what all documents add to a snapshot without documents
-/

namespace SchemaAtlas.ClientDocuments

variable {source : Source} {root path : FilePath} {declarations : List Wiring.Declaration}
  {id text : String}

/-- Whether a document is known by an id: it is declared and scanned, one of its declarations says
that it is persisted, it has an operation or a fragment, and the id is that of its text. -/
structure KnownBy (source : Source) (root : FilePath) (declarations : List Wiring.Declaration)
    (id : String) (path : FilePath) (text : String) : Prop where
  declared : Declared root declarations path
  scanned : Scanned source path text
  persists : ∃ d ∈ declarations, resolve root d = path ∧ d.persist = true
  executables : (Document.ofText text).executables ≠ []
  id : Digest.documentId text = id

/-- The entry of a document that is known by the id of its text. -/
def entryOf (path : FilePath) (text : String) : PersistedDocument :=
  { id := Digest.documentId text
    uri := FileUri.ofPath path
    operations := operationsOf path true text }

/-- A document has no operations if and only if nothing in it can be executed. -/
theorem operationsOf_eq_nil_iff {persist : Bool} :
    operationsOf path persist text = [] ↔ (Document.ofText text).executables = [] := by
  rw [operationsOf, Document.operationEntries, List.map_eq_nil_iff]

/-- The operations of a document are marked as the document is. -/
theorem persisted_of_mem_operationsOf {persist : Bool} {operation : OperationEntry}
    (h : operation ∈ operationsOf path persist text) : operation.persisted = persist := by
  obtain ⟨executable, -, rfl⟩ := List.mem_map.1 h
  rfl

/-! ## What is known by an id -/

/-- What a document adds under an id is its entry, if it is known by this id. -/
theorem mem_filterMap_persistedOf? {document : PersistedDocument}
    (hpath : Declared root declarations path) :
    document ∈ (recordsOf source path (persists root declarations path)).filterMap
        (Record.persistedOf? id) ↔
      ∃ text, KnownBy source root declarations id path text ∧ document = entryOf path text := by
  rw [List.mem_filterMap]
  constructor
  · rintro ⟨r, hr, hpick⟩
    obtain ⟨rfl, hid⟩ := Record.persistedOf?_eq_some_iff.1 hpick
    -- neither operations nor a diagnostic are kept under an id
    rcases of_mem_recordsOf hr with ⟨text, hscanned, hr | hr⟩ | ⟨kind, message, -, hr⟩
    · obtain ⟨hpersists, hany, hr⟩ := of_mem_persistedRecords hr
      obtain rfl := Record.persisted.inj hr
      rw [hpersists] at hany ⊢
      exact ⟨text, ⟨hpath, hscanned, persists_eq_true_iff.1 hpersists,
        mt operationsOf_eq_nil_iff.2 hany, hid⟩, rfl⟩
    · cases hr
    · cases hr
  · rintro ⟨text, hknown, rfl⟩
    have hpersists := persists_eq_true_iff.2 hknown.persists
    have hany : operationsOf path true text ≠ [] :=
      mt operationsOf_eq_nil_iff.1 hknown.executables
    refine ⟨.persisted (entryOf path text), ?_, if_pos hknown.id⟩
    rw [recordsOf_of_scanned hknown.scanned, hpersists, persistedRecords,
      if_pos (by simpa using hany)]
    exact List.mem_append_left _ (List.mem_singleton.2 rfl)

/-- The last of what the elements of a list have comes from the last element that has any. -/
theorem exists_of_getLast?_flatMap {α β : Type} {R : α → α → Prop} {as : List α}
    (has : as.Pairwise R) {f : α → List β} {b : β} (h : (as.flatMap f).getLast? = some b) :
    ∃ a ∈ as, b ∈ f a ∧ ∀ other ∈ as, f other ≠ [] → other = a ∨ R other a := by
  induction as with
  | nil => cases h
  | cons a as ih =>
    obtain ⟨ha, has⟩ := List.pairwise_cons.1 has
    rw [List.flatMap_cons, List.getLast?_append] at h
    -- the last one comes from behind the first element, or from the first element itself
    cases hlast : (as.flatMap f).getLast? with
    | some b' =>
      obtain rfl : b' = b := by simpa [hlast] using h
      obtain ⟨a', ha', hb, hmax⟩ := ih has hlast
      refine ⟨a', List.mem_cons_of_mem _ ha', hb, fun other hother hne => ?_⟩
      rcases List.mem_cons.1 hother with rfl | hother
      · exact .inr (ha a' ha')
      · exact hmax other hother hne
    | none =>
      -- nothing comes of the elements behind the first
      have hnil : ∀ other ∈ as, f other = [] :=
        List.flatMap_eq_nil_iff.1 (List.getLast?_eq_none_iff.1 hlast)
      rw [hlast, Option.none_or] at h
      refine ⟨a, by simp, List.mem_of_getLast? h, fun other hother hne => ?_⟩
      rcases List.mem_cons.1 hother with rfl | hother
      · exact .inl rfl
      · exact absurd (hnil other hother) hne

/-- Under an id stands the last entry that any of the documents adds under it. -/
theorem get?_persisted_recordsOfDeclared (s : Snapshot)
    (hempty : ∀ id, s.persisted.get? id = none) :
    (s.addAll (recordsOfDeclared source root declarations)).persisted.get? id =
      ((paths root declarations).flatMap fun path =>
        (recordsOf source path (persists root declarations path)).filterMap
          (Record.persistedOf? id)).getLast? := by
  rw [Snapshot.get?_persisted_addAll, hempty, Option.or_none, recordsOfDeclared_eq,
    List.filterMap_flatMap]

/-- What is found under an id is the entry of the last document in path order that is known by
it. -/
theorem of_get?_persisted (s : Snapshot) (hempty : ∀ id, s.persisted.get? id = none)
    {document : PersistedDocument}
    (h : (s.addAll (recordsOfDeclared source root declarations)).persisted.get? id =
      some document) :
    ∃ path text, KnownBy source root declarations id path text ∧ document = entryOf path text ∧
      ∀ other text', KnownBy source root declarations id other text' → other.le path = true := by
  rw [get?_persisted_recordsOfDeclared s hempty] at h
  obtain ⟨path, hpath, hdocument, hmax⟩ :=
    exists_of_getLast?_flatMap (pairwise_le_paths root declarations) h
  obtain ⟨text, hknown, rfl⟩ := (mem_filterMap_persistedOf? (mem_paths.1 hpath)).1 hdocument
  refine ⟨path, text, hknown, rfl, fun other text' hother => ?_⟩
  -- the last document of those with the same id is kept, and the paths stand in ascending order
  have hadds : entryOf other text' ∈ (recordsOf source other
      (persists root declarations other)).filterMap (Record.persistedOf? id) :=
    (mem_filterMap_persistedOf? hother.declared).2 ⟨text', hother, rfl⟩
  rcases hmax other (mem_paths.2 hother.declared) (List.ne_nil_of_mem hadds) with rfl | hle
  · exact FilePath.le_refl other
  · exact hle

/-- An id is known if a document is known by it. -/
theorem isSome_persisted_of_knownBy (s : Snapshot) (hempty : ∀ id, s.persisted.get? id = none)
    (h : KnownBy source root declarations id path text) :
    ((s.addAll (recordsOfDeclared source root declarations)).persisted.get? id).isSome = true := by
  rw [get?_persisted_recordsOfDeclared s hempty, Option.isSome_iff_ne_none]
  intro hnone
  rw [List.getLast?_eq_none_iff, List.flatMap_eq_nil_iff] at hnone
  have hadds := (mem_filterMap_persistedOf? h.declared).2 ⟨text, h, rfl⟩
  rw [hnone path (mem_paths.2 h.declared)] at hadds
  cases hadds

/-! ## Operations and ids -/

/-- Whether what a snapshot says of operations and ids agrees with the declarations. -/
structure Agree (source : Source) (root : FilePath) (declarations : List Wiring.Declaration)
    (s : Snapshot) : Prop where
  /-- The ids that are known are those of the documents that are known by them. -/
  known : ∀ id, (s.persisted.get? id).isSome = true ↔
    ∃ path text, KnownBy source root declarations id path text
  /-- Under an id stands the last document in path order that is known by it, with the operations
  that are kept under its URI, all of them marked. -/
  entry : ∀ id document, s.persisted.get? id = some document →
    document.id = id ∧
    (∃ path text, KnownBy source root declarations id path text ∧
      (∀ other text', KnownBy source root declarations id other text' → other.le path = true) ∧
      document.uri = FileUri.ofPath path) ∧
    s.operations.get? document.uri = some document.operations ∧
    document.operations ≠ [] ∧
    ∀ operation ∈ document.operations, operation.persisted = true
  /-- A marked operation belongs to a document whose id is known. -/
  marked : ∀ uri operations, s.operations.get? uri = some operations →
    ∀ operation ∈ operations, operation.persisted = true →
      ∃ path text, KnownBy source root declarations (Digest.documentId text) path text ∧
        uri = FileUri.ofPath path ∧
        (s.persisted.get? (Digest.documentId text)).isSome = true

/-- Documents that are added to a snapshot without documents make its maps agree. -/
theorem agree_addAll (source : Source) (root : FilePath)
    (declarations : List Wiring.Declaration) (s : Snapshot)
    (hoperations : ∀ uri, s.operations.get? uri = none)
    (hpersisted : ∀ id, s.persisted.get? id = none) :
    Agree source root declarations
      (s.addAll (recordsOfDeclared source root declarations)) where
  known := by
    intro id
    constructor
    · intro hsome
      obtain ⟨document, hdocument⟩ := Option.isSome_iff_exists.1 hsome
      obtain ⟨path, text, hknown, -, -⟩ := of_get?_persisted s hpersisted hdocument
      exact ⟨path, text, hknown⟩
    · rintro ⟨path, text, hknown⟩
      exact isSome_persisted_of_knownBy s hpersisted hknown
  entry := by
    intro id document hdocument
    obtain ⟨path, text, hknown, rfl, hmax⟩ := of_get?_persisted s hpersisted hdocument
    refine ⟨hknown.id, ⟨path, text, hknown, hmax, rfl⟩, ?_, ?_, ?_⟩
    -- the operations kept for the document are those of the text that its id was made from
    · obtain ⟨text', hscanned, hkept, -⟩ :=
        isKept_of_scanned s hoperations hknown.declared hknown.scanned
      obtain rfl : text = text' := Except.ok.inj (hknown.scanned.read.symm.trans hscanned.read)
      rw [persists_eq_true_iff.2 hknown.persists] at hkept
      exact hkept
    · exact mt operationsOf_eq_nil_iff.1 hknown.executables
    · exact fun operation hoperation => persisted_of_mem_operationsOf hoperation
  marked := by
    intro uri operations hkept operation hoperation hmarked
    obtain ⟨path, text, hpath, hscanned, rfl, rfl⟩ := of_get?_operations s hoperations hkept
    -- an operation is marked only in a document that persists, so its document is known by an id
    have hpersists : persists root declarations path = true :=
      (persisted_of_mem_operationsOf hoperation).symm.trans hmarked
    have hknown : KnownBy source root declarations (Digest.documentId text) path text :=
      { declared := hpath
        scanned := hscanned
        persists := persists_eq_true_iff.1 hpersists
        executables := mt operationsOf_eq_nil_iff.2 (List.ne_nil_of_mem hoperation)
        id := rfl }
    exact ⟨path, text, hknown, rfl, isSome_persisted_of_knownBy s hpersisted hknown⟩

end SchemaAtlas.ClientDocuments
