import Mathlib.Logic.Basic
import SchemaAtlas.Project.ClientDocuments
import SchemaAtlas.Proofs.FileUri.Encoding
import SchemaAtlas.Proofs.Index.History
import SchemaAtlas.Proofs.Lists

/-!
# Every declared document is accounted for

Declarations name documents by many spellings, and a document may be declared any number of times.
It is scanned once: either its operations are kept under its URI, or one diagnostic says why not.

* `collect_congr`     only the set of the declarations counts
* `recordsOf_cases`   the two things that scanning a document can come to
* `accounts_addAll`   what all documents add to a snapshot
-/

namespace SchemaAtlas.ClientDocuments

variable {source : Source} {root path : FilePath} {declarations : List Wiring.Declaration}

/-! ## The documents that declarations name -/

/-- Whether one of the declarations names a document. -/
def Declared (root : FilePath) (declarations : List Wiring.Declaration) (path : FilePath) : Prop :=
  ∃ d ∈ declarations, resolve root d = path

/-- Whether one of the declarations of a document says that it is persisted. -/
def persists (root : FilePath) (declarations : List Wiring.Declaration) (path : FilePath) : Bool :=
  declarations.any fun d => resolve root d == path && d.persist

/-- The path of a declared document is normal. -/
theorem Declared.isNormal (h : Declared root declarations path) : path.IsNormal := by
  obtain ⟨d, -, rfl⟩ := h
  exact FilePath.isNormal_normalize _

/-- A document is persisted if one of its declarations says so. -/
theorem persists_eq_true_iff :
    persists root declarations path = true ↔
      ∃ d ∈ declarations, resolve root d = path ∧ d.persist = true := by
  simp [persists]

/-- The paths of the documents, in the order in which they are scanned. -/
def paths (root : FilePath) (declarations : List Wiring.Declaration) : List FilePath :=
  (declarations.map (resolve root)).eraseDups.mergeSort FilePath.le

/-- The documents are collected in the order of their paths. -/
theorem collect_eq (root : FilePath) (declarations : List Wiring.Declaration) :
    collect root declarations =
      (paths root declarations).map fun path => (path, persists root declarations path) := rfl

/-- The paths of the documents are those that are declared. -/
theorem mem_paths : path ∈ paths root declarations ↔ Declared root declarations path := by
  simp [paths, Declared]

/-- Every document has one path. -/
theorem nodup_paths (root : FilePath) (declarations : List Wiring.Declaration) :
    (paths root declarations).Nodup :=
  (List.mergeSort_perm _ _).nodup_iff.2 (List.nodup_eraseDups _)

/-- Documents are scanned in the order of their paths. -/
theorem pairwise_le_paths (root : FilePath) (declarations : List Wiring.Declaration) :
    (paths root declarations).Pairwise fun p q => p.le q = true :=
  @List.pairwise_mergeSort _ FilePath.le (fun _ _ _ => FilePath.le_trans)
    (fun p q => Bool.or_eq_true_iff.2 (FilePath.le_total p q)) _

/-- Only the set of the declarations counts: neither their order nor their number. -/
theorem collect_congr {declarations' : List Wiring.Declaration}
    (h : ∀ d, d ∈ declarations' ↔ d ∈ declarations) :
    collect root declarations' = collect root declarations := by
  have hdeclared : ∀ path, Declared root declarations' path ↔ Declared root declarations path := by
    intro path
    simp [Declared, h]
  -- sorted lists of the same paths, without repeats, are one list
  have hpaths : paths root declarations' = paths root declarations := by
    refine List.Perm.eq_of_pairwise ?_ (pairwise_le_paths root declarations')
      (pairwise_le_paths root declarations) ?_
    · intro p q hp hq hpq hqp
      exact FilePath.eq_of_le_of_le (mem_paths.1 hp).isNormal (mem_paths.1 hq).isNormal hpq hqp
    · rw [List.perm_ext_iff_of_nodup (nodup_paths _ _) (nodup_paths _ _)]
      intro path
      rw [mem_paths, mem_paths, hdeclared]
  have hpersists : persists root declarations' = persists root declarations := by
    funext path
    rw [Bool.eq_iff_iff, persists_eq_true_iff, persists_eq_true_iff]
    simp [h]
  rw [collect_eq, collect_eq, hpaths, hpersists]

/-! ## One document -/

/-- Whether a document exists, can be read, and has no syntax errors. -/
structure Scanned (source : Source) (path : FilePath) (text : String) : Prop where
  has : source.has path = true
  read : source.read path = .ok text
  isSound : (Document.ofText text).isSound = true

/-- Why a document is not scanned: it does not exist, or it cannot be read, or it has syntax
errors. -/
inductive Skipped (source : Source) (path : FilePath) : DiagnosticKind → Prop
  | missing (hmissing : source.has path = false) : Skipped source path .notFound
  | unreadable {reason : String} (hhas : source.has path = true)
      (hread : source.read path = .error reason) : Skipped source path .io
  | broken {text : String} (hhas : source.has path = true) (hread : source.read path = .ok text)
      (hfault : (Document.ofText text).isSound = false) : Skipped source path .parse

/-- The operations of the text of a document, under its URI. -/
def operationsOf (path : FilePath) (persist : Bool) (text : String) : List OperationEntry :=
  (Document.ofText text).operationEntries (FileUri.ofPath path) persist

/-- What a document adds that is persisted and has any operations. -/
def persistedRecords (path : FilePath) (persist : Bool) (text : String) : List Record :=
  if persist && !(operationsOf path persist text).isEmpty then
    [.persisted
      { id := Digest.documentId text
        uri := FileUri.ofPath path
        operations := operationsOf path persist text }]
  else []

/-- A persisted record is written down only for a document that is persisted and has operations. -/
theorem of_mem_persistedRecords {persist : Bool} {text : String} {r : Record}
    (h : r ∈ persistedRecords path persist text) :
    persist = true ∧ operationsOf path persist text ≠ [] ∧
      r = .persisted
        { id := Digest.documentId text
          uri := FileUri.ofPath path
          operations := operationsOf path persist text } := by
  unfold persistedRecords at h
  split at h
  · next hpersist =>
    obtain ⟨hpersist, hany⟩ : persist = true ∧ operationsOf path persist text ≠ [] := by
      simpa using hpersist
    exact ⟨hpersist, hany, List.mem_singleton.1 h⟩
  · cases h

/-- A document that is scanned adds its operations, and its entry under the id if it is persisted.
-/
theorem recordsOf_of_scanned {text : String} (h : Scanned source path text) (persist : Bool) :
    recordsOf source path persist =
      persistedRecords path persist text ++
        [.operations (FileUri.ofPath path) (operationsOf path persist text)] := by
  have hfault : (Document.ofText text).fault = none := by
    simpa [Document.isSound] using h.isSound
  rw [recordsOf, if_pos h.has, h.read]
  simp only [recordsOfText, hfault]
  rfl

/-- A document that is skipped adds one diagnostic, which says why. -/
theorem recordsOf_of_skipped {kind : DiagnosticKind} (h : Skipped source path kind)
    (persist : Bool) :
    ∃ message, recordsOf source path persist = [.diagnostic { path, kind, message }] := by
  cases h with
  | missing hmissing => exact ⟨_, by rw [recordsOf, if_neg (by simp [hmissing])]⟩
  | unreadable hhas hread => exact ⟨_, by rw [recordsOf, if_pos hhas, hread]⟩
  | @broken text hhas hread hfault =>
    obtain ⟨offset, hfault⟩ := Option.isSome_iff_exists.1 (by simpa [Document.isSound] using hfault)
    exact ⟨syntaxErrorMessage text offset, by
      rw [recordsOf, if_pos hhas, hread]
      simp only [recordsOfText, hfault]⟩

/-- Every document is scanned or skipped. -/
theorem scanned_or_skipped (source : Source) (path : FilePath) :
    (∃ text, Scanned source path text) ∨ ∃ kind, Skipped source path kind := by
  cases hhas : source.has path with
  | false => exact .inr ⟨.notFound, .missing hhas⟩
  | true =>
    cases hread : source.read path with
    | error reason => exact .inr ⟨.io, .unreadable hhas hread⟩
    | ok text =>
      cases hsound : (Document.ofText text).isSound with
      | false => exact .inr ⟨.parse, .broken hhas hread hsound⟩
      | true => exact .inl ⟨text, hhas, hread, hsound⟩

/-- The records of a document have its URI or its path. -/
theorem of_mem_recordsOf {persist : Bool} {r : Record} (h : r ∈ recordsOf source path persist) :
    (∃ text, Scanned source path text ∧
      (r ∈ persistedRecords path persist text ∨
        r = .operations (FileUri.ofPath path) (operationsOf path persist text))) ∨
    ∃ kind message, Skipped source path kind ∧ r = .diagnostic { path, kind, message } := by
  rcases scanned_or_skipped source path with ⟨text, hscanned⟩ | ⟨kind, hskipped⟩
  · rw [recordsOf_of_scanned hscanned, List.mem_append, List.mem_singleton] at h
    exact .inl ⟨text, hscanned, h⟩
  · obtain ⟨message, hrecords⟩ := recordsOf_of_skipped hskipped persist
    rw [hrecords, List.mem_singleton] at h
    exact .inr ⟨kind, message, hskipped, h⟩

/-! ## All documents -/

/-- What the documents add that declarations name. -/
def recordsOfDeclared (source : Source) (root : FilePath)
    (declarations : List Wiring.Declaration) : List Record :=
  (collect root declarations).flatMap fun (path, persist) => recordsOf source path persist

/-- The records of the documents are those of the declarations of the assembled text. -/
theorem records_eq (source : Source) (root : FilePath) (assembled : String) :
    records source root assembled =
      recordsOfDeclared source root (Wiring.declarationsOfText assembled) := rfl

/-- The documents add their records one path after the other. -/
theorem recordsOfDeclared_eq (source : Source) (root : FilePath)
    (declarations : List Wiring.Declaration) :
    recordsOfDeclared source root declarations =
      (paths root declarations).flatMap fun path =>
        recordsOf source path (persists root declarations path) := by
  rw [recordsOfDeclared, collect_eq, List.flatMap_map]

/-- If only one item of a list has anything, that is all there is. -/
theorem flatMap_of_unique {α β : Type} {as : List α} (has : as.Nodup) {a : α} (ha : a ∈ as)
    {f : α → List β} (h : ∀ b ∈ as, b ≠ a → f b = []) : as.flatMap f = f a := by
  -- the others stand in front of the item or behind it
  obtain ⟨front, behind, rfl⟩ := List.append_of_mem ha
  obtain ⟨-, hbehind, hfront⟩ := List.nodup_append.1 has
  have hothers : ∀ bs : List α, (∀ b ∈ bs, b ∈ front ++ a :: behind ∧ b ≠ a) →
      bs.flatMap f = [] := fun bs hbs =>
    List.flatMap_eq_nil_iff.2 fun b hb => h b (hbs b hb).1 (hbs b hb).2
  rw [List.flatMap_append, List.flatMap_cons, hothers front, hothers behind, List.nil_append,
    List.append_nil]
  · intro b hb
    refine ⟨by simp [hb], ?_⟩
    rintro rfl
    exact (List.nodup_cons.1 hbehind).1 hb
  · intro b hb
    exact ⟨by simp [hb], hfront b hb a (by simp)⟩

/-- Records that only one document can add are those that it adds. -/
theorem filterMap_recordsOfDeclared {α : Type} {pick? : Record → Option α}
    (hpath : Declared root declarations path)
    (hpick : ∀ other, Declared root declarations other → other ≠ path → ∀ persist,
      ∀ r ∈ recordsOf source other persist, pick? r = none) :
    (recordsOfDeclared source root declarations).filterMap pick? =
      (recordsOf source path (persists root declarations path)).filterMap pick? := by
  rw [recordsOfDeclared_eq, List.filterMap_flatMap]
  refine flatMap_of_unique (nodup_paths root declarations) (mem_paths.2 hpath) ?_
  intro other hother hne
  exact List.filterMap_eq_nil_iff.2 fun r hr => hpick other (mem_paths.1 hother) hne _ r hr

/-- What comes of a document that is scanned: its operations are found under its URI, and no
diagnostic names it. -/
def IsKept (source : Source) (path : FilePath) (persist : Bool) (after : Snapshot)
    (added : List Diagnostic) : Prop :=
  ∃ text, Scanned source path text ∧
    after.operations.get? (FileUri.ofPath path) = some (operationsOf path persist text) ∧
    ∀ diagnostic ∈ added, diagnostic.path ≠ path

/-- What comes of a document that is skipped: nothing is found under its URI, and one diagnostic
names it and says why. -/
def IsReported (source : Source) (path : FilePath) (after : Snapshot) (added : List Diagnostic) :
    Prop :=
  after.operations.get? (FileUri.ofPath path) = none ∧
    ∃ diagnostic, Skipped source path diagnostic.kind ∧
      added.filter (·.path = path) = [diagnostic]

/-- No document is both kept and reported. -/
theorem IsKept.not_isReported {persist : Bool} {after : Snapshot} {added : List Diagnostic}
    (h : IsKept source path persist after added) : ¬IsReported source path after added := by
  intro hreported
  obtain ⟨_, -, hsome, -⟩ := h
  rw [hreported.1] at hsome
  cases hsome

/-- What becomes of a snapshot when the documents are added that declarations name: `added` are
the diagnostics behind those that were there. -/
structure Accounts (source : Source) (root : FilePath) (declarations : List Wiring.Declaration)
    (before after : Snapshot) (added : List Diagnostic) : Prop where
  diagnostics : after.diagnostics = before.diagnostics ++ added
  /-- Every document is kept or reported, and not both. -/
  document : ∀ path, Declared root declarations path →
    Xor (IsKept source path (persists root declarations path) after added)
      (IsReported source path after added)
  /-- Nothing is kept but what is declared. -/
  uri : ∀ uri, (after.operations.get? uri).isSome = true →
    ∃ path, Declared root declarations path ∧ uri = FileUri.ofPath path
  /-- Nothing is reported but what is declared. -/
  path : ∀ diagnostic ∈ added, Declared root declarations diagnostic.path

/-- What is kept under the URI of a document is what the document adds. -/
theorem get?_operations_of_declared (s : Snapshot) (hempty : ∀ uri, s.operations.get? uri = none)
    (hpath : Declared root declarations path) :
    (s.addAll (recordsOfDeclared source root declarations)).operations.get?
        (FileUri.ofPath path) =
      ((recordsOf source path (persists root declarations path)).filterMap
        (Record.operationsOf? (FileUri.ofPath path))).getLast? := by
  rw [Snapshot.get?_operations_addAll, hempty, Option.or_none, filterMap_recordsOfDeclared hpath]
  intro other hother hne persist r hr
  -- another document has another URI
  have huri : FileUri.ofPath other ≠ FileUri.ofPath path := fun heq =>
    hne (FileUri.ofPath_inj hother.isNormal hpath.isNormal heq)
  rcases of_mem_recordsOf hr with ⟨text, -, hr | rfl⟩ | ⟨kind, message, -, rfl⟩
  · obtain ⟨-, -, rfl⟩ := of_mem_persistedRecords hr
    rfl
  · exact if_neg huri
  · rfl

/-- The diagnostics that name a document are those that the document adds. -/
theorem filter_diagnostics_of_declared (source : Source)
    (hpath : Declared root declarations path) :
    ((recordsOfDeclared source root declarations).filterMap Record.diagnostic?).filter
        (·.path = path) =
      ((recordsOf source path (persists root declarations path)).filterMap
        Record.diagnostic?).filter (·.path = path) := by
  rw [List.filter_filterMap, List.filter_filterMap, filterMap_recordsOfDeclared hpath]
  intro other hother hne persist r hr
  rcases of_mem_recordsOf hr with ⟨text, -, hr | rfl⟩ | ⟨kind, message, -, rfl⟩
  · obtain ⟨-, -, rfl⟩ := of_mem_persistedRecords hr
    rfl
  · rfl
  · simp [Record.diagnostic?, Option.filter, hne]

/-- Whatever records the documents add, each of them comes from one of the documents. -/
theorem of_mem_recordsOfDeclared {r : Record}
    (h : r ∈ recordsOfDeclared source root declarations) :
    ∃ path, Declared root declarations path ∧
      r ∈ recordsOf source path (persists root declarations path) := by
  rw [recordsOfDeclared_eq] at h
  obtain ⟨path, hpath, hr⟩ := List.mem_flatMap.1 h
  exact ⟨path, mem_paths.1 hpath, hr⟩

/-- What is kept under some URI was read from a document with this URI. -/
theorem of_get?_operations (s : Snapshot) (hempty : ∀ uri, s.operations.get? uri = none)
    {uri : String} {operations : List OperationEntry}
    (h : (s.addAll (recordsOfDeclared source root declarations)).operations.get? uri =
      some operations) :
    ∃ path text, Declared root declarations path ∧ Scanned source path text ∧
      uri = FileUri.ofPath path ∧
      operations = operationsOf path (persists root declarations path) text := by
  rw [Snapshot.get?_operations_addAll, hempty, Option.or_none] at h
  obtain ⟨r, hr, hpick⟩ := List.mem_filterMap.1 (List.mem_of_getLast? h)
  obtain rfl := Record.operationsOf?_eq_some_iff.1 hpick
  obtain ⟨path, hpath, hr⟩ := of_mem_recordsOfDeclared hr
  -- of what a document adds, only the record of its operations is kept under a URI
  rcases of_mem_recordsOf hr with ⟨text, hscanned, hr | hr⟩ | ⟨kind, message, -, hr⟩
  · obtain ⟨-, -, hr⟩ := of_mem_persistedRecords hr
    cases hr
  · obtain ⟨rfl, rfl⟩ := Record.operations.inj hr
    exact ⟨path, text, hpath, hscanned, rfl, rfl⟩
  · cases hr

/-- A document that is scanned is kept. -/
theorem isKept_of_scanned {text : String} (s : Snapshot)
    (hempty : ∀ uri, s.operations.get? uri = none) (hpath : Declared root declarations path)
    (hscanned : Scanned source path text) :
    IsKept source path (persists root declarations path)
      (s.addAll (recordsOfDeclared source root declarations))
      ((recordsOfDeclared source root declarations).filterMap Record.diagnostic?) := by
  -- the entry under the id is neither an operation under the URI nor a diagnostic
  have hnone (persist : Bool) (uri : String) :
      (persistedRecords path persist text).filterMap (Record.operationsOf? uri) = [] ∧
        (persistedRecords path persist text).filterMap Record.diagnostic? = [] := by
    constructor <;> refine List.filterMap_eq_nil_iff.2 fun r hr => ?_ <;>
      obtain ⟨-, -, rfl⟩ := of_mem_persistedRecords hr <;> rfl
  refine ⟨text, hscanned, ?_, ?_⟩
  · rw [get?_operations_of_declared s hempty hpath, recordsOf_of_scanned hscanned,
      List.filterMap_append, (hnone _ _).1]
    simp [Record.operationsOf?]
  · have hfilter := filter_diagnostics_of_declared source hpath
    rw [recordsOf_of_scanned hscanned, List.filterMap_append, (hnone _ "").2] at hfilter
    have hnil : ((recordsOfDeclared source root declarations).filterMap
        Record.diagnostic?).filter (·.path = path) = [] := by
      rw [hfilter]
      rfl
    intro diagnostic hdiagnostic heq
    have := List.filter_eq_nil_iff.1 hnil diagnostic hdiagnostic
    exact this (by simpa using heq)

/-- A document that is skipped is reported. -/
theorem isReported_of_skipped {kind : DiagnosticKind} (s : Snapshot)
    (hempty : ∀ uri, s.operations.get? uri = none) (hpath : Declared root declarations path)
    (hskipped : Skipped source path kind) :
    IsReported source path (s.addAll (recordsOfDeclared source root declarations))
      ((recordsOfDeclared source root declarations).filterMap Record.diagnostic?) := by
  obtain ⟨message, hrecords⟩ :=
    recordsOf_of_skipped hskipped (persists root declarations path)
  refine ⟨?_, { path, kind, message }, hskipped, ?_⟩
  · rw [get?_operations_of_declared s hempty hpath, hrecords]
    rfl
  · rw [filter_diagnostics_of_declared source hpath, hrecords]
    simp [Record.diagnostic?]

/-- Scanning the documents that a text declares accounts for every one of them, and it depends on
nothing but the set of the declarations. -/
theorem accounts_addAll (source : Source) (root : FilePath) (assembled : String) (s : Snapshot)
    (hempty : s.operations = .empty) :
    (∃ added, Accounts source root (Wiring.declarationsOfText assembled) s
      (s.addAll (records source root assembled)) added) ∧
    ∀ declarations, (∀ d, d ∈ declarations ↔ d ∈ Wiring.declarationsOfText assembled) →
      s.addAll (recordsOfDeclared source root declarations) =
        s.addAll (records source root assembled) := by
  have hempty : ∀ uri, s.operations.get? uri = none := fun uri => by
    rw [hempty, OrderedMap.get?_empty]
  constructor
  · rw [records_eq]
    generalize Wiring.declarationsOfText assembled = declarations
    refine ⟨(recordsOfDeclared source root declarations).filterMap Record.diagnostic?, ?_⟩
    exact
      { diagnostics := Snapshot.diagnostics_addAll s _
        document := by
          intro path hpath
          -- a document is kept if it is scanned and reported if it is skipped
          rcases scanned_or_skipped source path with ⟨text, hscanned⟩ | ⟨kind, hskipped⟩
          · have hkept := isKept_of_scanned s hempty hpath hscanned
            exact .inl ⟨hkept, hkept.not_isReported⟩
          · have hreported := isReported_of_skipped s hempty hpath hskipped
            exact .inr ⟨hreported, fun hkept => hkept.not_isReported hreported⟩
        uri := by
          intro uri huri
          obtain ⟨operations, hoperations⟩ := Option.isSome_iff_exists.1 huri
          obtain ⟨path, text, hpath, -, huri, -⟩ := of_get?_operations s hempty hoperations
          exact ⟨path, hpath, huri⟩
        path := by
          intro diagnostic hdiagnostic
          obtain ⟨r, hr, hdiagnostic⟩ := List.mem_filterMap.1 hdiagnostic
          obtain ⟨path, hpath, hr⟩ := of_mem_recordsOfDeclared hr
          rcases of_mem_recordsOf hr with ⟨text, -, hr | rfl⟩ | ⟨kind, message, -, rfl⟩
          · obtain ⟨-, -, rfl⟩ := of_mem_persistedRecords hr
            cases hdiagnostic
          · cases hdiagnostic
          · obtain rfl := Option.some.inj hdiagnostic
            exact hpath }
  · intro declarations h
    rw [records_eq, recordsOfDeclared, recordsOfDeclared, collect_congr h]

/-- Files of which one is declared by two spellings, one has syntax errors, one cannot be read,
and one is not there. -/
def shelf : Source :=
  { listing :=
      [(⟨"/p/ops/q.graphql"⟩, .ok "query Q \x7b a \x7d fragment F on T \x7b b \x7d"),
        (⟨"/p/broken.graphql"⟩, .ok "query \x7b"),
        (⟨"/p/locked.graphql"⟩, .error "permission denied")]
    absent := MemoryFiles.notLoaded }

/-- What declares them. -/
def shelfText : String :=
  "schema @sdl(executables: [\x7b document: \"ops/q.graphql\", persist: true \x7d
    \x7b document: \"/p/ops/./q.graphql\" \x7d \x7b document: \"broken.graphql\" \x7d
    \x7b document: \"locked.graphql\" \x7d \x7b document: \"ops/../gone.graphql\" \x7d])"

/-- Of the five declarations of the shelf two name the same document, and each of the four documents
is accounted for. -/
theorem accounts_addAll_shelf :
    Wiring.declarationsOfText shelfText =
        [⟨"ops/q.graphql", true⟩, ⟨"/p/ops/./q.graphql", false⟩, ⟨"broken.graphql", false⟩,
          ⟨"locked.graphql", false⟩, ⟨"ops/../gone.graphql", false⟩] ∧
      Snapshot.empty.operations = .empty ∧
      ∃ added, Accounts shelf ⟨"/p"⟩ (Wiring.declarationsOfText shelfText) .empty
        (Snapshot.empty.addAll (records shelf ⟨"/p"⟩ shelfText)) added :=
  ⟨by decide +kernel, rfl, (accounts_addAll shelf ⟨"/p"⟩ shelfText .empty rfl).1⟩

end SchemaAtlas.ClientDocuments
