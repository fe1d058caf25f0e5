import SchemaAtlas.Index.Builder

/-!
# An index as its history of records

Every part of a snapshot shows the records of one kind and no others, in their order. Each part
below has a function that picks its records out, and a lemma that says what the part holds after
any list of records.

* `view_addAll`   the one induction over records
* `files_ofRecords`, `relationships_ofRecords`   plain lists
* `get?_definitions_ofRecords`, `get?_fields_ofRecords`, `get?_typeDirectives_ofRecords`   lists
  under a key, where a key without a list does not exist
* `rootOperation?_ofRecords`   the last record of a field wins
* `get?_operations_addAll`, `get?_persisted_addAll`, `diagnostics_addAll`   what is added to a
  snapshot that holds something already
-/

namespace SchemaAtlas

/-! ## Picking records out -/

namespace Record

/-- The path of a record that a file was taken up. -/
def file? : Record → Option FilePath
  | .file path => some path
  | _ => none

/-- The location that a record adds to the symbol `name`. -/
def symbolOf? (name : String) : Record → Option SymbolLocation
  | .definition other symbol => if other = name then some symbol else none
  | _ => none

/-- The field that a record adds to the type `type`. -/
def fieldOf? (type : String) : Record → Option FieldEntry
  | .field other added => if other = type then some added else none
  | _ => none

/-- The directives that a record adds to the type `type`, if it adds any. -/
def directivesOf? (type : String) : Record → Option (List DirectiveUse)
  | .typeDirectives other directives =>
    if other = type ∧ directives ≠ [] then some directives else none
  | _ => none

/-- The edge that a record adds. -/
def edge? : Record → Option Relationship
  | .relationship edge => some edge
  | _ => none

/-- What a record sets the field `name` of the root type `rootType` to. -/
def rootOperationOf? (rootType name : String) : Record → Option RootOperation
  | .rootOperation other operation =>
    if operation.rootType = rootType ∧ other = name then some operation else none
  | _ => none

/-- Whether a record sets a field of the root type `rootType`. -/
def setsFieldOf (rootType : String) : Record → Bool
  | .rootOperation _ operation => operation.rootType = rootType
  | _ => false

/-- The operations that a record sets for the document `uri`. -/
def operationsOf? (uri : String) : Record → Option (List OperationEntry)
  | .operations other added => if other = uri then some added else none
  | _ => none

/-- The document that a record sets under the id `id`. -/
def persistedOf? (id : String) : Record → Option PersistedDocument
  | .persisted added => if added.id = id then some added else none
  | _ => none

/-- The diagnostic that a record adds. -/
def diagnostic? : Record → Option Diagnostic
  | .diagnostic added => some added
  | _ => none

/-- Whether a record describes the fields of a type. -/
def isModel : Record → Bool
  | .rootOperation .. | .field .. | .typeDirectives .. | .relationship .. => true
  | _ => false

/-- Whether a record is one of those that schema files add to the index. -/
def isSchema : Record → Bool
  | .definition .. | .rootOperation .. | .field .. | .typeDirectives .. | .relationship .. => true
  | _ => false

/-- A record gives operations under a URI if it is the record of just those. -/
theorem operationsOf?_eq_some_iff {uri : String} {operations : List OperationEntry} {r : Record} :
    r.operationsOf? uri = some operations ↔ r = .operations uri operations := by
  cases r with
  | operations other added =>
    by_cases h : other = uri <;> simp [operationsOf?, h]
  | _ => simp [operationsOf?]

/-- A record gives a persisted document under an id if it is the record of that document. -/
theorem persistedOf?_eq_some_iff {id : String} {document : PersistedDocument} {r : Record} :
    r.persistedOf? id = some document ↔ r = .persisted document ∧ document.id = id := by
  cases r with
  | persisted added =>
    by_cases h : added.id = id
    · simp only [persistedOf?, if_pos h, Option.some.injEq, Record.persisted.injEq]
      constructor
      · rintro rfl
        exact ⟨rfl, h⟩
      · exact And.left
    · simp only [persistedOf?, if_neg h, reduceCtorEq, Record.persisted.injEq, false_iff]
      rintro ⟨rfl, hid⟩
      exact h hid
  | _ => simp [persistedOf?]

/-- What belongs to the model of a schema belongs to the schema. -/
theorem isSchema_of_isModel {r : Record} (h : r.isModel = true) : r.isSchema = true := by
  cases r <;> first | rfl | cases h

end Record

/-- A list that is kept under a key: nothing is kept for the empty list. -/
def listing? {α : Type} (as : List α) : Option (List α) :=
  if as = [] then none else some as

theorem getD_listing? {α : Type} (as : List α) : (listing? as).getD [] = as := by
  unfold listing?
  split
  · next h => simp [h]
  · rfl

namespace Snapshot

/-- A part of a snapshot that only the records of one kind change is a fold over these records. -/
theorem view_addAll {α β : Type} (view : Snapshot → α) (pick? : Record → Option β)
    (grow : α → β → α)
    (hadd : ∀ s r, view (s.add r) = (pick? r).elim (view s) (grow (view s)))
    (s : Snapshot) (records : List Record) :
    view (s.addAll records) = (records.filterMap pick?).foldl grow (view s) := by
  induction records generalizing s with
  | nil => rfl
  | cons r records ih =>
    have hstep : s.addAll (r :: records) = (s.add r).addAll records := rfl
    rw [hstep, ih, hadd, List.filterMap_cons]
    cases pick? r <;> rfl

/-- More records are added to what the first ones have built. -/
theorem ofRecords_append (records more : List Record) :
    ofRecords (records ++ more) = (ofRecords records).addAll more :=
  List.foldl_append

/-! ## Plain lists -/

private theorem foldl_snoc {α : Type} (as known : List α) :
    as.foldl (fun known a => known ++ [a]) known = known ++ as := by
  rw [List.foldl_append_eq_append, ← List.flatMap_def, List.flatMap_singleton']

/-- The files of a snapshot are those that were taken up. -/
theorem files_ofRecords (records : List Record) :
    (ofRecords records).files = records.filterMap Record.file? := by
  rw [ofRecords, view_addAll files Record.file? fun known path => known ++ [path], foldl_snoc]
  · rfl
  · intro s r
    cases r <;> simp [add, Record.file?]
    split <;> rfl

/-- The edges of a snapshot are those that were added. -/
theorem relationships_ofRecords (records : List Record) :
    (ofRecords records).relationships = records.filterMap Record.edge? := by
  rw [ofRecords, view_addAll relationships Record.edge? fun known edge => known ++ [edge],
    foldl_snoc]
  · rfl
  · intro s r
    cases r <;> simp [add, Record.edge?]
    split <;> rfl

/-! ## Lists under a key -/

/-- A list that grows under a key, read as a whole. -/
theorem foldl_listing? {α β : Type} (grow : List α → β → List α)
    {bs : List β} (hgrow : ∀ as, ∀ b ∈ bs, grow as b ≠ []) (as : List α) :
    bs.foldl (fun known b => some (grow (known.getD []) b)) (listing? as) =
      listing? (bs.foldl grow as) := by
  induction bs generalizing as with
  | nil => rfl
  | cons b bs ih =>
    have hsome : some (grow as b) = listing? (grow as b) := by
      rw [listing?, if_neg (hgrow as b (by simp))]
    rw [List.foldl_cons, List.foldl_cons, getD_listing?, hsome,
      ih fun as b hb => hgrow as b (List.mem_cons_of_mem _ hb)]

theorem addLocation_ne_nil (known : List SymbolLocation) (symbol : SymbolLocation) :
    addLocation known symbol ≠ [] := by
  unfold addLocation
  split
  · next h =>
    intro hnil
    simp [hnil] at h
  · simp

/-- The locations of a symbol are those that were added, without those that are the same place as
an earlier one. -/
theorem get?_definitions_ofRecords (records : List Record) (name : String) :
    (ofRecords records).definitions.get? name =
      listing? ((records.filterMap (Record.symbolOf? name)).foldl addLocation []) := by
  rw [ofRecords, view_addAll (·.definitions.get? name) (Record.symbolOf? name)
    fun known symbol => some (addLocation (known.getD []) symbol)]
  · exact foldl_listing? addLocation (fun known symbol _ => addLocation_ne_nil known symbol) []
  · intro s r
    cases r with
    | definition other symbol =>
      by_cases h : other = name <;> simp [add, Record.symbolOf?, OrderedMap.get?_alter, h, Ne.symm]
    | typeDirectives type directives => simp only [add, Record.symbolOf?]; split <;> rfl
    | _ => rfl

/-- The fields of a type are those that were added. -/
theorem get?_fields_ofRecords (records : List Record) (type : String) :
    (ofRecords records).fields.get? type =
      listing? (records.filterMap (Record.fieldOf? type)) := by
  rw [ofRecords, view_addAll (·.fields.get? type) (Record.fieldOf? type)
    fun known field => some (known.getD [] ++ [field])]
  · refine (foldl_listing? (fun known field => known ++ [field]) (by simp) []).trans ?_
    rw [foldl_snoc, List.nil_append]
  -- what one record does to the list of one type
  · intro s r
    cases r with
    | field other field =>
      by_cases h : other = type <;>
        simp [add, Record.fieldOf?, OrderedMap.append, OrderedMap.get?_alter, h, Ne.symm]
    | typeDirectives type directives => simp only [add, Record.fieldOf?]; split <;> rfl
    | _ => rfl

/-- The directives of a type are those that were added. -/
theorem get?_typeDirectives_ofRecords (records : List Record) (type : String) :
    (ofRecords records).typeDirectives.get? type =
      listing? (records.filterMap (Record.directivesOf? type)).flatten := by
  rw [ofRecords, view_addAll (·.typeDirectives.get? type) (Record.directivesOf? type)
    fun known directives => some (known.getD [] ++ directives)]
  -- a list that was extended is not empty, since records of no directives are passed over
  · have hgrow : ∀ known, ∀ directives ∈ records.filterMap (Record.directivesOf? type),
        known ++ directives ≠ [] := by
      intro known directives hmem
      obtain ⟨r, -, hr⟩ := List.mem_filterMap.1 hmem
      cases r <;> simp only [Record.directivesOf?, reduceCtorEq] at hr
      split at hr
      · next h =>
        obtain rfl := Option.some.inj hr
        simp [h.2]
      · cases hr
    refine (foldl_listing? (fun known directives => known ++ directives) hgrow []).trans ?_
    rw [List.foldl_append_eq_append, List.map_id', List.nil_append]
  -- what one record does to the list of one type
  · intro s r
    cases r with
    | typeDirectives other directives =>
      by_cases hnil : directives = []
      · simp [add, Record.directivesOf?, hnil]
      · by_cases h : other = type <;>
          simp [add, Record.directivesOf?, OrderedMap.append, OrderedMap.get?_alter, hnil, h,
            Ne.symm]
    | _ => rfl

/-! ## The last record of a key -/

/-- Of elements that replace each other the last one stays. -/
theorem foldl_last {α : Type} (as : List α) (known : Option α) :
    as.foldl (fun _ a => some a) known = as.getLast?.or known := by
  induction as generalizing known with
  | nil => rfl
  | cons a as ih => rw [List.foldl_cons, ih, List.getLast?_cons]; simp

/-- A field of a root type is the one that was set last. -/
theorem rootOperation?_ofRecords (records : List Record) (rootType name : String) :
    (ofRecords records).rootOperation? rootType name =
      (records.filterMap (Record.rootOperationOf? rootType name)).getLast? := by
  rw [ofRecords, view_addAll (·.rootOperation? rootType name)
    (Record.rootOperationOf? rootType name) fun _ operation => some operation, foldl_last]
  · exact Option.or_none
  -- what one record does to the operation of one name below one root type
  · intro s r
    cases r with
    | rootOperation other operation =>
      by_cases hroot : operation.rootType = rootType
      · subst hroot
        by_cases hname : other = name
        · subst hname
          simp [add, Record.rootOperationOf?, rootOperation?, OrderedMap.insert,
            OrderedMap.get?_alter]
        · simp [add, Record.rootOperationOf?, rootOperation?, OrderedMap.insert,
            OrderedMap.get?_alter, hname, Ne.symm hname]
          cases s.rootOperations.get? operation.rootType <;> simp
      · simp [add, Record.rootOperationOf?, rootOperation?, OrderedMap.get?_alter, hroot,
          Ne.symm hroot]
    | typeDirectives type directives =>
      simp only [add, Record.rootOperationOf?]
      split <;> rfl
    | _ => rfl

/-- The operations of a document are those that were set last. -/
theorem get?_operations_addAll (s : Snapshot) (records : List Record) (uri : String) :
    (s.addAll records).operations.get? uri =
      (records.filterMap (Record.operationsOf? uri)).getLast?.or (s.operations.get? uri) := by
  rw [view_addAll (·.operations.get? uri) (Record.operationsOf? uri)
    fun _ operations => some operations, foldl_last]
  intro s r
  cases r with
  | operations other operations =>
    by_cases h : other = uri <;>
      simp [add, Record.operationsOf?, OrderedMap.insert, OrderedMap.get?_alter, h, Ne.symm]
  | typeDirectives type directives => simp only [add, Record.operationsOf?]; split <;> rfl
  | _ => rfl

/-- The document under an id is the one that was set last. -/
theorem get?_persisted_addAll (s : Snapshot) (records : List Record) (id : String) :
    (s.addAll records).persisted.get? id =
      (records.filterMap (Record.persistedOf? id)).getLast?.or (s.persisted.get? id) := by
  rw [view_addAll (·.persisted.get? id) (Record.persistedOf? id)
    fun _ document => some document, foldl_last]
  intro s r
  cases r with
  | persisted document =>
    by_cases h : document.id = id <;>
      simp [add, Record.persistedOf?, OrderedMap.insert, OrderedMap.get?_alter, h, Ne.symm]
  | typeDirectives type directives => simp only [add, Record.persistedOf?]; split <;> rfl
  | _ => rfl

/-- Diagnostics are added at the end. -/
theorem diagnostics_addAll (s : Snapshot) (records : List Record) :
    (s.addAll records).diagnostics =
      s.diagnostics ++ records.filterMap Record.diagnostic? := by
  rw [view_addAll diagnostics Record.diagnostic? fun known diagnostic => known ++ [diagnostic],
    foldl_snoc]
  intro s r
  cases r <;> simp [add, Record.diagnostic?]
  split <;> rfl

/-- The diagnostics of a snapshot are those that were added. -/
theorem diagnostics_ofRecords (records : List Record) :
    (ofRecords records).diagnostics = records.filterMap Record.diagnostic? :=
  diagnostics_addAll empty records

/-! ## Root types -/

/-- A root type is there once one of its fields is set. -/
theorem isSome_rootOperations_ofRecords (records : List Record) (rootType : String) :
    ((ofRecords records).rootOperations.get? rootType).isSome =
      records.any (Record.setsFieldOf rootType) := by
  rw [ofRecords, view_addAll (fun s => (s.rootOperations.get? rootType).isSome)
    (Option.guard (Record.setsFieldOf rootType)) fun _ _ => true]
  · rw [List.filterMap_eq_filter]
    -- once there is an operation of the root type there always is one
    have hany (known : Bool) : (records.filter (Record.setsFieldOf rootType)).foldl
        (fun _ _ => true) known = (known || records.any (Record.setsFieldOf rootType)) := by
      induction records generalizing known with
      | nil => simp
      | cons r records ih =>
        cases h : Record.setsFieldOf rootType r <;> simp [h, ih]
    exact (hany _).trans (Bool.false_or _)
  · intro s r
    cases r with
    | rootOperation other operation =>
      by_cases hroot : operation.rootType = rootType <;>
        simp [add, Record.setsFieldOf, Option.guard, OrderedMap.get?_alter, hroot, Ne.symm]
    | typeDirectives type directives =>
      simp only [add, Record.setsFieldOf]
      split <;> rfl
    | _ => rfl

end Snapshot

end SchemaAtlas
