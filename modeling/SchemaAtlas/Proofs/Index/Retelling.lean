import SchemaAtlas.Proofs.Index.Totals
import SchemaAtlas.Proofs.OrderedMap

/-!
# What an index retells of its records

A snapshot is filled by any records in any order, and each part of it can be read off them: lists
keep what was recorded, keys of some maps keep what was recorded last, and a name keeps every place
once, with what was said of it first. The counts of a snapshot follow.

A builder may find out by a list of its own which places a name has, in place of looking at the
snapshot. It builds the same.

* `Builder.mirrors_call`           the places of a builder are those of its snapshot, after every
  call
* `Builder.snapshot_afterCalls`    a builder with such a list builds what the records build
* `Snapshot.Retells`               all parts of a snapshot, read off records
* `Builder.retells_afterCalls`     a builder retells its calls
-/

namespace SchemaAtlas

/-! ## Places that are given twice -/

/-- Whether a symbol is declared at the place of an earlier one. -/
def SymbolLocation.repeats (symbol earlier : SymbolLocation) : Bool :=
  earlier.location.same symbol.location

namespace Snapshot

/-- Adding locations one by one drops those that repeat an earlier one. -/
theorem foldl_addLocation (symbols : List SymbolLocation) :
    symbols.foldl addLocation [] = symbols.eraseDupsBy SymbolLocation.repeats := by
  -- what is known is what the library keeps, in the opposite order
  have hloop (known : List SymbolLocation) : symbols.foldl addLocation known =
      List.eraseDupsBy.loop SymbolLocation.repeats symbols known.reverse := by
    induction symbols generalizing known with
    | nil => simp [List.eraseDupsBy.loop]
    | cons symbol symbols ih =>
      have hany : known.reverse.any symbol.repeats =
          known.any (·.location.same symbol.location) := List.any_reverse
      rw [List.foldl_cons, ih, addLocation, List.eraseDupsBy.loop, hany]
      cases known.any (·.location.same symbol.location)
      · simp
      · rfl
  exact hloop []

/-- The places of a name are those given for it, each once. -/
theorem get?_definitions_eq_eraseDupsBy (records : List Record) (name : String) :
    (ofRecords records).definitions.get? name =
      listing?
        ((records.filterMap (Record.symbolOf? name)).eraseDupsBy SymbolLocation.repeats) := by
  rw [get?_definitions_ofRecords, foldl_addLocation]

end Snapshot

/-! ## A builder with a list of places -/

/-- A snapshot that is being filled, and beside it every place that a name was given. -/
structure Builder where
  snapshot : Snapshot
  seen : List (String × Location)

namespace Builder

/-- A builder before the first call. -/
def empty : Builder := ⟨.empty, []⟩

/-- Whether a name is among those that were given a place. -/
def isGiven (places : List (String × Location)) (name : String) (location : Location) : Bool :=
  places.any fun place => place.1 == name && place.2.same location

/-- A builder after one call: a name is not given a place again. -/
def call (b : Builder) : Record → Builder
  | .definition name symbol =>
    if isGiven b.seen name symbol.location then b
    else
      { snapshot :=
          { b.snapshot with definitions := b.snapshot.definitions.append name [symbol] }
        seen := b.seen ++ [(name, symbol.location)] }
  | r => { b with snapshot := b.snapshot.add r }

/-- A builder after all calls. -/
def afterCalls (records : List Record) : Builder :=
  records.foldl call empty

/-- The places that a builder has noted for a name are those of the name in the snapshot. -/
def Mirrors (b : Builder) : Prop :=
  ∀ name location, isGiven b.seen name location =
    ((b.snapshot.definitions.get? name).getD []).any (·.location.same location)

variable {b : Builder}

/-- With one place more, it is that one which is given, or one of those before. -/
theorem isGiven_append (places : List (String × Location)) (other name : String)
    (earlier location : Location) :
    isGiven (places ++ [(other, earlier)]) name location =
      (isGiven places name location || (other == name && earlier.same location)) := by
  simp [isGiven, List.any_append]

/-- Other calls than those for a definition leave all definitions as they are. -/
theorem definitions_add {r : Record} (s : Snapshot)
    (h : ∀ name symbol, r ≠ .definition name symbol) :
    (s.add r).definitions = s.definitions := by
  cases r with
  | definition name symbol => exact absurd rfl (h name symbol)
  | typeDirectives type directives => simp only [Snapshot.add]; split <;> rfl
  | _ => rfl

/-- A call changes the snapshot as the record of the call does. -/
theorem snapshot_call (h : b.Mirrors) (r : Record) : (b.call r).snapshot = b.snapshot.add r := by
  cases r with
  | definition name symbol =>
    have hseen := h name symbol.location
    simp only [call, Snapshot.add]
    split
    · next hmet =>
      -- the name has the place: its list stays, and so does the map
      have hkept : b.snapshot.definitions.alter name
          (fun known => Snapshot.addLocation (known.getD []) symbol) = b.snapshot.definitions := by
        apply OrderedMap.ext_get?
        intro other
        rw [OrderedMap.get?_alter]
        split
        · next heq =>
          subst heq
          cases hget : b.snapshot.definitions.get? other with
          | none => simp [hget, hmet] at hseen
          | some known =>
            rw [hget, Option.getD_some, hmet] at hseen
            rw [Option.getD_some, Snapshot.addLocation, if_pos hseen.symm]
        · rfl
      rw [hkept]
    · next hnew =>
      have hgrown : b.snapshot.definitions.append name [symbol] =
          b.snapshot.definitions.alter name
            (fun known => Snapshot.addLocation (known.getD []) symbol) := by
        apply OrderedMap.ext_get?
        intro other
        rw [OrderedMap.append, OrderedMap.get?_alter, OrderedMap.get?_alter, Snapshot.addLocation,
          ← hseen, if_neg hnew]
      rw [hgrown]
  | _ => rfl

/-- After every call, the places of a builder are those of its snapshot. -/
theorem mirrors_call (h : b.Mirrors) (r : Record) : (b.call r).Mirrors := by
  intro name location
  cases r with
  | definition other symbol =>
    simp only [call]
    split
    · exact h name location
    · -- one place more on both sides, under the name of the call
      rw [isGiven_append, OrderedMap.append, OrderedMap.get?_alter, h name location]
      by_cases heq : name = other
      · subst heq
        simp
      · simp [heq, Ne.symm heq]
  | _ =>
    simp only [call]
    rw [definitions_add _ (by simp)]
    exact h name location

/-- The places seen mirror the definitions whatever is called. -/
theorem mirrors_foldl (h : b.Mirrors) (records : List Record) :
    (records.foldl call b).Mirrors ∧
      (records.foldl call b).snapshot = b.snapshot.addAll records := by
  induction records generalizing b with
  | nil => exact ⟨h, rfl⟩
  | cons r records ih =>
    obtain ⟨hmirrors, hsnapshot⟩ := ih (mirrors_call h r)
    refine ⟨hmirrors, ?_⟩
    rw [List.foldl_cons, hsnapshot, snapshot_call h]
    rfl

/-- A builder builds what the records of its calls build. -/
theorem snapshot_afterCalls (records : List Record) :
    (afterCalls records).snapshot = Snapshot.ofRecords records :=
  (mirrors_foldl (b := empty) (fun _ _ => rfl) records).2

end Builder

/-! ## Keys -/

namespace Record

/-- The entry that a record sets. -/
def entry? : Record → Option FilePath
  | .entry path => some path
  | _ => none

/-- The name that a record declares a symbol under. -/
def definedName? : Record → Option String
  | .definition name _ => some name
  | _ => none

/-- The document that a record sets the operations of. -/
def uri? : Record → Option String
  | .operations uri _ => some uri
  | _ => none

/-- The id that a record sets a document under. -/
def persistedId? : Record → Option String
  | .persisted document => some document.id
  | _ => none

end Record

/-- A list is kept under a key unless it is empty. -/
theorem isSome_listing?_iff {α : Type} {as : List α} : (listing? as).isSome = true ↔ as ≠ [] := by
  unfold listing?
  split
  · next h => simp [h]
  · next h => simp [h]

/-- Some records of a key are picked out just if the key is among those of the records. -/
theorem filterMap_ne_nil_iff {α : Type} {pick? : Record → Option α} {key? : Record → Option String}
    {key : String} (h : ∀ r, (pick? r).isSome = true ↔ key? r = some key)
    (records : List Record) : records.filterMap pick? ≠ [] ↔ key ∈ records.filterMap key? := by
  rw [Ne, List.filterMap_eq_nil_iff, List.mem_filterMap]
  constructor
  · intro hnot
    -- if no record had the key, nothing would be picked
    by_contra hnone
    apply hnot
    intro r hr
    cases hpick : pick? r with
    | none => rfl
    | some a => exact absurd ⟨r, hr, (h r).1 (by rw [hpick]; rfl)⟩ hnone
  · rintro ⟨r, hr, hkey⟩ hall
    have hsome := (h r).2 hkey
    rw [hall r hr] at hsome
    cases hsome

namespace Snapshot

variable (records : List Record)

/-- The names that have definitions are those that were defined. -/
theorem isSome_definitions_iff (name : String) :
    ((ofRecords records).definitions.get? name).isSome = true ↔
      name ∈ records.filterMap Record.definedName? := by
  have hkey (r : Record) :
      (r.symbolOf? name).isSome = true ↔ r.definedName? = some name := by
    cases r <;> simp [Record.symbolOf?, Record.definedName?]
  have hnil (symbols : List SymbolLocation) :
      symbols.eraseDupsBy SymbolLocation.repeats ≠ [] ↔ symbols ≠ [] := by
    cases symbols with
    | nil => simp
    | cons symbol symbols => simp [List.eraseDupsBy_cons]
  rw [get?_definitions_eq_eraseDupsBy, isSome_listing?_iff, hnil, filterMap_ne_nil_iff hkey]

theorem isSome_fields_iff (type : String) :
    ((ofRecords records).fields.get? type).isSome = true ↔
      type ∈ (records.filterMap Record.typedField?).map Prod.fst := by
  have hkey (r : Record) :
      (r.fieldOf? type).isSome = true ↔ r.typedField?.map Prod.fst = some type := by
    cases r <;> simp [Record.fieldOf?, Record.typedField?]
  rw [get?_fields_ofRecords, isSome_listing?_iff, filterMap_ne_nil_iff hkey, List.map_filterMap]

/-- The operations of a document are those that were set last. -/
theorem get?_operations_ofRecords (uri : String) :
    (ofRecords records).operations.get? uri =
      (records.filterMap (Record.operationsOf? uri)).getLast? :=
  (get?_operations_addAll empty records uri).trans Option.or_none

theorem isSome_operations_iff (uri : String) :
    ((ofRecords records).operations.get? uri).isSome = true ↔
      uri ∈ records.filterMap Record.uri? := by
  have hkey (r : Record) : (r.operationsOf? uri).isSome = true ↔ r.uri? = some uri := by
    cases r <;> simp [Record.operationsOf?, Record.uri?]
  rw [get?_operations_ofRecords, List.getLast?_isSome, filterMap_ne_nil_iff hkey]

/-- The document under an id is the one that was set last. -/
theorem get?_persisted_ofRecords (id : String) :
    (ofRecords records).persisted.get? id =
      (records.filterMap (Record.persistedOf? id)).getLast? :=
  (get?_persisted_addAll empty records id).trans Option.or_none

theorem isSome_persisted_iff (id : String) :
    ((ofRecords records).persisted.get? id).isSome = true ↔
      id ∈ records.filterMap Record.persistedId? := by
  have hkey (r : Record) : (r.persistedOf? id).isSome = true ↔ r.persistedId? = some id := by
    cases r <;> simp [Record.persistedOf?, Record.persistedId?]
  rw [get?_persisted_ofRecords, List.getLast?_isSome, filterMap_ne_nil_iff hkey]

/-- The entry of a snapshot is the one that was set last. -/
theorem entry_ofRecords :
    (ofRecords records).entry = (records.filterMap Record.entry?).getLast? := by
  rw [ofRecords, view_addAll entry Record.entry? fun _ path => some path, foldl_last]
  · exact Option.or_none
  · intro s r
    cases r <;> simp [add, Record.entry?]
    split <;> rfl

/-! ## The snapshot and its counts -/

/-- The operations that records leave for a document: those that were set last. -/
def lastOperations (uri : String) : List OperationEntry :=
  (records.filterMap (Record.operationsOf? uri)).getLast?.getD []

/-- How much records leave in an index. Every file, field, edge and diagnostic counts as often as
it was recorded; names, types and ids count once; a document counts with what was set last. -/
def counts : Stats :=
  { files := (records.filterMap Record.file?).length
    symbols := (records.filterMap Record.definedName?).dedup.length
    types := ((records.filterMap Record.typedField?).map Prod.fst).dedup.length
    fields := (records.filterMap Record.typedField?).length
    relationships := (records.filterMap Record.edge?).length
    operations := ((records.filterMap Record.uri?).dedup.flatMap (lastOperations records)).length
    persisted := (records.filterMap Record.persistedId?).dedup.length
    diagnostics := (records.filterMap Record.diagnostic?).length }

/-- A snapshot holds the operations that were set last for each document. -/
theorem perm_operations_ofRecords :
    (ofRecords records).operations.values.flatten.Perm
      ((records.filterMap Record.uri?).dedup.flatMap (lastOperations records)) := by
  have hvalues := OrderedMap.perm_values (isSome_operations_iff records)
  -- under each document there is a value, so no document is left out
  have hlast : (records.filterMap Record.uri?).dedup.filterMap
      (ofRecords records).operations.get? =
        (records.filterMap Record.uri?).dedup.map (lastOperations records) := by
    rw [← List.filterMap_eq_map]
    apply List.filterMap_congr
    intro uri huri
    obtain ⟨operations, hget⟩ := Option.isSome_iff_exists.1
      ((isSome_operations_iff records uri).2 (List.mem_dedup.1 huri))
    have hset := (get?_operations_ofRecords records uri).symm.trans hget
    simp only [Function.comp_apply, lastOperations, hget, hset, Option.getD_some]
  rw [hlast] at hvalues
  exact hvalues.flatten

/-- The statistics count what the calls gave. -/
theorem stats_ofRecords : (ofRecords records).stats = counts records := by
  have hfields := (perm_fields_ofRecords records).length_eq
  rw [List.length_map] at hfields
  simp only [stats, counts, Stats.mk.injEq]
  exact ⟨congrArg List.length (files_ofRecords records),
    OrderedMap.size_eq_length_dedup (isSome_definitions_iff records),
    OrderedMap.size_eq_length_dedup (isSome_fields_iff records), hfields,
    congrArg List.length (relationships_ofRecords records),
    (perm_operations_ofRecords records).length_eq,
    OrderedMap.size_eq_length_dedup (isSome_persisted_iff records),
    congrArg List.length (diagnostics_ofRecords records)⟩

/-- All parts of a snapshot, read off the records that it was filled with. Where nothing was
recorded under a key, a map has no such key. -/
structure Retells (s : Snapshot) (records : List Record) : Prop where
  entry : s.entry = (records.filterMap Record.entry?).getLast?
  files : s.files = records.filterMap Record.file?
  /-- Of several records of one name and one place, the first one is kept. -/
  definitions : ∀ name, s.definitions.get? name = listing?
    ((records.filterMap (Record.symbolOf? name)).eraseDupsBy SymbolLocation.repeats)
  rootOperation : ∀ rootType field, s.rootOperation? rootType field =
    (records.filterMap (Record.rootOperationOf? rootType field)).getLast?
  rootTypes : ∀ rootType, (s.rootOperations.get? rootType).isSome =
    records.any (Record.setsFieldOf rootType)
  fields : ∀ type, s.fields.get? type = listing? (records.filterMap (Record.fieldOf? type))
  typeDirectives : ∀ type, s.typeDirectives.get? type =
    listing? (records.filterMap (Record.directivesOf? type)).flatten
  relationships : s.relationships = records.filterMap Record.edge?
  operations : ∀ uri, s.operations.get? uri =
    (records.filterMap (Record.operationsOf? uri)).getLast?
  persisted : ∀ id, s.persisted.get? id = (records.filterMap (Record.persistedOf? id)).getLast?
  diagnostics : s.diagnostics = records.filterMap Record.diagnostic?
  stats : s.stats = counts records

theorem retells_ofRecords : (ofRecords records).Retells records where
  entry := entry_ofRecords records
  files := files_ofRecords records
  definitions := get?_definitions_eq_eraseDupsBy records
  rootOperation := rootOperation?_ofRecords records
  rootTypes := isSome_rootOperations_ofRecords records
  fields := get?_fields_ofRecords records
  typeDirectives := get?_typeDirectives_ofRecords records
  relationships := relationships_ofRecords records
  operations := get?_operations_ofRecords records
  persisted := get?_persisted_ofRecords records
  diagnostics := diagnostics_ofRecords records
  stats := stats_ofRecords records

/-- A place counts once under a name, with the container that was given first, and again under
another name. -/
example :
    let symbol (container : Option String) : SymbolLocation :=
      ⟨⟨⟨"/w/a.graphql"⟩, 0, 13⟩, container⟩
    let s := ofRecords [.definition "id" (symbol (some "Query")), .definition "id" (symbol none),
      .definition "ID" (symbol none)]
    s.definitions.get? "id" = some [symbol (some "Query")] ∧
      s.definitions.get? "ID" = some [symbol none] := by
  decide +kernel

end Snapshot

/-- Whatever calls a builder gets, in whatever order: it builds what the records of the calls
build, and that retells the calls. -/
theorem Builder.retells_afterCalls (calls : List Record) :
    (afterCalls calls).snapshot = Snapshot.ofRecords calls ∧
      (Snapshot.ofRecords calls).Retells calls :=
  ⟨snapshot_afterCalls calls, Snapshot.retells_ofRecords calls⟩

end SchemaAtlas
