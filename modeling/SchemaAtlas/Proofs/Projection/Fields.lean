import Mathlib.Data.List.Basic
import SchemaAtlas.Proofs.Crawl.Bookkeeping
import SchemaAtlas.Proofs.Document.Readings

/-!
# The fields that a file adds

The two readings of a file, as lists over the fields that it declares for an object type: the
fields of the type, the symbols of a root type, and its operations.

* `fieldsOf_records`           the fields of an object type
* `rootOperationsOf_records`   the operations of a root type, which are its fields
* `symbolsIn_records`          the symbols of a root type, which are its fields as well
-/

namespace SchemaAtlas

/-- A field of a root type as an operation. -/
def FieldEntry.asRootOperation (entry : FieldEntry) (rootType : String) : RootOperation :=
  { rootType, returnType := entry.type, isList := entry.isList, arguments := entry.arguments
    location := entry.location }

/-- The edge that a field draws to its type. -/
def FieldEntry.relationship (entry : FieldEntry) (source : String) : Relationship :=
  { source, target := entry.type, field := entry.name, isList := entry.isList }

/-- The location of a symbol in a container. -/
def SymbolLocation.locationIn? (container : String) (symbol : SymbolLocation) : Option Location :=
  if symbol.container = some container then some symbol.location else none

/-- The location that a record adds to the symbol `name` in a container. -/
def Record.symbolIn? (name container : String) (r : Record) : Option Location :=
  (r.symbolOf? name).bind (SymbolLocation.locationIn? container)

/-- A symbol outside all containers is in none. -/
@[simp] theorem Record.symbolIn?_definition_none (name container other : String)
    (location : Location) :
    symbolIn? name container (.definition other ⟨location, none⟩) = none := by
  by_cases h : other = name <;> simp [symbolIn?, symbolOf?, SymbolLocation.locationIn?, h]

/-- A symbol in a container is found there under its name. -/
@[simp] theorem Record.symbolIn?_definition_some (name container other type : String)
    (location : Location) : symbolIn? name container (.definition other ⟨location, some type⟩) =
      if type = container ∧ other = name then some location else none := by
  by_cases h : other = name <;> simp [symbolIn?, symbolOf?, SymbolLocation.locationIn?, h]

/-- Whether a record adds a field or directives to the type `type`. -/
def Record.describes (type : String) (r : Record) : Bool :=
  (r.fieldOf? type).isSome || (r.directivesOf? type).isSome

namespace Projection

variable (file : SchemaFile)

/-- What a field adds to the fields of its type, unless its own type is incomplete. -/
def entryOf? (field : Field) : Option FieldEntry :=
  field.type.base?.map fun base =>
    { name := field.name.text, type := base, isList := field.type.isList
      arguments := typedArguments field.arguments
      directives := directiveUses field.directives, location := file.locate field.name.start }

/-- A field adds its entry, an edge unless it yields a built-in scalar, and an operation if its type
is a root type. -/
theorem modelOfField_eq (type : String) (field : Field) :
    modelOfField file type field = (entryOf? file field).toList.flatMap fun entry =>
      (if isRootType type then [.rootOperation entry.name (entry.asRootOperation type)] else []) ++
        (if isBuiltinScalar entry.type then [] else [.relationship (entry.relationship type)]) ++
        [.field type entry] := by
  unfold modelOfField entryOf?
  cases field.type.base? with
  | none => rfl
  | some base => simp [FieldEntry.asRootOperation, FieldEntry.relationship]

/-- Where edges are not picked, an operation or an entry is picked of what a field adds. -/
theorem filterMap_modelOfField {α : Type} {pick? : Record → Option α}
    (hedge : ∀ edge, pick? (.relationship edge) = none) (type : String) (field : Field) :
    (modelOfField file type field).filterMap pick? =
      (entryOf? file field).toList.flatMap fun entry =>
        (if isRootType type then
          (pick? (.rootOperation entry.name (entry.asRootOperation type))).toList else []) ++
          (pick? (.field type entry)).toList := by
  have hone (r : Record) : [r].filterMap pick? = (pick? r).toList := by
    cases h : pick? r <;> simp [h]
  rw [modelOfField_eq, List.filterMap_flatMap]
  congr 1
  funext entry
  -- an edge is not picked, whether or not there is one
  have hnone : (if isBuiltinScalar entry.type then []
      else [Record.relationship (entry.relationship type)]).filterMap pick? = [] := by
    split <;> simp [hedge]
  rw [List.filterMap_append, List.filterMap_append, hnone, List.append_nil, hone]
  split <;> simp [hone]

/-- The fields that a document declares for an object type, in text order. -/
def objectFields (document : Document) (type : String) : List Field :=
  (typeDeclarations document).flatMap fun declaration =>
    if declaration.kind = .object ∧ declaration.name.text = type then declaration.fields else []

/-- The entries of the fields that a file adds to an object type, in text order. -/
def fieldEntries (type : String) : List FieldEntry :=
  (objectFields file.document type).filterMap (entryOf? file)

/-- What is picked only of what the fields of one type add is picked of the entries of these fields,
one by one. -/
theorem filterMap_records {α : Type} {pick? : Record → Option α} {type : String}
    (select? : FieldEntry → Option α)
    (hsymbol : ∀ name symbol, pick? (.definition name symbol) = none)
    (hdirectives : ∀ other directives, pick? (.typeDirectives other directives) = none)
    (hfield : ∀ other field, (modelOfField file other field).filterMap pick? =
      if other = type then ((entryOf? file field).bind select?).toList else []) :
    (records file).filterMap pick? = (fieldEntries file type).filterMap select? := by
  have hsymbols : (symbols file).filterMap pick? = [] := by
    refine List.filterMap_eq_nil_iff.2 fun r hr => ?_
    obtain ⟨declaration, -, hr⟩ := List.mem_flatMap.1 hr
    rcases List.mem_cons.1 hr with rfl | hr
    · exact hsymbol _ _
    · obtain ⟨field, -, rfl⟩ := List.mem_map.1 hr
      exact hsymbol _ _
  rw [records, List.filterMap_append, hsymbols, List.nil_append, model, List.filterMap_flatMap,
    fieldEntries, objectFields, List.filterMap_filterMap, List.filterMap_flatMap]
  congr 1
  funext declaration
  -- only an object type of the name adds such fields
  by_cases hkind : declaration.kind = .object
  · by_cases hname : declaration.name.text = type
    · simp only [modelOfType, hkind, hname, if_true, and_self, List.filterMap_cons, hdirectives,
        List.filterMap_flatMap, hfield]
      rw [List.filterMap_eq_flatMap_toList]
    · simp [modelOfType, hkind, hname, hdirectives, hfield, List.filterMap_flatMap]
  · simp [modelOfType, hkind]

/-- The fields of an object type. -/
theorem fieldsOf_records (type : String) :
    (records file).filterMap (Record.fieldOf? type) = fieldEntries file type := by
  have hpick (other : String) (field : Field) :
      (modelOfField file other field).filterMap (Record.fieldOf? type) =
        if other = type then ((entryOf? file field).bind some).toList else [] := by
    rw [filterMap_modelOfField file (fun _ => rfl)]
    by_cases h : other = type <;> simp [Record.fieldOf?, h]
  rw [filterMap_records file some (fun _ _ => rfl) (fun _ _ => rfl) hpick, List.filterMap_some]

/-- The operations of a root type under a name are its fields of that name. -/
theorem rootOperationsOf_records (rootType name : String) :
    (records file).filterMap (Record.rootOperationOf? rootType name) =
      if isRootType rootType then
        ((fieldEntries file rootType).filter (·.name = name)).map (·.asRootOperation rootType)
      else [] := by
  -- one field adds an operation if its type and its name are those asked for
  have hpick (other : String) (field : Field) :
      (modelOfField file other field).filterMap (Record.rootOperationOf? rootType name) =
        if other = rootType then ((entryOf? file field).bind fun entry =>
          if isRootType rootType ∧ entry.name = name then some (entry.asRootOperation rootType)
          else none).toList
        else [] := by
    rw [filterMap_modelOfField file (fun _ => rfl)]
    by_cases h : other = rootType
    · subst h
      cases entryOf? file field with
      | none => simp
      | some entry =>
        cases hroot : isRootType other <;> by_cases hname : entry.name = name <;>
          simp [Record.rootOperationOf?, FieldEntry.asRootOperation, hname]
    · simp [Record.rootOperationOf?, FieldEntry.asRootOperation, h]
  rw [filterMap_records file _ (fun _ _ => rfl) (fun _ _ => rfl) hpick]
  cases isRootType rootType with
  | false => simp
  | true => simp [← List.filterMap_eq_filter, Option.guard, List.map_filterMap]

/-! ## Names and locations -/

/-- The name of a field and the location of the name. -/
def SchemaFile.placeOf (field : Field) : String × Location :=
  (field.name.text, file.locate field.name.start)

/-- The entry of a field stands where the field does. -/
theorem place_of_entryOf? {field : Field} {entry : FieldEntry}
    (h : entryOf? file field = some entry) :
    (entry.name, entry.location) = file.placeOf field := by
  obtain ⟨base, -, rfl⟩ := Option.map_eq_some_iff.1 h
  rfl

/-- The fields of an object type are located at names of fields, in their order. -/
theorem places_fieldEntries (type : String) :
    ((fieldEntries file type).map fun entry => (entry.name, entry.location)).Sublist
      ((objectFields file.document type).map file.placeOf) := by
  unfold fieldEntries
  induction objectFields file.document type with
  | nil => exact .slnil
  | cons field fields ih =>
    cases h : entryOf? file field with
    | none => simpa [h] using ih.cons _
    | some entry => simpa [h, place_of_entryOf? file h] using ih

/-- Fields with complete types are all there. -/
theorem places_fieldEntries_of_isTyped {type : String}
    (h : ∀ field ∈ objectFields file.document type, field.IsTyped) :
    (fieldEntries file type).map (fun entry => (entry.name, entry.location)) =
      (objectFields file.document type).map file.placeOf := by
  refine (places_fieldEntries file type).eq_of_length ?_
  have hall : ∀ field ∈ objectFields file.document type, (entryOf? file field).isSome = true :=
    fun field hfield => by simpa [entryOf?, Field.IsTyped] using h field hfield
  simp [fieldEntries, List.length_filterMap_eq_countP, List.countP_eq_length.2 hall]

/-! ## Symbols in containers -/

/-- The symbols of a name in a container that a type declares are its fields of that name, if the
container is the type and a root type. -/
theorem symbolsIn_symbolsOf (declaration : TypeDeclaration) (name container : String) :
    (symbolsOf file declaration).filterMap (Record.symbolIn? name container) =
      if isRootType container then
        (((if declaration.kind = .object ∧ declaration.name.text = container then
          declaration.fields else []).map file.placeOf).filter (·.1 = name)).map (·.2)
      else [] := by
  rw [symbolsOf, List.filterMap_cons_none (Record.symbolIn?_definition_none ..), List.filterMap_map]
  simp only [Function.comp_def, Record.symbolIn?_definition_some]
  -- the fields of a type are symbols in that type only, and only in a root type
  by_cases hname : declaration.name.text = container
  · subst hname
    cases isRootType declaration.name.text with
    | false => simp
    | true =>
      simp only [true_and, and_true, if_true]
      rw [List.filter_map, List.map_map, ← List.filterMap_eq_filter, List.map_filterMap]
      congr 1
      funext field
      by_cases h : field.name.text = name <;> simp [SchemaFile.placeOf, Option.guard, h]
  · simp [hname]

/-- The model of a file declares no symbols, and its types declare them one by one. -/
theorem symbolsOf_records (name : String) :
    (records file).filterMap (Record.symbolOf? name) =
      (typeDeclarations file.document).flatMap fun declaration =>
        (symbolsOf file declaration).filterMap (Record.symbolOf? name) := by
  have hmodel : (model file).filterMap (Record.symbolOf? name) = [] := by
    refine List.filterMap_eq_nil_iff.2 fun r hr => ?_
    have := isModel_of_mem_model hr
    cases r <;> first | rfl | cases this
  rw [records, List.filterMap_append, hmodel, List.append_nil, symbols, List.filterMap_flatMap]

/-- The symbols of a name in a root type are its fields of that name; other types are no
containers. -/
theorem symbolsIn_records (name container : String) :
    ((records file).filterMap (Record.symbolOf? name)).filterMap
        (SymbolLocation.locationIn? container) =
      if isRootType container then
        (((objectFields file.document container).map file.placeOf).filter (·.1 = name)).map (·.2)
      else [] := by
  -- the two filters, by name and by container, in one
  have hpick (declaration : TypeDeclaration) :
      ((symbolsOf file declaration).filterMap (Record.symbolOf? name)).filterMap
          (SymbolLocation.locationIn? container) =
        (symbolsOf file declaration).filterMap (Record.symbolIn? name container) := by
    rw [List.filterMap_filterMap]
    rfl
  simp only [symbolsOf_records, List.filterMap_flatMap, hpick, symbolsIn_symbolsOf, objectFields]
  cases isRootType container with
  | false => simp
  | true => simp only [if_true, List.map_flatMap, List.filter_flatMap]

/-! ## Types that are described -/

/-- A type describes no type but itself. -/
theorem name_of_describes {declaration : TypeDeclaration} {r : Record}
    (hr : r ∈ modelOfType file declaration) {type : String} (h : r.describes type = true) :
    declaration.name.text = type := by
  -- a record of the model describes the type that it was made for
  unfold modelOfType at hr
  split at hr
  · rcases List.mem_cons.1 hr with rfl | hr
    · by_contra hne
      simp [Record.describes, Record.fieldOf?, Record.directivesOf?, hne] at h
    · obtain ⟨field, -, hr⟩ := List.mem_flatMap.1 hr
      rw [modelOfField_eq] at hr
      obtain ⟨entry, -, hr⟩ := List.mem_flatMap.1 hr
      by_contra hne
      simp only [List.mem_append, List.mem_singleton] at hr
      rcases hr with (hr | hr) | rfl
      · split at hr <;> simp_all [Record.describes, Record.fieldOf?, Record.directivesOf?]
      · split at hr <;> simp_all [Record.describes, Record.fieldOf?, Record.directivesOf?]
      · simp [Record.describes, Record.fieldOf?, Record.directivesOf?, hne] at h
  · cases hr

/-- A type that a file describes is declared in it. -/
theorem exists_symbol_of_describes {r : Record} (hr : r ∈ records file) {type : String}
    (h : r.describes type = true) :
    ∃ symbol ∈ (records file).filterMap (Record.symbolOf? type), symbol.container = none := by
  rcases List.mem_append.1 hr with hr | hr
  · -- a symbol describes nothing
    obtain ⟨declaration, -, hr⟩ := List.mem_flatMap.1 hr
    rcases List.mem_cons.1 hr with rfl | hr
    · cases h
    · obtain ⟨field, -, rfl⟩ := List.mem_map.1 hr
      cases h
  · obtain ⟨declaration, hdeclaration, hr⟩ := List.mem_flatMap.1 hr
    obtain rfl := name_of_describes file hr h
    refine ⟨⟨file.locate declaration.name.start, none⟩, List.mem_filterMap.2 ⟨.definition
      declaration.name.text ⟨file.locate declaration.name.start, none⟩, ?_, ?_⟩, rfl⟩
    · exact List.mem_append_left _
        (List.mem_flatMap.2 ⟨declaration, hdeclaration, List.mem_cons_self⟩)
    · simp [Record.symbolOf?]

end Projection

end SchemaAtlas
