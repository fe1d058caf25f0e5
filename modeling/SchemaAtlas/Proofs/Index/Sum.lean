import SchemaAtlas.Proofs.Index.History

/-!
# Sums of indices

A snapshot is the sum of others if every list in it is theirs one behind the other, and every field
of a root type is the one of the last of them that has it. Schema records that come in runs build
the sum of what the runs build, as long as no two runs declare a symbol at one place.

* `Snapshot.foldl_addLocation_flatten`   no location is dropped across runs
* `Snapshot.isSum_ofRecords`             the sum of runs of records
-/

namespace SchemaAtlas

/-! ## Lists under one key -/

/-- The lists that several parts keep under one key, one behind the other; nothing if no part keeps
any. -/
def joined? {α : Type} (lists : List (List α)) : Option (List α) :=
  if lists = [] then none else some lists.flatten

/-- Empty lists that are left out make no difference to all elements. -/
private theorem flatten_filterMap_listing? {α : Type} (lists : List (List α)) :
    (lists.filterMap listing?).flatten = lists.flatten := by
  induction lists with
  | nil => rfl
  | cons as lists ih =>
    by_cases h : as = []
    · simp [listing?, h, ih]
    · simp [listing?, h, ih]

/-- What is kept of each part, joined, is what is kept of them together. -/
theorem joined?_filterMap_listing? {α : Type} (lists : List (List α)) :
    joined? (lists.filterMap listing?) = listing? lists.flatten := by
  have hnil : lists.filterMap listing? = [] ↔ lists.flatten = [] := by
    simp [List.filterMap_eq_nil_iff, listing?]
  unfold joined?
  rw [flatten_filterMap_listing?]
  by_cases h : lists.flatten = []
  · rw [if_pos (hnil.2 h), h]
    rfl
  · rw [if_neg (mt hnil.1 h), listing?, if_neg h]

namespace Snapshot

/-- A snapshot that shows of definitions, fields, directives and edges what its parts show. -/
structure IsSum (s : Snapshot) (parts : List Snapshot) : Prop where
  definitions : ∀ name, s.definitions.get? name =
    joined? (parts.filterMap (·.definitions.get? name))
  fields : ∀ type, s.fields.get? type = joined? (parts.filterMap (·.fields.get? type))
  typeDirectives : ∀ type, s.typeDirectives.get? type =
    joined? (parts.filterMap (·.typeDirectives.get? type))
  relationships : s.relationships = parts.flatMap (·.relationships)
  /-- The last part that has a field of a root type decides. -/
  rootOperation : ∀ rootType field, s.rootOperation? rootType field =
    (parts.filterMap (·.rootOperation? rootType field)).getLast?
  /-- A root type is there if it is in one of the parts. -/
  rootTypes : ∀ rootType, (s.rootOperations.get? rootType).isSome =
    parts.any fun part => (part.rootOperations.get? rootType).isSome

/-! ## Locations of several runs -/

/-- Whether no location of the one list is a place of the other. -/
def Apart (as bs : List SymbolLocation) : Prop :=
  ∀ a ∈ as, ∀ b ∈ bs, a.location.same b.location = false

/-- With a place added, a place is one of those before or the one that was added. -/
theorem mem_of_mem_addLocation {known : List SymbolLocation} {symbol a : SymbolLocation}
    (h : a ∈ addLocation known symbol) : a ∈ known ∨ a = symbol := by
  unfold addLocation at h
  split at h
  · exact .inl h
  · simpa using h

/-- With places added, a place is one of those before or one of those added. -/
theorem mem_of_mem_foldl_addLocation {symbols known : List SymbolLocation} {a : SymbolLocation}
    (h : a ∈ symbols.foldl addLocation known) : a ∈ known ∨ a ∈ symbols := by
  induction symbols generalizing known with
  | nil => exact .inl h
  | cons symbol symbols ih =>
    rcases ih h with h | h
    · rcases mem_of_mem_addLocation h with h | rfl
      · exact .inl h
      · exact .inr (by simp)
    · exact .inr (List.mem_cons_of_mem _ h)

/-- What was known before is kept in front, if nothing is a place of it. -/
theorem foldl_addLocation_append {front symbols : List SymbolLocation} (h : Apart front symbols)
    (known : List SymbolLocation) :
    symbols.foldl addLocation (front ++ known) = front ++ symbols.foldl addLocation known := by
  induction symbols generalizing known with
  | nil => rfl
  | cons symbol symbols ih =>
    -- the places in front are elsewhere, so none of them keeps a new one out
    have hfront : front.any (·.location.same symbol.location) = false :=
      List.any_eq_false.2 fun a ha => by simp [h a ha symbol (by simp)]
    have hadd : addLocation (front ++ known) symbol = front ++ addLocation known symbol := by
      unfold addLocation
      rw [List.any_append, hfront, Bool.false_or]
      split
      · rfl
      · rw [List.append_assoc]
    rw [List.foldl_cons, hadd, ih fun a ha b hb => h a ha b (List.mem_cons_of_mem _ hb)]
    rfl

/-- No location of a run is dropped because of another run. -/
theorem foldl_addLocation_flatten {runs : List (List SymbolLocation)} (h : runs.Pairwise Apart) :
    runs.flatten.foldl addLocation [] = (runs.map (List.foldl addLocation [])).flatten := by
  induction runs with
  | nil => rfl
  | cons run runs ih =>
    obtain ⟨hrun, hruns⟩ := List.pairwise_cons.1 h
    -- what one run leaves is part of that run, and so is apart from the others
    have hapart : Apart (run.foldl addLocation []) runs.flatten := by
      intro a ha b hb
      obtain ⟨other, hother, hb⟩ := List.mem_flatten.1 hb
      have ha : a ∈ run := by simpa using mem_of_mem_foldl_addLocation ha
      exact hrun other hother a ha b hb
    have happend := foldl_addLocation_append hapart []
    rw [List.append_nil] at happend
    rw [List.flatten_cons, List.foldl_append, happend, ih hruns, List.map_cons, List.flatten_cons]

/-! ## Runs of schema records -/

/-- Other records than those of schema files do not show where only schema records are picked. -/
theorem filterMap_filter_isSchema {α : Type} {pick? : Record → Option α}
    (h : ∀ r, r.isSchema = false → pick? r = none) (records : List Record) :
    (records.filter Record.isSchema).filterMap pick? = records.filterMap pick? := by
  rw [List.filterMap_filter]
  congr 1
  funext r
  cases hr : r.isSchema <;> simp [h, hr]

/-- Whether a root type is given a field can be seen from the records of the schema. -/
theorem any_filter_isSchema (rootType : String) (records : List Record) :
    (records.filter Record.isSchema).any (Record.setsFieldOf rootType) =
      records.any (Record.setsFieldOf rootType) := by
  rw [List.any_filter]
  congr 1
  funext r
  cases r <;> rfl

/-- Schema records that come in runs, among whatever other records, build the sum of what the runs
build, if no two runs declare a symbol at one place. -/
theorem isSum_ofRecords {records : List Record} {runs : List (List Record)}
    (hruns : records.filter Record.isSchema = runs.flatten)
    (hapart : ∀ name, (runs.map (·.filterMap (Record.symbolOf? name))).Pairwise Apart) :
    (ofRecords records).IsSum (runs.map ofRecords) := by
  -- the lists of the runs under a key, and the list of all records under it
  have hpick {α : Type} (pick? : Record → Option α)
      (h : ∀ r, r.isSchema = false → pick? r = none) :
      records.filterMap pick? = (runs.map (·.filterMap pick?)).flatten := by
    rw [← filterMap_filter_isSchema h, hruns, List.filterMap_flatten]
  refine ⟨fun name => ?_, fun type => ?_, fun type => ?_, ?_, fun rootType field => ?_,
    fun rootType => ?_⟩
  · have hparts : (runs.map ofRecords).filterMap (·.definitions.get? name) =
        ((runs.map (·.filterMap (Record.symbolOf? name))).map
          (List.foldl addLocation [])).filterMap listing? := by
      simp only [List.filterMap_map, Function.comp_def, get?_definitions_ofRecords]
    rw [hparts, joined?_filterMap_listing?, get?_definitions_ofRecords,
      hpick (Record.symbolOf? name) (fun r hr => by cases r <;> first | rfl | cases hr),
      foldl_addLocation_flatten (hapart name)]
  · have hparts : (runs.map ofRecords).filterMap (·.fields.get? type) =
        (runs.map (·.filterMap (Record.fieldOf? type))).filterMap listing? := by
      simp only [List.filterMap_map, Function.comp_def, get?_fields_ofRecords]
    rw [hparts, joined?_filterMap_listing?, get?_fields_ofRecords,
      hpick (Record.fieldOf? type) (fun r hr => by cases r <;> first | rfl | cases hr)]
  · have hparts : (runs.map ofRecords).filterMap (·.typeDirectives.get? type) =
        (runs.map fun run => (run.filterMap (Record.directivesOf? type)).flatten).filterMap
          listing? := by
      simp only [List.filterMap_map, Function.comp_def, get?_typeDirectives_ofRecords]
    rw [hparts, joined?_filterMap_listing?, get?_typeDirectives_ofRecords,
      hpick (Record.directivesOf? type) (fun r hr => by cases r <;> first | rfl | cases hr),
      List.flatten_flatten, List.map_map]
    rfl
  · rw [relationships_ofRecords,
      hpick Record.edge? (fun r hr => by cases r <;> first | rfl | cases hr),
      List.flatMap_map, List.flatMap_def]
    simp only [relationships_ofRecords]
  · rw [rootOperation?_ofRecords, hpick (Record.rootOperationOf? rootType field)
        (fun r hr => by cases r <;> first | rfl | cases hr),
      List.getLast?_flatten, List.getLast?_filterMap]
    simp only [← List.map_reverse, List.findSome?_map, Function.comp_def,
      rootOperation?_ofRecords]
  · rw [isSome_rootOperations_ofRecords, ← any_filter_isSchema, hruns, List.any_flatten,
      List.any_map]
    simp [Function.comp_def, isSome_rootOperations_ofRecords]

end Snapshot

end SchemaAtlas
