import SchemaAtlas.Proofs.Projection.Places
import SchemaAtlas.Proofs.Scan.Sum

/-!
# What a scan lists of its schema files

The locations that a scan lists come in the order of its files, and in each file in the order of its
text. So no two symbols have one place, none is left out, and every list of a snapshot is the lists
of its sound files one behind the other.

* `Source.pairwise_flatMap_soundFiles`   what is located in the files, in their order
* `Snapshot.Lists`, `Scan.lists_of_run_ok`   the lists of a snapshot
-/

namespace SchemaAtlas

open Projection (SchemaFile symbolsNamed fieldEntries)

/-- Whether a location comes before another one in the order of files, and in a file in the order of
lines and code units. -/
def Location.Before (files : List FilePath) (a b : Location) : Prop :=
  files.idxOf a.file < files.idxOf b.file ∨
    files.idxOf a.file = files.idxOf b.file ∧ a.position.Before b.position

/-- Locations in normal files of which one comes first are not the same. -/
theorem Location.not_same_of_before {files : List FilePath} {a b : Location}
    (ha : a.file.IsNormal) (hb : b.file.IsNormal) (h : a.Before files b) : a.same b = false := by
  rw [Bool.eq_false_iff]
  intro hsame
  simp only [same, Bool.and_eq_true, beq_iff_eq] at hsame
  obtain ⟨⟨hfile, hline⟩, hcharacter⟩ := hsame
  obtain hless | ⟨-, hbefore⟩ := h
  · rw [FilePath.eq_of_same ha hb hfile] at hless
    exact Nat.lt_irrefl _ hless
  · unfold Text.Position.Before position at hbefore
    simp only at hbefore
    omega

/-- Nothing is left out where no two symbols have one place. -/
theorem Snapshot.foldl_addLocation_of_pairwise {symbols : List SymbolLocation}
    (h : symbols.Pairwise fun a b => a.location.same b.location = false) :
    symbols.foldl addLocation [] = symbols := by
  have hruns : (symbols.map fun symbol => [symbol]).Pairwise Apart := by
    rw [List.pairwise_map]
    refine h.imp fun hne a ha b hb => ?_
    rwa [List.mem_singleton.1 ha, List.mem_singleton.1 hb]
  have hflatten : (symbols.map fun symbol => [symbol]).flatten = symbols := by
    rw [← List.flatMap_def, List.flatMap_singleton']
  have hall := foldl_addLocation_flatten hruns
  rw [hflatten, List.map_map] at hall
  exact hall.trans hflatten

namespace Source

variable {source : Source}

/-- A sound file is one that was read. -/
theorem read_of_mem_soundFiles {files : List FilePath} {file : SchemaFile}
    (h : file ∈ source.soundFiles files) :
    file.path ∈ files ∧ source.read file.path = .ok file.text ∧ file.IsSound := by
  obtain ⟨p, hp, text, htext, hsound, rfl⟩ := exists_text_of_mem_soundFiles h
  exact ⟨hp, read_of_text? htext, rfl, hsound⟩

/-- The sound files come in the order of the files. -/
theorem pairwise_soundFiles {files : List FilePath} (hnodup : files.Nodup) :
    (source.soundFiles files).Pairwise fun a b => files.idxOf a.path < files.idxOf b.path := by
  have hfiles : files.Pairwise fun p q => files.idxOf p < files.idxOf q := by
    rw [List.pairwise_iff_getElem]
    intro i j hi hj hlt
    rwa [hnodup.idxOf_getElem i hi, hnodup.idxOf_getElem j hj]
  have hpaths := hfiles.sublist (source.paths_soundFiles files)
  rwa [List.pairwise_map] at hpaths

/-- What is located at places of the sound files comes in the order of the files, and in each file
in the order of its text. -/
theorem pairwise_flatMap_soundFiles {α : Type} {files : List FilePath} (hnodup : files.Nodup)
    {entries : SchemaFile → List α} {location : α → Location}
    (h : ∀ file, ((entries file).map location).Sublist (file.places.map Prod.snd)) :
    ((source.soundFiles files).flatMap entries).Pairwise fun a b =>
      (location a).Before files (location b) := by
  -- each entry is located in its file
  have hfile {file : SchemaFile} {a : α} (ha : a ∈ entries file) :
      (location a).file = file.path := by
    obtain ⟨⟨name, place⟩, hplace, heq⟩ :=
      List.mem_map.1 ((h file).subset (List.mem_map_of_mem ha))
    rw [← heq]
    exact SchemaFile.file_of_mem_places hplace
  refine List.pairwise_flatMap.2 ⟨fun file hmem => ?_, (pairwise_soundFiles hnodup).imp ?_⟩
  · have hplaces : (file.places.map Prod.snd).Pairwise fun a b => a.position.Before b.position :=
      List.pairwise_map.2 (read_of_mem_soundFiles hmem).2.2.pairwise_places
    refine (List.pairwise_map.1 (hplaces.sublist (h file))).imp_of_mem fun ha hb hbefore => ?_
    exact .inr ⟨by rw [hfile ha, hfile hb], hbefore⟩
  · intro f g hless a ha b hb
    exact .inl (by rwa [hfile ha, hfile hb])

end Source

/-! ## The lists of a snapshot -/

/-- Whether the lists of a snapshot are those of some schema files, one behind the other. -/
structure Snapshot.Lists (s : Snapshot) (files : List SchemaFile) : Prop where
  definitions : ∀ name, s.definitions.get? name = listing? (files.flatMap (symbolsNamed name))
  fields : ∀ type, s.fields.get? type = listing? (files.flatMap fun file => fieldEntries file type)
  /-- A field of a root type is the last one of its name. -/
  rootOperation : ∀ rootType name, s.rootOperation? rootType name =
    if isRootType rootType then
      (((files.flatMap fun file => fieldEntries file rootType).filter (·.name = name)).map
        (·.asRootOperation rootType)).getLast?
    else none
  /-- A root type is there if one of its fields is. -/
  rootTypes : ∀ rootType, (s.rootOperations.get? rootType).isSome = true →
    ∃ name, (s.rootOperation? rootType name).isSome = true
  /-- A type that is described is declared. -/
  declared : ∀ type, (s.fields.get? type).isSome = true ∨
      (s.typeDirectives.get? type).isSome = true →
    ∃ symbol ∈ files.flatMap (symbolsNamed type), symbol.container = none

theorem isSome_listing? {α : Type} {as : List α} (h : (listing? as).isSome = true) :
    ∃ a, a ∈ as := by
  unfold listing? at h
  split at h
  · cases h
  · next hne => exact List.exists_mem_of_ne_nil as hne

namespace Snapshot

variable {records : List Record}

/-- A root type that is there has a field. -/
theorem exists_rootOperation_of_isSome {rootType : String}
    (h : ((ofRecords records).rootOperations.get? rootType).isSome = true) :
    ∃ name, ((ofRecords records).rootOperation? rootType name).isSome = true := by
  rw [isSome_rootOperations_ofRecords] at h
  obtain ⟨r, hr, hsets⟩ := List.any_eq_true.1 h
  cases r with
  | rootOperation name operation =>
    have hroot : operation.rootType = rootType := by simpa [Record.setsFieldOf] using hsets
    have hmem : operation ∈ records.filterMap (Record.rootOperationOf? rootType name) :=
      List.mem_filterMap.2 ⟨_, hr, by simp [Record.rootOperationOf?, hroot]⟩
    -- the record that set the field is one of its name, so there is a last one
    refine ⟨name, ?_⟩
    rw [rootOperation?_ofRecords, List.getLast?_eq_some_getLast (List.ne_nil_of_mem hmem)]
    rfl
  | _ => cases hsets

/-- A type with fields or directives is described by a record. -/
theorem exists_describes_of_isSome {type : String}
    (h : ((ofRecords records).fields.get? type).isSome = true ∨
      ((ofRecords records).typeDirectives.get? type).isSome = true) :
    ∃ r ∈ records, r.describes type = true := by
  -- a type is described by a field or by a directive
  rcases h with h | h
  · rw [get?_fields_ofRecords] at h
    obtain ⟨entry, hentry⟩ := isSome_listing? h
    obtain ⟨r, hr, heq⟩ := List.mem_filterMap.1 hentry
    exact ⟨r, hr, by simp [Record.describes, heq]⟩
  · rw [get?_typeDirectives_ofRecords] at h
    obtain ⟨directive, hdirective⟩ := isSome_listing? h
    obtain ⟨directives, hdirectives, -⟩ := List.mem_flatten.1 hdirective
    obtain ⟨r, hr, heq⟩ := List.mem_filterMap.1 hdirectives
    exact ⟨r, hr, by simp [Record.describes, heq]⟩

/-- The schema records of files in which no two symbols have one place make their lists. -/
theorem lists_ofRecords {files : List SchemaFile}
    (hrecords : records.filter Record.isSchema = files.flatMap Projection.records)
    (hapart : ∀ name, (files.flatMap (symbolsNamed name)).Pairwise
      fun a b => a.location.same b.location = false) :
    (ofRecords records).Lists files := by
  -- what is picked of all records is picked of the records of the files
  have hpick {α : Type} (pick? : Record → Option α)
      (h : ∀ r, r.isSchema = false → pick? r = none) :
      records.filterMap pick? =
        files.flatMap fun file => (Projection.records file).filterMap pick? := by
    rw [← filterMap_filter_isSchema h, hrecords, List.filterMap_flatMap]
  refine ⟨fun name => ?_, fun type => ?_, fun rootType name => ?_,
    fun rootType h => exists_rootOperation_of_isSome h, fun type h => ?_⟩
  · rw [get?_definitions_ofRecords, hpick (Record.symbolOf? name)
      (fun r hr => by cases r <;> first | rfl | cases hr)]
    exact congrArg listing? (foldl_addLocation_of_pairwise (hapart name))
  · rw [get?_fields_ofRecords, hpick (Record.fieldOf? type)
      (fun r hr => by cases r <;> first | rfl | cases hr)]
    simp only [Projection.fieldsOf_records]
  · rw [rootOperation?_ofRecords, hpick (Record.rootOperationOf? rootType name)
      (fun r hr => by cases r <;> first | rfl | cases hr)]
    simp only [Projection.rootOperationsOf_records]
    cases isRootType rootType with
    | false => simp
    | true => simp only [if_true, List.filter_flatMap, List.map_flatMap]
  · obtain ⟨r, hr, hdescribes⟩ := exists_describes_of_isSome h
    have hschema : r ∈ records.filter Record.isSchema := by
      refine List.mem_filter.2 ⟨hr, ?_⟩
      cases r <;> first | rfl | cases hdescribes
    rw [hrecords] at hschema
    obtain ⟨file, hfile, hr⟩ := List.mem_flatMap.1 hschema
    obtain ⟨symbol, hsymbol, hnone⟩ := Projection.exists_symbol_of_describes file hr hdescribes
    exact ⟨symbol, List.mem_flatMap.2 ⟨file, hfile, hsymbol⟩, hnone⟩

end Snapshot

namespace Scan

variable {source : Source} {options : ScanOptions} {entry : FilePath} {cancelAfter : Option Nat}
  {s : Snapshot}

/-- The schema records of a scan that succeeds are those of its sound files, which are normal and
pairwise different. -/
theorem exists_records_of_ok (hok : (run source options entry cancelAfter).result = .ok s) :
    s.files.Nodup ∧ (∀ p ∈ s.files, p.IsNormal) ∧
      ∃ records, s = .ofRecords records ∧ records.filter Record.isSchema =
        (source.soundFiles s.files).flatMap Projection.records := by
  obtain ⟨c, hkept, rfl⟩ := exists_kept_of_ok hok
  have hfiles := files_ofRecords_append options entry.normalize hkept
  refine ⟨?_, ?_, _, rfl, ?_⟩
  · rw [hfiles]
    exact hkept.nodup.filter _
  · rw [hfiles]
    exact fun p hp => hkept.isNormal p (List.mem_filter.1 hp).1
  · rw [hfiles, Source.soundFiles_filter]
    exact filter_isSchema_append options entry.normalize hkept

/-- The symbols of a name come in the order of the files. -/
theorem pairwise_symbols (hnodup : s.files.Nodup) (name : String) :
    ((source.soundFiles s.files).flatMap (symbolsNamed name)).Pairwise fun a b =>
      a.location.Before s.files b.location := by
  refine Source.pairwise_flatMap_soundFiles hnodup fun file => ?_
  have hplaces := (Projection.symbols_places file name).map Prod.snd
  rwa [List.map_map] at hplaces

/-- The fields of a type come in the order of the files. -/
theorem pairwise_fields (hnodup : s.files.Nodup) (type : String) :
    ((source.soundFiles s.files).flatMap fun file => fieldEntries file type).Pairwise fun a b =>
      a.location.Before s.files b.location := by
  refine Source.pairwise_flatMap_soundFiles hnodup fun file => ?_
  have hplaces := (Projection.fieldEntries_places file type).map Prod.snd
  rwa [List.map_map] at hplaces

/-- A scan that succeeds lists what its sound files declare. -/
theorem lists_of_run_ok (hok : (run source options entry cancelAfter).result = .ok s) :
    s.Lists (source.soundFiles s.files) := by
  obtain ⟨hnodup, hnormal, records, hs, hrecords⟩ := exists_records_of_ok hok
  have hlists := Snapshot.lists_ofRecords hrecords fun name => by
    refine (pairwise_symbols hnodup name).imp_of_mem fun ha hb hbefore => ?_
    -- the files of a scan are normal
    have hnormal' {symbol : SymbolLocation}
        (h : symbol ∈ (source.soundFiles s.files).flatMap (symbolsNamed name)) :
        symbol.location.file.IsNormal := by
      obtain ⟨file, hfile, hsymbol⟩ := List.mem_flatMap.1 h
      rw [Projection.file_of_mem_symbolsNamed hsymbol]
      exact hnormal _ (Source.read_of_mem_soundFiles hfile).1
    exact Location.not_same_of_before (hnormal' ha) (hnormal' hb) hbefore
  rwa [← hs] at hlists

end Scan

end SchemaAtlas
