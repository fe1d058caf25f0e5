import SchemaAtlas.Proofs.Scan.Schema

/-!
# Going to the locations of a scan

Every location that a scan records leads to the name that it is recorded for: the file is one of the
files of the scan and has no syntax errors, and the name stands where the line and the code unit
lead, whatever characters stand before it. The locations of a name and the fields of a type are
listed in the order of the files and of their texts, so no location is listed twice.

* `Location.LeadsTo`      what is found at a location
* `Scan.placed_of_run_ok`   the locations of a scan
-/

namespace SchemaAtlas

open Projection (SchemaFile symbolsNamed fieldEntries)

/-- Whether a location leads to a name in one of some files that has no syntax errors: its line is
there, a character ends where its code units end, and the name begins there, with nothing behind it
that goes on with the name. -/
def Location.LeadsTo (source : Source) (files : List FilePath) (name : String)
    (location : Location) : Prop :=
  location.file ∈ files ∧ ∃ text, source.read location.file = .ok text ∧
    (Document.ofText text).isSound = true ∧
    ∃ behind, Text.remainder? text location.position = some (name.toList ++ behind) ∧
      ∀ c ∈ behind.head?, Token.isNameChar c = false

namespace Snapshot

/-- The locations that a snapshot records for a name: those of its symbols, of the fields of types,
and of the fields of root types. -/
inductive Locates (s : Snapshot) (name : String) : Location → Prop
  | symbol {symbols : List SymbolLocation} {symbol : SymbolLocation}
      (h : s.definitions.get? name = some symbols) (hsymbol : symbol ∈ symbols) :
      Locates s name symbol.location
  | field {type : String} {fields : List FieldEntry} {entry : FieldEntry}
      (h : s.fields.get? type = some fields) (hentry : entry ∈ fields) (hname : entry.name = name) :
      Locates s name entry.location
  | rootOperation {rootType : String} {operation : RootOperation}
      (h : s.rootOperation? rootType name = some operation) : Locates s name operation.location

/-- Whether all locations of a snapshot lead to names, and all its lists are in the order of files
and of texts. -/
structure Placed (source : Source) (s : Snapshot) : Prop where
  leadsTo : ∀ name location, s.Locates name location → location.LeadsTo source s.files name
  definitions : ∀ name symbols, s.definitions.get? name = some symbols →
    symbols.Pairwise fun a b => a.location.Before s.files b.location
  fields : ∀ type fields, s.fields.get? type = some fields →
    fields.Pairwise fun a b => a.location.Before s.files b.location

end Snapshot

/-- A place of a sound file leads to its name. -/
theorem Location.leadsTo_of_mem_places {source : Source} {files : List FilePath} {file : SchemaFile}
    (hfile : file ∈ source.soundFiles files) {name : String} {location : Location}
    (hplace : (name, location) ∈ file.places) : location.LeadsTo source files name := by
  obtain ⟨hmem, hread, hsound⟩ := Source.read_of_mem_soundFiles hfile
  have hpath := SchemaFile.file_of_mem_places hplace
  have hok : (Document.ofText file.text).isSound = true := hsound.document ▸ hsound.sound
  exact ⟨hpath ▸ hmem, file.text, hpath ▸ hread, hok, hsound.remainder?_of_mem_places hplace⟩

theorem eq_of_listing? {α : Type} {as bs : List α} (h : listing? as = some bs) : as = bs := by
  unfold listing? at h
  split at h
  · cases h
  · exact Option.some.inj h

namespace Snapshot.Lists

variable {s : Snapshot} {source : Source} {files : List FilePath}

/-- What is recorded for a name is located at a place of a file. -/
theorem exists_place (h : s.Lists (source.soundFiles files)) {name : String} {location : Location}
    (hlocates : s.Locates name location) :
    ∃ file ∈ source.soundFiles files, (name, location) ∈ file.places := by
  -- a field of a type, of whatever name
  have hfield {type : String} {entry : FieldEntry}
      (hentry : entry ∈ (source.soundFiles files).flatMap fun file => fieldEntries file type) :
      ∃ file ∈ source.soundFiles files, (entry.name, entry.location) ∈ file.places := by
    obtain ⟨file, hfile, hentry⟩ := List.mem_flatMap.1 hentry
    exact ⟨file, hfile, (Projection.fieldEntries_places file type).subset
      (List.mem_map_of_mem (f := fun entry : FieldEntry => (entry.name, entry.location)) hentry)⟩
  cases hlocates with
  | symbol hsymbols hsymbol =>
    rw [h.definitions] at hsymbols
    obtain rfl := eq_of_listing? hsymbols
    obtain ⟨file, hfile, hsymbol⟩ := List.mem_flatMap.1 hsymbol
    exact ⟨file, hfile, (Projection.symbols_places file name).subset
      (List.mem_map_of_mem (f := fun symbol : SymbolLocation => (name, symbol.location)) hsymbol)⟩
  | field hfields hentry hname =>
    rw [h.fields] at hfields
    obtain rfl := eq_of_listing? hfields
    exact hname ▸ hfield hentry
  | @rootOperation rootType operation hoperation =>
    rw [h.rootOperation] at hoperation
    split at hoperation
    · obtain ⟨entry, hentry, rfl⟩ := List.mem_map.1 (List.mem_of_getLast? hoperation)
      obtain ⟨hmem, hname⟩ := List.mem_filter.1 hentry
      have hname : entry.name = name := by simpa using hname
      exact hname ▸ hfield hmem
    · cases hoperation

end Snapshot.Lists

/-- All locations of a scan that succeeds lead to their names, in the order of its files. -/
theorem Scan.placed_of_run_ok (source : Source) (options : ScanOptions) (entry : FilePath)
    (cancelAfter : Option Nat) (s : Snapshot)
    (hok : (run source options entry cancelAfter).result = .ok s) : s.Placed source := by
  have hlists := lists_of_run_ok hok
  have hnodup := (exists_records_of_ok hok).1
  -- each place leads to its name, and both kinds of lists are in order
  refine ⟨fun name location hlocates => ?_, fun name symbols hsymbols => ?_,
    fun type fields hfields => ?_⟩
  · obtain ⟨file, hfile, hplace⟩ := hlists.exists_place hlocates
    exact Location.leadsTo_of_mem_places hfile hplace
  · rw [hlists.definitions] at hsymbols
    rw [← eq_of_listing? hsymbols]
    exact pairwise_symbols hnodup name
  · rw [hlists.fields] at hfields
    rw [← eq_of_listing? hfields]
    exact pairwise_fields hnodup type

/-- Two files with characters outside the basic plane, in descriptions over several lines and in
comments before the names. -/
def Source.accented : Source :=
  { listing :=
      [(⟨"/p/index.graphql"⟩, .ok
          "\"\"\"Größe\n😀\"\"\" type Query @sdl(files: [\"a.graphql\"])
            \x7b \"😀\" user: User \x7d"),
        (⟨"/p/a.graphql"⟩, .ok "# 😀\r\ntype User \x7b \"é\" name: String, id: ID \x7d")]
    absent := MemoryFiles.notLoaded }

/-- In a text with accents and characters of two code units every place leads to its name. -/
theorem Scan.placed_of_run_ok_accented :
    ∃ s, (run Source.accented .default ⟨"/p/index.graphql"⟩ none).result = .ok s ∧
      s.Placed Source.accented := by
  have h : Source.accented.has (FilePath.normalize ⟨"/p/index.graphql"⟩) = true := by
    decide +kernel
  obtain ⟨s, hok⟩ : ∃ s, (run Source.accented .default ⟨"/p/index.graphql"⟩ none).result = .ok s :=
    exists_ok rfl h rfl
  exact ⟨s, hok, placed_of_run_ok _ _ _ none s hok⟩

end SchemaAtlas
