import SchemaAtlas.Proofs.Scan.Schema

/-!
# Fields of root types

A field of a root type is known to an index three times: as a symbol in its type, as a field of the
type, and as an operation. The symbols come from one reading of a file and the others from another
one, yet they agree: the symbols of a name in a type are its fields of that name, in the same order,
and the operation is the last of them.

* `Projection.symbolsIn_symbolsNamed`   the two readings of one file
* `Scan.rootFields_of_run_ok`           the index of a scan
-/

namespace SchemaAtlas

open Projection (SchemaFile symbolsNamed fieldEntries)

/-- The locations of the symbols of a name in a container. -/
def Snapshot.locationsIn (s : Snapshot) (container name : String) : List Location :=
  ((s.definitions.get? name).getD []).filterMap (SymbolLocation.locationIn? container)

/-- Whether the fields of root types are symbols and operations, no other symbol is in a container,
no other type has operations, and whatever is described is declared. -/
structure Snapshot.RootFieldsAgree (s : Snapshot) : Prop where
  /-- The symbols in a root type are its fields. -/
  symbols : ∀ container name, s.locationsIn container name =
    if isRootType container then
      ((s.fieldsOf container).filter (·.name = name)).map (·.location)
    else []
  rootTypes : ∀ rootType, (s.rootOperations.get? rootType).isSome = true →
    isRootType rootType = true
  /-- The last field of a name is the operation, and there is none without a field. -/
  operations : ∀ rootType name, isRootType rootType = true →
    s.rootOperation? rootType name =
      (((s.fieldsOf rootType).filter (·.name = name)).getLast?).map (·.asRootOperation rootType)
  /-- A type with fields or directives is a symbol in no container. -/
  declared : ∀ type, (s.fields.get? type).isSome = true ∨
      (s.typeDirectives.get? type).isSome = true →
    ∃ symbols, s.definitions.get? type = some symbols ∧
      ∃ symbol ∈ symbols, symbol.container = none

namespace Projection

/-- The symbols of a name that a sound file adds to a root type are the fields of that name that it
adds to the type. -/
theorem symbolsIn_symbolsNamed {file : SchemaFile} (h : file.IsSound) (container name : String) :
    (symbolsNamed name file).filterMap (SymbolLocation.locationIn? container) =
      if isRootType container then
        ((fieldEntries file container).filter (·.name = name)).map (·.location)
      else [] := by
  rw [symbolsNamed, symbolsIn_records, ← places_fieldEntries_of_isTyped file h.isTyped,
    List.filter_map, List.map_map]
  rfl

end Projection

/-- Lists of sound files agree on the fields of root types. -/
theorem Snapshot.Lists.rootFieldsAgree {s : Snapshot} {files : List SchemaFile}
    (h : s.Lists files) (hsound : ∀ file ∈ files, file.IsSound) : s.RootFieldsAgree := by
  have hfields (type : String) :
      s.fieldsOf type = files.flatMap fun file => fieldEntries file type := by
    rw [fieldsOf, h.fields, getD_listing?]
  refine ⟨fun container name => ?_, fun rootType hroot => ?_, fun rootType name hroot => ?_,
    fun type htype => ?_⟩
  · -- the two readings agree file by file
    have hfiles : files.flatMap (fun file => (symbolsNamed name file).filterMap
        (SymbolLocation.locationIn? container)) = files.flatMap fun file =>
          if isRootType container then
            ((fieldEntries file container).filter (·.name = name)).map (·.location)
          else [] :=
      List.flatMap_congr fun file hfile =>
        Projection.symbolsIn_symbolsNamed (hsound file hfile) container name
    rw [locationsIn, h.definitions, getD_listing?, List.filterMap_flatMap, hfiles, hfields]
    cases isRootType container with
    | false => simp
    | true => simp only [if_true, List.filter_flatMap, List.map_flatMap]
  · obtain ⟨name, hname⟩ := h.rootTypes rootType hroot
    rw [h.rootOperation] at hname
    split at hname
    · assumption
    · cases hname
  · rw [h.rootOperation, if_pos hroot, hfields, List.getLast?_map]
  · obtain ⟨symbol, hsymbol, hnone⟩ := h.declared type htype
    refine ⟨_, ?_, symbol, hsymbol, hnone⟩
    rw [h.definitions, listing?, if_neg (List.ne_nil_of_mem hsymbol)]

/-- The symbols, the fields and the operations that a scan finds in root types agree. -/
theorem Scan.rootFields_of_run_ok (source : Source) (options : ScanOptions) (entry : FilePath)
    (cancelAfter : Option Nat) (s : Snapshot)
    (hok : (run source options entry cancelAfter).result = .ok s) : s.RootFieldsAgree :=
  (lists_of_run_ok hok).rootFieldsAgree fun _ hfile => (Source.read_of_mem_soundFiles hfile).2.2

/-- A root type in two files, of which the second one declares a field once more. -/
def Source.rooted : Source :=
  { listing :=
      [(⟨"/p/index.graphql"⟩, .ok
          "type Query @sdl(files: [\"a.graphql\"]) \x7b user: User, users: [User] \x7d"),
        (⟨"/p/a.graphql"⟩, .ok "extend type Query \x7b user(id: ID!): [User!] \x7d interface User")]
    absent := MemoryFiles.notLoaded }

/-- A root field that two files define is listed twice, and the last one is the operation. -/
theorem Scan.rootFields_of_run_ok_rooted :
    ∃ s, (run Source.rooted .default ⟨"/p/index.graphql"⟩ none).result = .ok s ∧
      s.RootFieldsAgree ∧
      (s.fieldsOf "Query").map (·.name) = ["user", "users", "user"] ∧
      s.rootOperation? "Query" "user" =
        some ⟨"Query", "User", true, [⟨"id", "ID!"⟩], ⟨⟨"/p/a.graphql"⟩, 0, 20⟩⟩ := by
  obtain ⟨s, hok, hs⟩ :
      ∃ s, (run Source.rooted .default ⟨"/p/index.graphql"⟩ none).result = .ok s ∧
        (s.fieldsOf "Query").map (·.name) = ["user", "users", "user"] ∧
        s.rootOperation? "Query" "user" =
          some ⟨"Query", "User", true, [⟨"id", "ID!"⟩], ⟨⟨"/p/a.graphql"⟩, 0, 20⟩⟩ :=
    exists_ok_of_within 3 _ (by decide +kernel)
  exact ⟨s, hok, rootFields_of_run_ok _ _ _ none s hok, hs⟩

end SchemaAtlas
