import SchemaAtlas.Proofs.Crawl.Reachability
import SchemaAtlas.Proofs.FilePath.Order
import SchemaAtlas.Proofs.Index.Sum

/-!
# A scan as the sum of its files

However a project is wired together, the index of its definitions and fields is the sum of the
indices of its files, each read on its own. Files that cannot be read or have syntax errors have no
share in it.

* `Projection.apart_symbols`   two files declare nothing at one place
* `Scan.isSum_of_run_ok`       the sum of the files of a scan
-/

namespace SchemaAtlas

open Projection (SchemaFile)

namespace Projection

/-- The index of a schema file on its own. -/
def SchemaFile.index (file : SchemaFile) : Snapshot :=
  .ofRecords (records file)

/-- The symbols that a file declares under a name. -/
def symbolsNamed (name : String) (file : SchemaFile) : List SymbolLocation :=
  (records file).filterMap (Record.symbolOf? name)

/-- A file declares symbols in itself only. -/
theorem file_of_mem_symbolsNamed {name : String} {file : SchemaFile} {symbol : SymbolLocation}
    (h : symbol ∈ symbolsNamed name file) : symbol.location.file = file.path := by
  obtain ⟨r, hr, hsymbol⟩ := List.mem_filterMap.1 h
  cases r with
  | definition other added =>
    obtain rfl : added = symbol := by
      simp only [Record.symbolOf?] at hsymbol
      split at hsymbol
      · exact Option.some.inj hsymbol
      · cases hsymbol
    -- a symbol comes from a type or from a field of it, never from the model
    rcases List.mem_append.1 hr with hr | hr
    · obtain ⟨declaration, -, hr⟩ := List.mem_flatMap.1 hr
      rcases List.mem_cons.1 hr with heq | hr
      · obtain ⟨-, rfl⟩ := Record.definition.inj heq
        rfl
      · obtain ⟨field, -, heq⟩ := List.mem_map.1 hr
        obtain ⟨-, rfl⟩ := Record.definition.inj heq
        rfl
    · cases isModel_of_mem_model hr
  | _ => cases hsymbol

/-- Files at different normal paths declare nothing at one place. -/
theorem apart_symbols (name : String) {a b : SchemaFile} (ha : a.path.IsNormal)
    (hb : b.path.IsNormal) (h : a.path ≠ b.path) :
    Snapshot.Apart (symbolsNamed name a) (symbolsNamed name b) := by
  intro x hx y hy
  have hsame : x.location.file.same y.location.file = false := by
    rw [file_of_mem_symbolsNamed hx, file_of_mem_symbolsNamed hy, Bool.eq_false_iff]
    intro hsame
    exact h (FilePath.eq_of_same ha hb hsame)
  simp [Location.same, hsame]

end Projection

namespace Source

variable {source : Source}

/-- A file that was read soundly stands under its path. -/
theorem path_of_soundFile? {p : FilePath} {file : SchemaFile}
    (h : source.soundFile? p = some file) : file.path = p := by
  obtain ⟨text, -, hsound⟩ := Option.bind_eq_some_iff.1 h
  split at hsound
  · obtain rfl := Option.some.inj hsound
    rfl
  · cases hsound

/-- The paths of the sound files are among those that were asked for, in their order. -/
theorem paths_soundFiles (paths : List FilePath) :
    ((source.soundFiles paths).map (·.path)).Sublist paths := by
  induction paths with
  | nil => exact .slnil
  | cons p paths ih =>
    cases h : source.soundFile? p with
    | none => simpa [soundFiles, h] using ih.cons p
    | some file => simpa [soundFiles, h, path_of_soundFile? h] using ih

end Source

namespace Crawl

variable {source : Source}

/-- The sound files of a crawl are pairwise different files. -/
theorem Kept.pairwise_apart {c : Crawl source} (hc : c.Kept) (name : String) :
    ((source.soundFiles c.visited).map (Projection.symbolsNamed name)).Pairwise
      Snapshot.Apart := by
  have hpaths := source.paths_soundFiles c.visited
  have hnodup : ((source.soundFiles c.visited).map (·.path)).Nodup := hc.nodup.sublist hpaths
  have hnormal : ∀ file ∈ source.soundFiles c.visited, file.path.IsNormal := fun file hfile =>
    hc.isNormal _ (hpaths.subset (List.mem_map_of_mem hfile))
  rw [List.pairwise_map]
  refine (List.pairwise_map.1 hnodup).imp_of_mem ?_
  intro a b ha hb hne
  exact Projection.apart_symbols name (hnormal a ha) (hnormal b hb) hne

end Crawl

/-- What a scan that succeeds says of definitions, fields, directives, edges and root operations is
the sum of what its sound files say, each on its own. -/
theorem Scan.isSum_of_run_ok (source : Source) (options : ScanOptions) (entry : FilePath)
    (cancelAfter : Option Nat) (s : Snapshot)
    (hok : (run source options entry cancelAfter).result = .ok s) :
    s.IsSum ((source.soundFiles s.files).map Projection.SchemaFile.index) := by
  obtain ⟨c, hkept, rfl⟩ := exists_kept_of_ok hok
  -- the documents of clients are no part of the schema
  have hruns : (c.records ++ documentRecords source options entry.normalize c.assembled).filter
      Record.isSchema = ((source.soundFiles c.visited).map Projection.records).flatten := by
    rw [filter_isSchema_append options entry.normalize hkept, List.flatMap_def]
  have hsum := Snapshot.isSum_ofRecords hruns fun name => by
    rw [List.map_map]
    exact hkept.pairwise_apart name
  rw [List.map_map] at hsum
  rw [files_ofRecords_append options entry.normalize hkept, Source.soundFiles_filter]
  exact hsum

/-- Two files that both extend the type `Query`, and a broken one between them. -/
def Source.shared : Source :=
  { listing :=
      [(⟨"/p/index.graphql"⟩, .ok
          "type Query @sdl(files: [\"a.graphql\", \"b.graphql\"]) \x7b user: User \x7d"),
        (⟨"/p/a.graphql"⟩, .ok "type User ="),
        (⟨"/p/b.graphql"⟩, .ok "extend type Query @b \x7b user: User! \x7d")]
    absent := MemoryFiles.notLoaded }

/-- The definitions of a name that two files share are those of the one before those of the other.
-/
theorem Scan.isSum_of_run_ok_shared :
    ∃ s, (run Source.shared .default ⟨"/p/index.graphql"⟩ none).result = .ok s ∧
      s.IsSum ((Source.shared.soundFiles s.files).map Projection.SchemaFile.index) ∧
      s.files = [⟨"/p/index.graphql"⟩, ⟨"/p/b.graphql"⟩, ⟨"/p/a.graphql"⟩] ∧
      s.definitions.get? "user" =
        some [⟨⟨⟨"/p/index.graphql"⟩, 0, 53⟩, some "Query"⟩,
          ⟨⟨⟨"/p/b.graphql"⟩, 0, 23⟩, some "Query"⟩] ∧
      s.definitions.get? "User" = none := by
  obtain ⟨s, hok, hs⟩ :
      ∃ s, (run Source.shared .default ⟨"/p/index.graphql"⟩ none).result = .ok s ∧
        s.files = [⟨"/p/index.graphql"⟩, ⟨"/p/b.graphql"⟩, ⟨"/p/a.graphql"⟩] ∧
        s.definitions.get? "user" =
          some [⟨⟨⟨"/p/index.graphql"⟩, 0, 53⟩, some "Query"⟩,
            ⟨⟨⟨"/p/b.graphql"⟩, 0, 23⟩, some "Query"⟩] ∧
        s.definitions.get? "User" = none :=
    exists_ok_of_within 4 _ (by decide +kernel)
  exact ⟨s, hok, isSum_of_run_ok _ _ _ none s hok, hs⟩

end SchemaAtlas
