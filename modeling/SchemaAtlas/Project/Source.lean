import SchemaAtlas.FilePath.Normal

/-!
# Where the files of a project come from

A `Source` is the state of the files at one moment: a finite listing that holds, for every file
that exists, its text or the reason why it cannot be read. Files are found under the normal form
of a path, so every spelling of a path finds the same file; a source may still refuse to read a
file under some spellings.
-/

namespace SchemaAtlas

/-- The files at one moment. -/
structure Source where
  /-- Normal paths with the text of the file, or the reason why it cannot be read. -/
  listing : List (FilePath × Except String String)
  /-- The reason why a file that does not exist cannot be read. -/
  absent : FilePath → String
  /-- The reason why a file that exists cannot be read under a path as it is spelled, if any. -/
  misspelling? : FilePath → Option String := fun _ => none

namespace Source

/-- What the listing holds under the normal form of a path. -/
def find? (source : Source) (p : FilePath) : Option (Except String String) :=
  (source.listing.find? (·.1 == p.normalize)).map Prod.snd

/-- Whether a file exists. -/
def has (source : Source) (p : FilePath) : Bool :=
  (source.find? p).isSome

/-- The text of a file, or the reason why it cannot be read. -/
def read (source : Source) (p : FilePath) : Except String String :=
  match source.find? p with
  | none => .error (source.absent p)
  | some content =>
    match source.misspelling? p with
    | some reason => .error reason
    | none => content

/-- A file that exists is listed under its normal path. -/
theorem mem_listing_of_has {source : Source} {p : FilePath} (h : source.has p = true) :
    ∃ entry ∈ source.listing, entry.1 = p.normalize := by
  simp only [has, find?, Option.isSome_map] at h
  obtain ⟨entry, hentry⟩ := Option.isSome_iff_exists.1 h
  exact ⟨entry, List.mem_of_find?_eq_some hentry, by simpa using List.find?_some hentry⟩

end Source

/-- Files that are held in memory. A file may be unreadable for a reason of its own. -/
structure MemoryFiles where
  texts : List (FilePath × String)
  unreadable : List (FilePath × Option String)

namespace MemoryFiles

/-- No files. -/
def empty : MemoryFiles := ⟨[], []⟩

/-- Puts a file under a path, in place of the one that is there. -/
def insert (files : MemoryFiles) (p : FilePath) (text : String) : MemoryFiles :=
  { files with texts := (p.normalize, text) :: files.texts.filter (·.1 != p.normalize) }

/-- Removes the file under a path. -/
def remove (files : MemoryFiles) (p : FilePath) : MemoryFiles :=
  { files with texts := files.texts.filter (·.1 != p.normalize) }

/-- Makes a path exist whose file cannot be read, for the reason given. Without a reason a file
that is there can still be read. -/
def spoil (files : MemoryFiles) (p : FilePath) (reason : Option String) : MemoryFiles :=
  { files with unreadable := (p.normalize, reason) :: files.unreadable.filter (·.1 != p.normalize) }

/-- Takes back `spoil`. -/
def unspoil (files : MemoryFiles) (p : FilePath) : MemoryFiles :=
  { files with unreadable := files.unreadable.filter (·.1 != p.normalize) }

/-- The reason why a file that is not in memory cannot be read. -/
def notLoaded (p : FilePath) : String :=
  p.text ++ " not loaded"

/-- What reading a path that was spoiled yields. -/
def spoiledContent (files : MemoryFiles) (p : FilePath) (reason : Option String) :
    Except String String :=
  match reason with
  | some reason => .error reason
  | none =>
    match files.texts.find? (·.1 == p) with
    | some (_, text) => .ok text
    | none => .error (notLoaded p)

/-- The files as a source. -/
def source (files : MemoryFiles) : Source :=
  { listing :=
      files.unreadable.map (fun (p, reason) => (p, files.spoiledContent p reason)) ++
        files.texts.map fun (p, text) => (p, .ok text)
    absent := notLoaded }

end MemoryFiles

end SchemaAtlas
