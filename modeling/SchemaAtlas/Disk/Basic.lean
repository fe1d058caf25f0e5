import SchemaAtlas.Project.Source

/-!
# Files on disk

A disk is a tree of named directories and files. Paths are walked piece by piece as they are
written, from the root or from the working directory: every piece but the last must lead to a
directory, and a step up from the root stays at the root.
-/

namespace SchemaAtlas

/-- A file or a directory. -/
inductive Disk where
  | file (text : String)
  /-- A file whose bytes are no text. -/
  | binary
  | directory (entries : List (String × Disk))

namespace Disk

/-- Why a file cannot be found or read. -/
inductive Fault where
  | notFound
  | notADirectory
  | isADirectory
  | nameTooLong
  | notText
deriving DecidableEq, Repr

/-- The words of the operating system for a fault. -/
def Fault.message : Fault → String
  | .notFound => "No such file or directory (os error 2)"
  | .notADirectory => "Not a directory (os error 20)"
  | .isADirectory => "Is a directory (os error 21)"
  | .nameTooLong => "File name too long (os error 36)"
  | .notText => "stream did not contain valid UTF-8"

/-- The entries of a directory. -/
def entries? : Disk → Option (List (String × Disk))
  | directory entries => some entries
  | _ => none

/-- Whether this is a file. -/
def isFile : Disk → Bool
  | directory _ => false
  | _ => true

/-- The entry of a directory with a given name. -/
def child? (disk : Disk) (name : String) : Option Disk :=
  disk.entries?.bind fun entries => (entries.find? (·.1 == name)).map Prod.snd

/-- A place on a disk: what is there, and the directories above it with the names that lead down,
innermost first. -/
structure Place where
  here : Disk
  above : List (String × Disk)

/-- The names that lead from the root to a place. -/
def Place.names (place : Place) : List String :=
  (place.above.map Prod.fst).reverse

/-- The number of bytes that a name in a directory can have. -/
def longestName : Nat :=
  255

/-- The number of bytes that a path can have. -/
def longestPath : Nat :=
  4095

/-- The place that a piece of a path leads to. -/
def Place.follow (place : Place) (piece : List Char) : Except Fault Place :=
  match place.here.entries? with
  | none => .error .notADirectory
  | some _ =>
    if piece = [] ∨ piece = ['.'] then .ok place
    else if piece = ['.', '.'] then
      match place.above with
      | [] => .ok place
      | (_, parent) :: above => .ok ⟨parent, above⟩
    else
      let name := String.ofList piece
      if longestName < name.utf8ByteSize then .error .nameTooLong
      else
        match place.here.child? name with
        | some entry => .ok ⟨entry, (name, place.here) :: place.above⟩
        | none => .error .notFound

/-- The place at the root of a disk. -/
def root (disk : Disk) : Place :=
  ⟨disk, []⟩

/-- The place that a path leads to, where a path that does not start at the root starts at the
place `working`. -/
def locateFrom (disk : Disk) (working : Place) (p : FilePath) : Except Fault Place :=
  if p.text = "" then .error .notFound
  else if longestPath < p.text.utf8ByteSize then .error .nameTooLong
  else
    let start := if p.isAbsolute then disk.root else working
    (FilePath.pieces p.text.toList).foldlM Place.follow start

/-- The place that a path from the root leads to. -/
def locate (disk : Disk) (p : FilePath) : Except Fault Place :=
  disk.locateFrom disk.root p

/-- Whether a path leads to a file. -/
def hasFile (disk : Disk) (p : FilePath) : Bool :=
  match disk.locate p with
  | .ok place => place.here.isFile
  | .error _ => false

/-- The text of the file or directory. -/
def content : Disk → Except Fault String
  | file text => .ok text
  | binary => .error .notText
  | directory _ => .error .isADirectory

/-- The text of the file that a path leads to. -/
def read (disk : Disk) (p : FilePath) : Except Fault String := do
  (← disk.locate p).here.content

/-- The path from the root to a place. -/
def Place.path (place : Place) : FilePath :=
  FilePath.Route.toFilePath { rooted := true, steps := place.names.map FilePath.Step.down }

/-! ## Changes -/

/-- A directory in which the entry of a name is set from what it was; nothing removes it. -/
def setEntry (name : String) (entry : Option Disk) (entries : List (String × Disk)) :
    List (String × Disk) :=
  let others := entries.filter (·.1 != name)
  match entry with
  | some entry => others ++ [(name, entry)]
  | none => others

/-- Sets what is at the end of a way down from a directory, and makes the directories on the way. -/
def put (new : Option Disk) : List String → Disk → Disk
  | [], disk => new.getD disk
  | [name], disk => directory (setEntry name new (disk.entries?.getD []))
  | name :: next :: more, disk =>
    let inner := (disk.child? name).getD (directory [])
    directory (setEntry name (some (put new (next :: more) inner)) (disk.entries?.getD []))

/-- The names on the way that a path describes from the root. -/
def wayTo (p : FilePath) : List String :=
  p.normalize.route.steps.filterMap fun
    | .down name => some name
    | _ => none

/-- Puts a file or directory under a path from the root. -/
def insert (disk : Disk) (p : FilePath) (new : Disk) : Disk :=
  put (some new) (wayTo p) disk

/-- Whether a file can be written at the end of a way: directories lead there as far as anything is
there, and it is no directory itself. -/
def isWritable : List String → Disk → Bool
  | [], disk => disk.isFile
  | name :: way, directory entries =>
    match (directory entries).child? name with
    | some entry => isWritable way entry
    | none => true
  | _ :: _, _ => false

/-- Writes a file under a path from the root, if it can be written. -/
def write (disk : Disk) (p : FilePath) (text : String) : Disk :=
  if isWritable (wayTo p) disk then disk.insert p (.file text) else disk

/-- Removes the file under a path from the root, if there is one. -/
def removeFile (disk : Disk) (p : FilePath) : Disk :=
  if disk.hasFile p then put none (wayTo p) disk else disk

/-! ## As a source -/

mutual

/-- The files at and below a place, with the names that lead to them. -/
def filesAt (way : List String) : Disk → List (List String × Except Fault String)
  | directory entries => filesBelow way entries
  | disk => [(way.reverse, disk.content)]

/-- The files in the entries of a directory. -/
def filesBelow (way : List String) : List (String × Disk) → List (List String × Except Fault String)
  | [] => []
  | (name, entry) :: rest => filesAt (name :: way) entry ++ filesBelow way rest

end

/-- A fault as the reason that a source gives. -/
def reasonOf : Except Fault String → Except String String
  | .ok text => .ok text
  | .error fault => .error fault.message

/-- The files of a disk as a source of paths from the root. A step up at the start of a path stays
at the root, and a path is only read if it leads to its file as it is spelled. -/
def source (disk : Disk) : Source :=
  let path (steps : List FilePath.Step) : FilePath :=
    FilePath.Route.toFilePath { rooted := true, steps }
  { listing := (filesAt [] disk).flatMap fun (way, content) =>
      let steps := way.map FilePath.Step.down
      [(path steps, reasonOf content), (path (.up :: steps), reasonOf content)]
    absent := fun p =>
      match disk.read p with
      | .ok _ => Fault.notFound.message
      | .error fault => fault.message
    misspelling? := fun p =>
      match disk.read p with
      | .ok _ => none
      | .error fault => some fault.message }

end Disk

end SchemaAtlas
