import SchemaAtlas.Config.Watched

/-!
# Finding the entry file

The entry file is the one that the settings name, if it exists. Otherwise it is the shallowest
file of that name below the project directory, and of several at one depth the first when
directories are walked in the order of their names. Directories whose names start with a dot or
are excluded are not searched; the project directory itself always is.
-/

namespace SchemaAtlas.Config

/-- Whether an entry of a directory is passed over: its name starts with a dot, or is an excluded
pattern but for slashes at the end. -/
def isPassedOver (config : Config) (name : String) : Bool :=
  name.toList.head? = some '.' ||
    config.excluded.any fun pattern => withoutSlashes pattern.toList = name.toList

/-- The entries of a directory in the order of their names, without those that are passed over. -/
def searched (config : Config) (entries : List (String × Disk)) : List (String × Disk) :=
  let kept := entries.filter fun (name, _) => !config.isPassedOver name
  kept.mergeSort fun a b => decide (a.1 ≤ b.1)

/-- The files of a name in a directory at most `levels` levels down, each with the names that lead
to it, in the order in which they are walked. -/
def filesNamed (config : Config) (wanted : String) : Nat → List (String × Disk) → List (List String)
  | 0, _ => []
  | levels + 1, entries =>
    (config.searched entries).flatMap fun (name, entry) =>
      (if entry.isFile && name == wanted then [[name]] else []) ++
        (filesNamed config wanted levels (entry.entries?.getD [])).map (name :: ·)

/-- The first of the shortest lists. -/
def shortest? : List (List String) → Option (List String)
  | [] => none
  | names :: rest =>
    match shortest? rest with
    | some best => if best.length < names.length then some best else some names
    | none => some names

/-- The entry file found by search below a directory. -/
def foundEntry (config : Config) (disk : Disk) (directory : FilePath) : Option FilePath := do
  let wanted ← (FilePath.mk config.entry).fileName?
  match (disk.locate directory).toOption with
  | none => none
  | some place =>
    if place.here.isFile then
      if directory.fileName? = some wanted then some directory else none
    else
      let found := config.filesNamed wanted config.entrySearchDepth (place.here.entries?.getD [])
      let names ← shortest? found
      return names.foldl (fun path name => path.join ⟨name⟩) directory

/-- The entry file of a project, if there is one. -/
def entryFile (config : Config) (disk : Disk) (directory : FilePath) : Option FilePath :=
  let direct := directory.join ⟨config.entry⟩
  if disk.hasFile direct then some direct else config.foundEntry disk directory

end SchemaAtlas.Config
