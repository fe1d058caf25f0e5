import SchemaAtlas.Config.Watched

/-!
# Changes of files
-/

namespace SchemaAtlas

/-- What can happen to files. -/
inductive ChangeKind where
  | created
  | modified
  | removed
  /-- A file was only looked at. -/
  | accessed
  | other
deriving DecidableEq, Repr

/-- Something that happened to files. -/
structure Change where
  kind : ChangeKind
  paths : List FilePath
deriving DecidableEq, Repr

/-- Whether a kind of change can alter what a scan finds. -/
def ChangeKind.alters : ChangeKind → Bool
  | created | modified | removed => true
  | accessed | other => false

/-- Whether a change calls for a rescan: it can alter what is found in a file that matters. -/
def Config.isRelevant (config : Config) (change : Change) : Bool :=
  change.kind.alters && change.paths.any fun path => config.isWatched path.text

end SchemaAtlas
