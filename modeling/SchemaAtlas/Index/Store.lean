import SchemaAtlas.Index.Basic

/-!
# The published index

Readers see the snapshot that was published last, whole; publishing hands back the snapshot that
it replaces.
-/

namespace SchemaAtlas

/-- A holder of the published snapshot. -/
structure Store where
  current : Snapshot

namespace Store

/-- A store before anything is published. -/
def empty : Store := ⟨.empty⟩

/-- Replaces the published snapshot, and answers the one it replaces. -/
def publish (store : Store) (snapshot : Snapshot) : Snapshot × Store :=
  (store.current, ⟨snapshot⟩)

/-- Publishes the snapshot that holds nothing. -/
def clear (store : Store) : Store :=
  (store.publish .empty).2

end Store

end SchemaAtlas
