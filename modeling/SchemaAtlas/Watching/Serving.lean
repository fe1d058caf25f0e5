import SchemaAtlas.Server.Session
import SchemaAtlas.Watching.Phase

/-!
# Rescans that follow changes
-/

namespace SchemaAtlas.Server

/-- A server after a change of files and the rescan that it calls for, if any. A scan that fails
leaves the published snapshot. -/
def afterChange (server : Server) (disk : Disk) (change : Change) : Server :=
  if server.workspace.config.isRelevant change then (server.rescan disk).2 else server

end SchemaAtlas.Server
