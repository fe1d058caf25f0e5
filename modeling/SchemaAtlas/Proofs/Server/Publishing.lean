import Mathlib.Data.List.Induction
import SchemaAtlas.Proofs.Server.Lines

/-!
# What a server publishes

Of all that can be in a line only a call of the tool that scans has an effect, and only if its
scan succeeds: the snapshot of that scan is published. So whatever the lines were and whatever
happened to the files, the published snapshot is the one of the last call that succeeded, and the
calls that only look at the snapshot are answered from it.

* `receive_of_toolCall`, `receive_of_no_toolCall`   a line that calls a tool, and any other
* `receive_snd`                                     what a line does to the server
* `snapshot_serve`                                  what is published behind lines
* `published_serve`                                 line by line, and what the answers depend on
-/

namespace SchemaAtlas.Server

variable {server : Server} {disk : Disk} {line : String}

/-! ## Publishing -/

/-- The server with a snapshot published, if there is one to publish. -/
def publish (server : Server) : Option Snapshot → Server
  | some s => { server with indexer := { server.indexer with store := ⟨s⟩ } }
  | none => server

@[simp]
theorem snapshot_publish (server : Server) (published : Option Snapshot) :
    (server.publish published).snapshot = published.getD server.snapshot := by
  cases published <;> rfl

/-- What a scan of the project as it is on a disk gives. -/
def scanned (server : Server) (disk : Disk) : Except ScanError Snapshot :=
  (Scan.run disk.source server.indexer.options server.workspace.entry none).result

@[simp]
theorem scanned_publish (server : Server) (published : Option Snapshot) :
    (server.publish published).scanned = server.scanned := by
  cases published <;> rfl

/-- A rescan publishes what it scans. -/
theorem rescan_eq (server : Server) (disk : Disk) :
    server.rescan disk =
      (server.scanned disk, server.publish (server.scanned disk).toOption) := by
  simp only [rescan, Workspace.rescan, Indexer.scan, scanned]
  split
  · next s hscan =>
    rw [hscan]
    rfl
  · next cause hscan =>
    rw [hscan]
    rfl

/-- A server starts with the first scan, as if by a rescan with nothing published before. -/
theorem snapshot_start (workspace : Workspace) (disk : Disk) :
    (start workspace disk).snapshot =
      ((⟨workspace, workspace.indexer⟩ : Server).scanned disk).toOption.getD .empty := by
  have hstart : start workspace disk =
      (⟨workspace, workspace.indexer⟩ : Server).publish
        ((⟨workspace, workspace.indexer⟩ : Server).scanned disk).toOption :=
    congrArg Prod.snd (rescan_eq ⟨workspace, workspace.indexer⟩ disk)
  rw [hstart, snapshot_publish]
  rfl

/-- Calling a tool has an effect only if the tool scans. -/
theorem callTool_snd (server : Server) (disk : Disk) (tool : Tool) (arguments : Json) :
    (server.callTool disk tool arguments).2 =
      server.publish (if tool = .rescan then (server.scanned disk).toOption else none) := by
  cases tool with
  | rescan =>
    simp only [callTool, rescan_eq]
    split <;> rfl
  | definition => rfl
  | operations => rfl
  | persisted => rfl
  | typeGraph => rfl
  | stats => rfl

/-! ## Calls of tools -/

/-- A request that calls a tool. -/
structure ToolCall where
  id : Json
  /-- The name that is given, whether or not a tool has it. -/
  name : String
  arguments : Json

/-- The call in a line. -/
def toolCall? (line : String) : Option ToolCall := do
  let message ← Message.ofText? line
  let id ← message.id
  let params ← message.call?
  let name ← (params.member? "name").bind Json.string?
  return { id, name, arguments := (params.member? "arguments").getD .null }

/-- What a call comes to. -/
def perform (server : Server) (disk : Disk) (call : ToolCall) : Except CallError Json × Server :=
  match Tool.ofName? call.name with
  | none => (.error (.unknownTool call.name), server)
  | some tool => server.callTool disk tool call.arguments

variable {call : ToolCall}

/-- A line that calls a tool is answered by what the tool says. -/
theorem receive_of_toolCall (h : toolCall? line = some call) :
    server.receive disk line =
      (some (replyToCall call.id (server.perform disk call).1),
        (server.perform disk call).2) := by
  simp only [toolCall?, Option.bind_eq_bind, Option.bind_eq_some_iff] at h
  obtain ⟨message, hmessage, id, hid, params, hparams, name, ⟨value, hvalue, hname⟩, hcall⟩ := h
  obtain rfl := Option.some.inj hcall
  have hperform : server.call disk params = server.perform disk
      { id, name, arguments := (params.member? "arguments").getD .null } := by
    cases htool : Tool.ofName? name with
    | none => simp only [Server.call, perform, hvalue, Option.bind_some, hname, htool]
    | some tool => simp only [Server.call, perform, hvalue, Option.bind_some, hname, htool]
  rw [receive_of_request hmessage hid, respond_of_call hparams, hperform]

/-- A line that calls no tool is answered whatever the server and the files are, and leaves the
server as it is. -/
theorem receive_of_no_toolCall (h : toolCall? line = none) :
    ∃ answer, ∀ (server : Server) (disk : Disk), server.receive disk line = (answer, server) := by
  by_cases hblank : IsBlank line
  · exact ⟨none, fun _ _ => receive_of_blank hblank⟩
  cases hmessage : Message.ofText? line with
  | none => exact ⟨_, fun _ _ => receive_of_malformed hblank hmessage⟩
  | some message =>
    cases hid : message.id with
    | none => exact ⟨none, fun _ _ => receive_of_notification hmessage hid⟩
    | some id =>
      cases hparams : message.call? with
      | none =>
        obtain ⟨outcome, hrespond⟩ := respond_of_not_call hparams
        exact ⟨some ⟨id, outcome⟩, fun server disk => by
          rw [receive_of_request hmessage hid, hrespond]⟩
      | some params =>
        -- only the name of the tool can be missing
        have hname : (params.member? "name").bind Json.string? = none := by
          simp only [toolCall?, hmessage, hid, hparams, Option.bind_eq_bind, Option.bind_some] at h
          cases hname : (params.member? "name").bind Json.string? with
          | none => rfl
          | some name =>
            rw [hname] at h
            cases h
        exact ⟨some (replyToCall id (.error .noToolName)), fun server disk => by
          rw [receive_of_request hmessage hid, respond_of_call hparams]
          simp only [Server.call, hname]⟩

/-! ## What lines publish -/

/-- The snapshot that a line has published: the one of a scan of the project as it is then, if the
line calls the tool that scans and the scan succeeds. -/
def rescanned? (server : Server) (disk : Disk) (line : String) : Option Snapshot :=
  (toolCall? line).bind fun call =>
    if call.name = "schema_rescan" then (server.scanned disk).toOption else none

theorem Tool.name_of_ofName? {name : String} {tool : Tool} (h : Tool.ofName? name = some tool) :
    tool.name = name := by
  simpa using List.find?_some h

/-- The tool that scans again is the one of that name. -/
theorem Tool.eq_rescan_iff {name : String} {tool : Tool} (h : Tool.ofName? name = some tool) :
    tool = .rescan ↔ name = "schema_rescan" := by
  rw [← Tool.name_of_ofName? h]
  cases tool <;> decide

/-- What a call does to the server. -/
theorem perform_snd (server : Server) (disk : Disk) (call : ToolCall) :
    (server.perform disk call).2 = server.publish
      (if call.name = "schema_rescan" then (server.scanned disk).toOption else none) := by
  unfold perform
  split
  · next htool =>
    have hname : call.name ≠ "schema_rescan" := by
      intro hname
      rw [hname] at htool
      -- that name is the name of a tool
      revert htool
      decide
    rw [if_neg hname]
    rfl
  · next tool htool => simp only [callTool_snd, Tool.eq_rescan_iff htool]

/-- What a line does to the server. -/
theorem receive_snd (server : Server) (disk : Disk) (line : String) :
    (server.receive disk line).2 = server.publish (server.rescanned? disk line) := by
  cases hcall : toolCall? line with
  | none =>
    obtain ⟨answer, hreceive⟩ := receive_of_no_toolCall hcall
    rw [hreceive, rescanned?, hcall]
    rfl
  | some call =>
    rw [receive_of_toolCall hcall, rescanned?, hcall, Option.bind_some]
    exact perform_snd server disk call

/-- The snapshot of the last of the scans that lines ask for and that succeed, or the one before
all of them. -/
def lastScanned (server : Server) (inputs : List (Disk × String)) : Snapshot :=
  ((inputs.filterMap fun (disk, line) => server.rescanned? disk line).getLast?).getD
    server.snapshot

/-- What is published makes no difference to what a line has scanned. -/
theorem rescanned?_publish (server : Server) (published : Option Snapshot) (disk : Disk)
    (line : String) :
    (server.publish published).rescanned? disk line = server.rescanned? disk line := by
  simp only [rescanned?, scanned_publish]

/-- The last line is received behind all others. -/
theorem serve_snoc (server : Server) (inputs : List (Disk × String)) (disk : Disk)
    (line : String) :
    (server.serve (inputs ++ [(disk, line)])).2 =
      ((server.serve inputs).2.receive disk line).2 := by
  rw [serve_append]
  rfl

/-- What lines publish is what they would publish before all of them. -/
theorem rescanned?_serve (server : Server) (inputs : List (Disk × String)) :
    (server.serve inputs).2.rescanned? = server.rescanned? := by
  induction inputs using List.reverseRecOn with
  | nil => rfl
  | append_singleton inputs input ih =>
    funext disk line
    rw [serve_snoc, receive_snd, rescanned?_publish, ih]

/-- The last line publishes what it has scanned, or leaves everything as it is. -/
theorem snapshot_serve_snoc (server : Server) (inputs : List (Disk × String)) (disk : Disk)
    (line : String) :
    (server.serve (inputs ++ [(disk, line)])).2.snapshot =
      (server.rescanned? disk line).getD (server.serve inputs).2.snapshot := by
  rw [serve_snoc, receive_snd, snapshot_publish, rescanned?_serve]

/-- What is published behind lines. -/
theorem snapshot_serve (server : Server) (inputs : List (Disk × String)) :
    (server.serve inputs).2.snapshot = server.lastScanned inputs := by
  induction inputs using List.reverseRecOn with
  | nil => rfl
  | append_singleton inputs input ih =>
    obtain ⟨disk, line⟩ := input
    rw [snapshot_serve_snoc, ih, lastScanned, lastScanned, List.filterMap_append]
    cases hscan : server.rescanned? disk line with
    | none => simp [hscan]
    | some s => simp [hscan]

/-! ## Calls that only look at the snapshot -/

/-- Whether a call asks for what is in the published snapshot: a definition, the statistics, the
types, or the persisted documents without their texts. -/
def ToolCall.LooksOnly (call : ToolCall) : Prop :=
  call.name ∈ ["schema_definition", "schema_stats", "schema_type_graph"] ∨
    call.name = "schema_persisted" ∧
      (call.arguments.member? "manifest").bind Json.bool? ≠ some true

instance : DecidablePred ToolCall.LooksOnly := fun _ => inferInstanceAs (Decidable (_ ∨ _))

/-- Such a call comes to the same on all servers that publish the same snapshot, whatever their
files are. -/
theorem ToolCall.LooksOnly.perform_fst (h : call.LooksOnly) {other : Server}
    (hsame : other.snapshot = server.snapshot) (disk disk' : Disk) :
    (other.perform disk' call).1 = (server.perform disk call).1 := by
  -- three tools read the snapshot only; the fourth does so unless it is asked for the manifest
  rcases h with hname | ⟨hname, hmanifest⟩
  · simp only [List.mem_cons, List.not_mem_nil, or_false] at hname
    rcases hname with hname | hname | hname
    · have htool : Tool.ofName? call.name = some .definition := by rw [hname]; decide
      simp only [perform, htool, callTool, hsame]
    · have htool : Tool.ofName? call.name = some .stats := by rw [hname]; decide
      simp only [perform, htool, callTool, hsame]
    · have htool : Tool.ofName? call.name = some .typeGraph := by rw [hname]; decide
      simp only [perform, htool, callTool, hsame]
  · have htool : Tool.ofName? call.name = some .persisted := by rw [hname]; decide
    have hwithout :
        ((call.arguments.member? "manifest").bind Json.bool?).getD false = false := by
      cases hflag : (call.arguments.member? "manifest").bind Json.bool? with
      | none => rfl
      | some flag =>
        cases flag with
        | true => exact absurd hflag hmanifest
        | false => rfl
    simp only [perform, htool, callTool, callPersisted, hwithout, Bool.false_eq_true, if_false,
      hsame]

/-- Behind any lines, and whatever happened to the files, the published snapshot is the one of the
last call of the tool that scans whose scan succeeded; a further line leaves it as it is unless it
is such a call, and then the snapshot of its scan is published. So a call that only looks at the
snapshot is answered alike wherever that last scan was the same. -/
theorem published_serve (server : Server) (inputs : List (Disk × String)) (disk : Disk)
    (line : String) :
    (server.serve inputs).2.snapshot = server.lastScanned inputs ∧
    (server.serve (inputs ++ [(disk, line)])).2.snapshot =
      (server.rescanned? disk line).getD (server.serve inputs).2.snapshot ∧
    ∀ call ∈ toolCall? line, call.LooksOnly →
      ∀ (other : Server) (others : List (Disk × String)) (disk' : Disk),
        other.lastScanned others = server.lastScanned inputs →
        ((other.serve others).2.receive disk' line).1 =
          ((server.serve inputs).2.receive disk line).1 := by
  refine ⟨snapshot_serve server inputs, snapshot_serve_snoc server inputs disk line, ?_⟩
  intro call hcall hlooks other others disk' hsame
  -- what readers see is determined by the last successful scan
  have hsnapshot : (other.serve others).2.snapshot = (server.serve inputs).2.snapshot := by
    rw [snapshot_serve, snapshot_serve, hsame]
  rw [receive_of_toolCall hcall, receive_of_toolCall hcall, hlooks.perform_fst hsnapshot]

/-- A project with one type. -/
def smallDisk : Disk :=
  .directory [("w", .directory [("index.graphql", .file "type Query \x7b hello: String \x7d")])]

/-- The server of the project behind its first scan. -/
def small : Server :=
  start ⟨⟨"/w"⟩, {}, ⟨"/w/index.graphql"⟩⟩ smallDisk

/-- The files are removed, so a scan fails, and the statistics stay what they were. -/
theorem published_serve_removed :
    ((small.serve [(.directory [], callLine "schema_rescan")]).2.receive
        (.directory []) (callLine "schema_stats")).1 =
      (small.receive smallDisk (callLine "schema_stats")).1 := by
  obtain ⟨call, hcall, hlooks⟩ :
      ∃ call ∈ toolCall? (callLine "schema_stats"), call.LooksOnly := by
    decide +kernel
  -- the files are gone, so the scan fails and publishes nothing
  have hfails : (small.scanned (.directory [])).toOption = none := by
    decide +kernel
  have hsame : small.lastScanned [(.directory [], callLine "schema_rescan")] =
      small.lastScanned [] := by
    simp [lastScanned, rescanned?, hfails]
  exact (published_serve small [] smallDisk (callLine "schema_stats")).2.2 call hcall hlooks small
    [(.directory [], callLine "schema_rescan")] (.directory []) hsame

end SchemaAtlas.Server
