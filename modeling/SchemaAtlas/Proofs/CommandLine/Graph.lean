import SchemaAtlas.Proofs.CommandLine.EdgeForms
import SchemaAtlas.Proofs.Scan.Cancellation
import SchemaAtlas.Proofs.Scan.EdgeNames

/-!
# The graph in its formats

The command for the graph of types answers in three formats, two of them from a list of edges and
one from the flowchart of the snapshot. Text and JSON show the edges that were asked for. The chart
shows each edge of the whole graph in one line, whether or not it was asked for one type.

* `edges_perm_edgesAt`       the list of edges, without repeats for edges from a type to itself
* `shows_flowchart`          the chart, from the edges of a scan
* `shows_run_graph`          what the command shows in each format
-/

namespace SchemaAtlas

/-- The edges that are asked for: all of them, or those from and to a type. -/
def Snapshot.edgesAt (s : Snapshot) : Option String → List Relationship
  | none => s.relationships
  | some type => s.relationships.filter fun edge => edge.source == type || edge.target == type

/-- The edges that are asked for are edges of the snapshot. -/
theorem Snapshot.edgesAt_subset (s : Snapshot) (type : Option String) :
    s.edgesAt type ⊆ s.relationships := by
  cases type with
  | none => exact List.Subset.refl _
  | some type => exact List.filter_subset_self _

namespace CommandLine

/-- Whether an output shows edges and no others: as text and JSON each of them as often as it is
given, and as a chart each different one in one line of its own. -/
def Shows (format : Format) (edges : List Relationship) (output : String) : Prop :=
  ∃ printed, format.Prints printed output ∧
    match format with
    | .text | .json => printed.Perm edges
    | .mermaid =>
      (printed.map Relationship.chartLine).Nodup ∧ ∀ edge, edge ∈ printed ↔ edge ∈ edges

/-- The edges at a type are listed in two parts, and an edge from the type to itself is in the first
one only. -/
theorem edges_perm_edgesAt (s : Snapshot) (type : Option String) :
    (edges s type).Perm (s.edgesAt type) := by
  cases type with
  | none => exact .refl _
  | some type =>
    -- the parts are the edges that start at the type and those that do not
    let found := s.edgesAt (some type)
    have hout : found.filter (·.source == type) = s.outgoing type := by
      simp only [found, Snapshot.edgesAt, List.filter_filter, Snapshot.outgoing]
      congr 1
      funext edge
      cases edge.source == type <;> simp
    have hin : found.filter (fun edge => !edge.source == type) =
        (s.incoming type).filter (·.source != type) := by
      simp only [found, Snapshot.edgesAt, List.filter_filter, Snapshot.incoming]
      congr 1
      funext edge
      cases h : edge.source == type <;> simp [bne, h]
    rw [edges, ← hout, ← hin]
    exact List.filter_append_perm _ found

/-- The chart of a snapshot shows all of its edges. -/
theorem shows_flowchart {s : Snapshot} (h : ∀ edge ∈ s.relationships, edge.IsWordy) :
    Shows .mermaid s.relationships s.flowchart := by
  have hmem (edge : Relationship) : edge ∈ s.relationships.eraseDups ↔ edge ∈ s.relationships :=
    List.mem_eraseDups
  have hprints := Format.mermaid.prints_edges fun edge hedge => h edge ((hmem edge).1 hedge)
  refine ⟨s.relationships.eraseDups, ?_, nodup_chartLines h, hmem⟩
  rw [Snapshot.flowchart, firstOnChart_eq_eraseDups h]
  exact hprints

/-- As text and JSON the list of edges shows those that are asked for. -/
theorem shows_edges {s : Snapshot} (h : ∀ edge ∈ s.relationships, edge.IsWordy)
    (type : Option String) {format : Format} (hformat : format ≠ .mermaid) :
    Shows format (s.edgesAt type) (format.edges (edges s type)) := by
  have hperm := edges_perm_edgesAt s type
  have hwordy : ∀ edge ∈ edges s type, edge.IsWordy := by
    intro edge hedge
    exact h edge (s.edgesAt_subset type (hperm.mem_iff.1 hedge))
  refine ⟨edges s type, format.prints_edges hwordy, ?_⟩
  cases format with
  | text => exact hperm
  | json => exact hperm
  | mermaid => exact absurd rfl hformat

/-- What the command answers about a snapshot. -/
def graphText (s : Snapshot) (type : Option String) (format : Format) : String :=
  match format with
  | .mermaid => s.flowchart
  | _ => format.edges (edges s type)

section Running

variable {invocation : Invocation} {disk : Disk} {working : Disk.Place} {workspace : Workspace}
  {type : Option String} {format : Format} {s : Snapshot}

/-- A rescan is a scan from the entry of the project, with the settings of the project. -/
theorem rescan_fst (workspace : Workspace) (disk : Disk) :
    (workspace.rescan workspace.indexer disk).1 =
      (Scan.run disk.source workspace.config.scanOptions workspace.entry none).result :=
  congrArg Scan.result (Indexer.scan_fst workspace.indexer)

/-- A format is read from its name. -/
theorem format_of_graph : (Command.graph type format.name).format = .ok format := by
  cases format <;> rfl

/-- The command answers as soon as the project is opened and scanned. -/
theorem run_graph (hcommand : invocation.command = .graph type format.name)
    (hopen : invocation.workspace disk working = .ok workspace)
    (hscan : (workspace.rescan workspace.indexer disk).1 = .ok s) (elapsed : Elapsed) :
    invocation.run disk working elapsed =
      (Outcome.success (graphText s type format)).withWarnings (warnings s.diagnostics) := by
  simp only [Invocation.run, hcommand, format_of_graph, hopen, bind, Except.bind, hscan,
    Except.mapError]
  cases format with
  | text =>
    exact congrArg (fun text => (Outcome.success text).withWarnings (warnings s.diagnostics))
      (edgesText_eq (edges s type))
  | json => rfl
  | mermaid => rfl

/-- The command succeeds on every project that is opened and scanned. In text and JSON it shows the
edges that were asked for, and as a chart it shows all edges, whatever was asked for. -/
theorem shows_run_graph (hcommand : invocation.command = .graph type format.name)
    (hopen : invocation.workspace disk working = .ok workspace)
    (hscan : (workspace.rescan workspace.indexer disk).1 = .ok s) (elapsed : Elapsed) :
    (invocation.run disk working elapsed).status = 0 ∧
      Shows format (s.edgesAt (if format = .mermaid then none else type))
        (invocation.run disk working elapsed).output := by
  -- what a scan draws goes from name to name, so no edge spoils the text
  have hwordy : ∀ edge ∈ s.relationships, edge.IsWordy :=
    Scan.isWordy_of_mem_relationships ((rescan_fst workspace disk).symm.trans hscan)
  rw [run_graph hcommand hopen hscan elapsed]
  refine ⟨rfl, ?_⟩
  cases format with
  | text => exact shows_edges hwordy type (by decide)
  | json => exact shows_edges hwordy type (by decide)
  | mermaid => exact shows_flowchart hwordy

end Running

/-! ## A chart of one type -/

/-- A project with two edges that have no type in common. -/
def shopDisk : Disk :=
  .directory [("w", .directory [("index.graphql", .file
    "type Query \x7b user: User \x7d type Shop \x7b owner: Person \x7d")])]

/-- The directory of the project. -/
def shopPlace : Disk.Place :=
  ⟨.directory [("index.graphql", .file
    "type Query \x7b user: User \x7d type Shop \x7b owner: Person \x7d")], [("w", shopDisk)]⟩

/-- The project as it is opened. -/
def shop : Workspace :=
  ⟨⟨"/w"⟩, {}, ⟨"/w/index.graphql"⟩⟩

/-- The question for the edges at one type, in a format. -/
def askUser (format : Format) : Invocation :=
  { command := .graph (some "User") format.name, project := ⟨".", none⟩, verbose := false }

/-- The project is opened where the question is asked. -/
theorem workspace_askUser (format : Format) :
    (askUser format).workspace shopDisk shopPlace = .ok shop := by
  have hopen : Workspace.open shopDisk shopPlace "." none = .ok shop := by decide +kernel
  simp only [Invocation.workspace, askUser, hopen]
  rfl

/-- What the graph of the project is. -/
def shopEdges : List Relationship :=
  [⟨"Query", "User", "user", false⟩, ⟨"Shop", "Person", "owner", false⟩]

/-- The scan of the project succeeds and finds the two edges. -/
theorem exists_shop_scan :
    ∃ s, (shop.rescan shop.indexer shopDisk).1 = .ok s ∧ s.relationships = shopEdges := by
  obtain ⟨s, hok, hedges⟩ :
      ∃ s, (Scan.run shopDisk.source shop.config.scanOptions shop.entry none).result = .ok s ∧
        s.relationships = shopEdges :=
    Scan.exists_ok_of_within 2 _ (by decide +kernel)
  exact ⟨s, (rescan_fst shop shopDisk).trans hok, hedges⟩

/-- In text the command shows the edge at `User`, and as a chart all edges. -/
theorem shows_run_graph_shop :
    ∃ s, (shop.rescan shop.indexer shopDisk).1 = .ok s ∧
      (((askUser .text).run shopDisk shopPlace ⟨0, ""⟩).status = 0 ∧
        Shows .text (s.edgesAt (some "User"))
          ((askUser .text).run shopDisk shopPlace ⟨0, ""⟩).output) ∧
      ((askUser .mermaid).run shopDisk shopPlace ⟨0, ""⟩).status = 0 ∧
        Shows .mermaid (s.edgesAt none)
          ((askUser .mermaid).run shopDisk shopPlace ⟨0, ""⟩).output := by
  obtain ⟨s, hscan, -⟩ := exists_shop_scan
  exact ⟨s, hscan, shows_run_graph rfl (workspace_askUser .text) hscan _,
    shows_run_graph rfl (workspace_askUser .mermaid) hscan _⟩

/-- Asked for the edges at `User`, the chart shows an edge between two other types as well. -/
theorem not_shows_run_graph_shop :
    ∃ s, (shop.rescan shop.indexer shopDisk).1 = .ok s ∧
      ((askUser .mermaid).run shopDisk shopPlace ⟨0, ""⟩).status = 0 ∧
      ¬ Shows .mermaid (s.edgesAt (some "User"))
        ((askUser .mermaid).run shopDisk shopPlace ⟨0, ""⟩).output := by
  obtain ⟨s, hscan, hedges⟩ := exists_shop_scan
  refine ⟨s, hscan, ?_⟩
  rw [run_graph rfl (workspace_askUser .mermaid) hscan]
  refine ⟨rfl, ?_⟩
  rintro ⟨printed, hprints, hnodup, hmem⟩
  have hat : s.edgesAt (some "User") = [⟨"Query", "User", "user", false⟩] := by
    simp [Snapshot.edgesAt, hedges, shopEdges]
  rw [hat] at hmem
  -- one edge was asked for, so there would be one line
  have hprinted : printed = [⟨"Query", "User", "user", false⟩] := by
    rw [← List.perm_singleton, List.perm_ext_iff_of_nodup (.of_map _ hnodup) (by simp)]
    exact hmem
  have hchart : s.flowchart = Format.mermaid.edges printed := hprints.reads
  rw [Snapshot.flowchart, hedges, hprinted] at hchart
  revert hchart
  decide +kernel

end CommandLine

end SchemaAtlas
