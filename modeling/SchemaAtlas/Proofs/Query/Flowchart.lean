import Mathlib.Data.Finset.Card
import SchemaAtlas.Proofs.Query.TypeGraph

/-!
# A flowchart line by line

A flowchart is a header and lines that end in line feeds. Names that are words hold no line feed, so
the lines are told apart in the text, and each of them stands for one edge: there is a line for
every different edge and for nothing else, where the edge occurs first.

* `Relationship.arrow`              what a line says
* `IsChart`                         the text of a chart and its lines
* `Snapshot.exists_isChart`         the flowchart of a snapshot is the chart of its edges
-/

namespace SchemaAtlas

namespace Relationship

variable {a b : Relationship}

/-- What the line of an edge says. -/
def arrow (edge : Relationship) : String :=
  "  " ++ edge.source ++ " -->|" ++ edge.label ++ "| " ++ edge.target

theorem chartLine_eq (edge : Relationship) : edge.chartLine = edge.arrow ++ "\n" := rfl

/-- An arrow between names is on one line. -/
theorem IsWordy.not_mem_arrow (h : a.IsWordy) : '\n' ∉ a.arrow.toList := by
  have hname {name : String} (hchars : ∀ c ∈ name.toList, Token.isNameChar c = true) :
      '\n' ∉ name.toList :=
    not_mem_of_isNameChar hchars (by decide)
  have hlabel : '\n' ∉ a.label.toList := by
    rw [toList_label]
    split <;> simp [hname h.field]
  simp [arrow, hname h.source, hname h.target, hlabel]

/-- Arrows between names tell their edges apart. -/
theorem IsWordy.arrow_injective (ha : a.IsWordy) (hb : b.IsWordy) (h : a.arrow = b.arrow) :
    a = b :=
  ha.chartLine_injective hb (by rw [chartLine_eq, chartLine_eq, h])

end Relationship

/-- Whether a text is the chart of edges: a header, and lines behind it, one for each different edge
and in the order in which the edges occur first. -/
structure IsChart (edges : List Relationship) (chart : String) (lines : List String) : Prop where
  /-- Each line ends in a line feed. -/
  splitOn_eq : chart.toList.splitOn '\n' = "graph LR".toList :: (lines.map String.toList ++ [[]])
  nodup : lines.Nodup
  exists_edge : ∀ line ∈ lines, ∃ edge ∈ edges, edge.arrow = line
  /-- The line of an edge between words stands there only if the edge itself is in the graph. -/
  arrow_mem_iff : ∀ edge : Relationship, edge.IsWordy → (edge.arrow ∈ lines ↔ edge ∈ edges)
  length_eq : lines.length = edges.toFinset.card
  idxOf_lt_iff : ∀ a ∈ edges, ∀ b ∈ edges,
    (lines.idxOf a.arrow < lines.idxOf b.arrow ↔ edges.idxOf a < edges.idxOf b)

variable {edges : List Relationship}

/-- A chart is a list of lines that each end in a line feed, but for the first. -/
theorem toList_chart (edges : List Relationship) :
    ("graph LR\n" ++ String.join (edges.map Relationship.chartLine)).toList =
      "graph LR".toList ++
        '\n' :: (edges.map fun edge => edge.arrow.toList).flatMap (· ++ ['\n']) := by
  simp [Relationship.chartLine_eq, String.toList_join, List.flatMap_map]

/-- The lines of a chart, from its text. -/
theorem splitOn_chart (h : ∀ edge ∈ edges, edge.IsWordy) :
    ("graph LR\n" ++ String.join (edges.map Relationship.chartLine)).toList.splitOn '\n' =
      "graph LR".toList :: (edges.map (fun edge => edge.arrow.toList) ++ [[]]) := by
  have hheader : '\n' ∉ "graph LR".toList := by decide
  have hlines : ∀ line ∈ edges.map (fun edge => edge.arrow.toList), '\n' ∉ line := by
    intro line hline
    obtain ⟨edge, hedge, rfl⟩ := List.mem_map.1 hline
    exact (h edge hedge).not_mem_arrow
  rw [toList_chart, List.splitOn_append_cons_self_of_not_mem hheader,
    List.splitOn_flatMap_concat hlines]

/-- An edge has a line among those of edges only if it is one of them. -/
theorem arrow_mem_map_iff (h : ∀ edge ∈ edges, edge.IsWordy) {edge : Relationship}
    (hedge : edge.IsWordy) : edge.arrow ∈ edges.map Relationship.arrow ↔ edge ∈ edges := by
  rw [List.mem_map]
  constructor
  · rintro ⟨other, hother, heq⟩
    exact (h other hother).arrow_injective hedge heq ▸ hother
  · intro hmem
    exact ⟨edge, hmem, rfl⟩

/-- Lines come as early as the edges that they stand for. -/
theorem idxOf_map_arrow (h : ∀ edge ∈ edges, edge.IsWordy) {edge : Relationship}
    (hedge : edge.IsWordy) : (edges.map Relationship.arrow).idxOf edge.arrow = edges.idxOf edge :=
  List.idxOf_map_of_forall fun other hother heq => (h other hother).arrow_injective hedge heq

/-- Different edges between names have different arrows. -/
theorem nodup_map_arrow (h : ∀ edge ∈ edges, edge.IsWordy) :
    (edges.eraseDups.map Relationship.arrow).Nodup := by
  have hlines : ((edges.eraseDups.map Relationship.arrow).map (· ++ "\n")).Nodup := by
    rw [List.map_map]
    exact nodup_chartLines h
  exact hlines.of_map _

/-- If the names in a graph are words, its flowchart has a line for each different edge and no other
lines, in the order in which the edges occur first. -/
theorem Snapshot.exists_isChart {s : Snapshot} (h : ∀ edge ∈ s.relationships, edge.IsWordy) :
    ∃ lines, IsChart s.relationships s.flowchart lines := by
  -- the edges that are drawn are the different ones, in the order of their first occurrence
  let drawn := s.relationships.eraseDups
  have hmem (edge : Relationship) : edge ∈ drawn ↔ edge ∈ s.relationships := List.mem_eraseDups
  have hdrawn : ∀ edge ∈ drawn, edge.IsWordy := fun edge hedge => h edge ((hmem edge).1 hedge)
  refine ⟨drawn.map Relationship.arrow, ?_⟩
  constructor
  case splitOn_eq =>
    rw [Snapshot.flowchart, firstOnChart_eq_eraseDups h, splitOn_chart hdrawn, List.map_map]
    rfl
  case nodup => exact nodup_map_arrow h
  case exists_edge =>
    intro line hline
    obtain ⟨edge, hedge, rfl⟩ := List.mem_map.1 hline
    exact ⟨edge, (hmem edge).1 hedge, rfl⟩
  case arrow_mem_iff =>
    intro edge hedge
    rw [arrow_mem_map_iff hdrawn hedge, hmem]
  case length_eq =>
    -- as many as there are different edges
    have hset : s.relationships.toFinset = drawn.toFinset := by
      ext edge
      rw [List.mem_toFinset, List.mem_toFinset, hmem]
    rw [List.length_map, hset, List.toFinset_card_of_nodup (List.nodup_eraseDups _)]
  case idxOf_lt_iff =>
    intro a ha b hb
    rw [idxOf_map_arrow hdrawn (h a ha), idxOf_map_arrow hdrawn (h b hb)]
    exact List.idxOf_eraseDups_lt_iff a b _

/-- A graph in which an edge and its line occur again, and edges differ only in whether they yield
lists or only in where they lead. -/
def tangledGraph : Snapshot :=
  { Snapshot.empty with
    relationships :=
      [⟨"User", "Post", "posts", true⟩, ⟨"User", "Post", "posts", false⟩,
        ⟨"User", "Post", "posts", true⟩, ⟨"User", "User", "posts", false⟩,
        ⟨"User", "Post", "posts", false⟩, ⟨"Post", "User", "posts", false⟩] }

/-- The chart of a tangled graph has a line for each of its four different edges. -/
theorem Snapshot.exists_isChart_tangled :
    (∀ edge ∈ tangledGraph.relationships, edge.IsWordy) ∧
      ∃ lines, IsChart tangledGraph.relationships tangledGraph.flowchart lines ∧
        lines.length = 4 := by
  have hnames : ∀ edge ∈ tangledGraph.relationships,
      ∀ name ∈ [edge.source, edge.target, edge.field],
        name.toList.all Token.isNameChar = true := by
    decide
  have hwordy : ∀ edge ∈ tangledGraph.relationships, edge.IsWordy := by
    intro edge hedge
    have hname (name : String) (hmem : name ∈ [edge.source, edge.target, edge.field]) :
        ∀ c ∈ name.toList, Token.isNameChar c = true :=
      List.all_eq_true.1 (hnames edge hedge name hmem)
    exact ⟨hname _ (by simp), hname _ (by simp), hname _ (by simp)⟩
  obtain ⟨lines, hchart⟩ := Snapshot.exists_isChart hwordy
  refine ⟨hwordy, lines, hchart, ?_⟩
  rw [hchart.length_eq]
  decide

end SchemaAtlas
