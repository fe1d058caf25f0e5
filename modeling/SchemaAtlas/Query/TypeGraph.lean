import SchemaAtlas.Index.Basic

/-!
# The graph of types
-/

namespace SchemaAtlas

namespace Snapshot

/-- The edges to a type. -/
def incoming (s : Snapshot) (type : String) : List Relationship :=
  s.relationships.filter (·.target == type)

/-- The edges from a type. -/
def outgoing (s : Snapshot) (type : String) : List Relationship :=
  s.relationships.filter (·.source == type)

end Snapshot

/-- How an edge is labelled in a flowchart: by its field, in square brackets if it yields a list. -/
def Relationship.label (r : Relationship) : String :=
  if r.isList then "[" ++ r.field ++ "]" else r.field

/-- An edge as a line of a flowchart. -/
def Relationship.chartLine (r : Relationship) : String :=
  "  " ++ r.source ++ " -->|" ++ r.label ++ "| " ++ r.target ++ "\n"

/-- Whether two edges are one in a flowchart. -/
def Relationship.sameOnChart (a b : Relationship) : Bool :=
  a.source == b.source && a.target == b.target && a.label == b.label

/-- The edges of which none is the same on a chart as one before it or one of those already
`drawn`. -/
def firstOnChart (drawn : List Relationship) : List Relationship → List Relationship
  | [] => []
  | r :: rest =>
    if drawn.any (·.sameOnChart r) then firstOnChart drawn rest
    else r :: firstOnChart (r :: drawn) rest

/-- The graph of types as a flowchart: each distinct edge once, where it occurs first. -/
def Snapshot.flowchart (s : Snapshot) : String :=
  "graph LR\n" ++ String.join ((firstOnChart [] s.relationships).map Relationship.chartLine)

end SchemaAtlas
