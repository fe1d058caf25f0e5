import SchemaAtlas.Proofs.Index.Totals
import SchemaAtlas.Proofs.Scan.Schema
import SchemaAtlas.Query.TypeGraph

/-!
# The graph of types and the fields of types

A scan writes down every field of an object type twice: in the list of its type, and as an edge of
the graph of types unless it yields a built-in scalar. The crawl decides in which order types,
extensions and files come, but the two are written down side by side. So the edges from a type are
its fields in their order, and no field is lost or drawn twice in the whole graph.

* `Record.Draw`                  fields and edges side by side, record by record
* `Projection.draw_records`      what one file adds
* `Scan.graphAgrees_of_run_ok`   the graph of a scan
-/

namespace SchemaAtlas

/-- Whether a field draws an edge: it does unless it yields a built-in scalar. -/
def FieldEntry.drawsEdge (entry : FieldEntry) : Bool :=
  !isBuiltinScalar entry.type

/-- The edge that a field of a type draws, if it draws one. -/
def Relationship.ofField? (typed : String × FieldEntry) : Option Relationship :=
  if typed.2.drawsEdge then some (typed.2.relationship typed.1) else none

/-- Whether the graph of a snapshot is the one that its fields draw. -/
structure Snapshot.GraphAgrees (s : Snapshot) : Prop where
  /-- The edges from a type are its fields, in their order, without those that draw none. -/
  outgoing : ∀ type, s.outgoing type =
    ((s.fieldsOf type).filter (·.drawsEdge)).map (·.relationship type)
  /-- Every edge leaves one type and arrives at one. -/
  ends : ∀ edge ∈ s.relationships, edge ∈ s.outgoing edge.source ∧ edge ∈ s.incoming edge.target
  /-- No edge arrives at a built-in scalar. -/
  builtin : ∀ scalar ∈ builtinScalars, s.incoming scalar = []
  /-- There are as many edges as fields that draw one. -/
  total : s.stats.relationships = (s.fields.values.flatten.filter (·.drawsEdge)).length

/-! ## Records of fields and edges -/

/-- Whether the edges among records are those that the fields among them draw, in their order. -/
def Record.Draw (records : List Record) : Prop :=
  records.filterMap Record.edge? =
    (records.filterMap Record.typedField?).filterMap Relationship.ofField?

namespace Record

/-- Fields and edges side by side stay so when more come behind. -/
theorem Draw.append {as bs : List Record} (has : Draw as) (hbs : Draw bs) : Draw (as ++ bs) := by
  unfold Draw at *
  rw [List.filterMap_append, has, hbs, List.filterMap_append, List.filterMap_append]

/-- Fields and edges stand side by side if they do so piece by piece. -/
theorem draw_flatMap {α : Type} {as : List α} {f : α → List Record} (h : ∀ a ∈ as, Draw (f a)) :
    Draw (as.flatMap f) := by
  induction as with
  | nil => rfl
  | cons a as ih =>
    have hrest : Draw (as.flatMap f) := ih fun a ha => h a (List.mem_cons_of_mem _ ha)
    rw [List.flatMap_cons]
    exact (h a (by simp)).append hrest

/-- Records of other kinds draw nothing. -/
theorem draw_of_forall {records : List Record}
    (h : ∀ r ∈ records, r.edge? = none ∧ r.typedField? = none) : Draw records := by
  have hedges : records.filterMap edge? = [] :=
    List.filterMap_eq_nil_iff.2 fun r hr => (h r hr).1
  have hfields : records.filterMap typedField? = [] :=
    List.filterMap_eq_nil_iff.2 fun r hr => (h r hr).2
  rw [Draw, hedges, hfields]
  rfl

end Record

namespace Projection

open Record (Draw)

variable (file : SchemaFile)

/-- A field is written down behind its edge. -/
theorem draw_modelOfField (type : String) (field : Field) :
    Draw (modelOfField file type field) := by
  rw [modelOfField_eq]
  apply Record.draw_flatMap
  intro entry _
  -- the operation draws nothing, and the edge is there if the field draws one
  cases hroot : isRootType type <;> cases hscalar : isBuiltinScalar entry.type <;>
    simp [Draw, List.filterMap_cons, Record.edge?, Record.typedField?, Relationship.ofField?,
      FieldEntry.drawsEdge, hscalar]

/-- The fields of a type and their edges stand side by side. -/
theorem draw_modelOfType (declaration : TypeDeclaration) :
    Draw (modelOfType file declaration) := by
  unfold modelOfType
  split
  · have hdirectives : Draw [.typeDirectives declaration.name.text
        (directiveUses declaration.directives)] := Record.draw_of_forall (by simp [Record.edge?,
          Record.typedField?])
    apply hdirectives.append
    apply Record.draw_flatMap
    intro field _
    exact draw_modelOfField file _ field
  · rfl

/-- The edges that a file adds are those that its fields draw. -/
theorem draw_records : Draw (records file) := by
  have hsymbols : Draw (symbols file) := by
    apply Record.draw_of_forall
    intro r hr
    obtain ⟨declaration, -, hr⟩ := List.mem_flatMap.1 hr
    rcases List.mem_cons.1 hr with rfl | hr
    · exact ⟨rfl, rfl⟩
    · obtain ⟨field, -, rfl⟩ := List.mem_map.1 hr
      exact ⟨rfl, rfl⟩
  apply hsymbols.append
  apply Record.draw_flatMap
  intro declaration _
  exact draw_modelOfType file declaration

end Projection

/-! ## The graph of a snapshot -/

namespace Snapshot

variable {records : List Record}

/-- The fields of a type are those among all fields that belong to it. -/
theorem fieldsOf_ofRecords (records : List Record) (type : String) :
    (ofRecords records).fieldsOf type =
      (records.filterMap Record.typedField?).filterMap fun typed =>
        if typed.1 = type then some typed.2 else none := by
  rw [fieldsOf, get?_fields_ofRecords, getD_listing?, List.filterMap_filterMap]
  congr 1
  funext r
  exact r.fieldOf?_eq type

/-- The edges from a type are those that its fields draw. -/
theorem outgoing_ofRecords (h : Record.Draw records) (type : String) :
    (ofRecords records).outgoing type =
      (((ofRecords records).fieldsOf type).filter (·.drawsEdge)).map (·.relationship type) := by
  rw [outgoing, relationships_ofRecords, h, fieldsOf_ofRecords]
  induction records.filterMap Record.typedField? with
  | nil => rfl
  | cons typed fields ih =>
    obtain ⟨other, entry⟩ := typed
    -- a field counts if it belongs to the type and draws an edge
    by_cases hother : other = type <;> cases hdraws : entry.drawsEdge <;>
      simp_all [Relationship.ofField?, FieldEntry.relationship]

/-- Every edge is one that a field draws. -/
theorem exists_field_of_mem_relationships (h : Record.Draw records) {edge : Relationship}
    (hedge : edge ∈ (ofRecords records).relationships) :
    ∃ entry : FieldEntry, entry.drawsEdge = true ∧ edge.target = entry.type := by
  rw [relationships_ofRecords, h] at hedge
  obtain ⟨⟨type, entry⟩, -, hedge⟩ := List.mem_filterMap.1 hedge
  unfold Relationship.ofField? at hedge
  split at hedge
  · next hdraws =>
    obtain rfl := Option.some.inj hedge
    exact ⟨entry, hdraws, rfl⟩
  · cases hedge

/-- There are as many edges as fields that draw one. -/
theorem length_relationships_ofRecords (h : Record.Draw records) :
    (ofRecords records).relationships.length =
      ((ofRecords records).fields.values.flatten.filter (·.drawsEdge)).length := by
  have hfields := ((perm_fields_ofRecords records).filter (·.drawsEdge)).length_eq
  rw [relationships_ofRecords, h, hfields]
  induction records.filterMap Record.typedField? with
  | nil => rfl
  | cons typed fields ih =>
    cases hdraws : typed.2.drawsEdge <;> simp_all [Relationship.ofField?]

/-- Records whose edges are those that the fields draw build a graph that agrees with the fields. -/
theorem graphAgrees_ofRecords (h : Record.Draw records) : (ofRecords records).GraphAgrees where
  outgoing := outgoing_ofRecords h
  ends := by
    intro edge hedge
    exact ⟨List.mem_filter.2 ⟨hedge, by simp⟩, List.mem_filter.2 ⟨hedge, by simp⟩⟩
  builtin := by
    intro scalar hscalar
    apply List.filter_eq_nil_iff.2
    intro edge hedge htarget
    obtain ⟨entry, hdraws, hentry⟩ := exists_field_of_mem_relationships h hedge
    have htype : entry.type = scalar := by rw [← hentry]; simpa using htarget
    simp [FieldEntry.drawsEdge, isBuiltinScalar, htype, hscalar] at hdraws
  total := length_relationships_ofRecords h

end Snapshot

/-- The graph that a scan draws agrees with the fields that it lists. -/
theorem Scan.graphAgrees_of_run_ok (source : Source) (options : ScanOptions) (entry : FilePath)
    (cancelAfter : Option Nat) (s : Snapshot)
    (hok : (run source options entry cancelAfter).result = .ok s) : s.GraphAgrees := by
  obtain ⟨-, -, records, rfl, hrecords⟩ := exists_records_of_ok hok
  apply Snapshot.graphAgrees_ofRecords
  -- neither fields nor edges come from anywhere but the schema records of the sound files
  have hschema : Record.Draw (records.filter Record.isSchema) := by
    rw [hrecords]
    apply Record.draw_flatMap
    intro file _
    exact Projection.draw_records file
  unfold Record.Draw at hschema ⊢
  rwa [Snapshot.filterMap_filter_isSchema (fun r hr => by cases r <;> first | rfl | cases hr),
    Snapshot.filterMap_filter_isSchema (fun r hr => by cases r <;> first | rfl | cases hr)]
    at hschema

/-- A type whose fields are spread over two files and an extension, one of them drawn twice, and
two types that yield one another. -/
def Source.spread : Source :=
  { listing :=
      [(⟨"/p/index.graphql"⟩, .ok
        "type Query @sdl(files: [\"a.graphql\"]) \x7b user: User, name: String, all: [User] \x7d"),
        (⟨"/p/a.graphql"⟩, .ok
          "type User \x7b id: ID! friends: [User!]! \x7d
            extend type Query \x7b user(id: ID!): User \x7d")]
    absent := MemoryFiles.notLoaded }

/-- Fields of one type in two files draw their edges in the order of the files, repeated ones twice.
-/
theorem Scan.graphAgrees_of_run_ok_spread :
    ∃ s, (run Source.spread .default ⟨"/p/index.graphql"⟩ none).result = .ok s ∧ s.GraphAgrees ∧
      s.outgoing "Query" = [⟨"Query", "User", "user", false⟩, ⟨"Query", "User", "all", true⟩,
        ⟨"Query", "User", "user", false⟩] ∧
      s.outgoing "User" = [⟨"User", "User", "friends", true⟩] := by
  obtain ⟨s, hok, hs⟩ :
      ∃ s, (run Source.spread .default ⟨"/p/index.graphql"⟩ none).result = .ok s ∧
        s.outgoing "Query" = [⟨"Query", "User", "user", false⟩, ⟨"Query", "User", "all", true⟩,
          ⟨"Query", "User", "user", false⟩] ∧
        s.outgoing "User" = [⟨"User", "User", "friends", true⟩] :=
    exists_ok_of_within 3 _ (by decide +kernel)
  exact ⟨s, hok, graphAgrees_of_run_ok _ _ _ none s hok, hs⟩

end SchemaAtlas
