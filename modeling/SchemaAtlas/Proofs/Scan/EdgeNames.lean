import SchemaAtlas.Proofs.Document.Types
import SchemaAtlas.Proofs.Query.TypeGraph
import SchemaAtlas.Proofs.Scan.Schema

/-!
# The names of edges

An edge is drawn by a field of a type in a file without syntax errors. Its names are those of the
type, of the field and of the type inside the wrappers of the field, and all of them are words of
the text of the file. So every edge of a scan has the names of a text, and a flowchart tells it.

* `Projection.exists_field_of_relationship_mem`   the field that draws an edge
* `Scan.isWordy_of_mem_relationships`             the edges of a scan
-/

namespace SchemaAtlas

/-- The name inside the wrappers is one of the tokens of a type expression. -/
theorem TypeExpr.name_base_mem_kinds (t : TypeExpr) : .name t.base ∈ t.kinds := by
  induction t with
  | name word => simp [base, kinds]
  | nonNullName word => simp [base, kinds]
  | list item ih => simp [base, kinds, ih]
  | nonNullList item ih => simp [base, kinds, ih]

/-- What stands behind brackets stands behind the tokens inside them. -/
theorem Inside.subset {next us : List Token} {σ : List Char} (h : Inside next σ us) :
    next ⊆ us := by
  induction h with
  | out => exact List.Subset.refl _
  | plain _ _ ih => exact List.subset_cons_of_subset _ ih
  | colon _ _ _ _ ih => exact List.subset_cons_of_subset _ ih
  | opening _ _ _ ih => exact List.subset_cons_of_subset _ ih
  | closing _ _ _ ih => exact List.subset_cons_of_subset _ ih

/-- What stands behind arguments is part of what the arguments stand in. -/
theorem BehindArguments.subset {next us : List Token} (h : BehindArguments next us) :
    next ⊆ us := by
  cases h with
  | bare => exact List.Subset.refl _
  | parentheses _ hinside => exact List.subset_cons_of_subset _ hinside.subset

/-- The words of a text are made of the characters that names are made of. -/
theorem Token.isNameChar_of_kind {text word : String} {t : Token} (ht : t ∈ ofText text)
    (hkind : t.kind = .name word) : ∀ c ∈ word.toList, isNameChar c = true := by
  have hname : t.name? = some ⟨word, t.start⟩ := by simp [name?, hkind]
  exact (standsIn_ofText ht hname).1

/-- The name inside the wrappers of a type that is written in a text is made of characters of
names. -/
theorem TypeRef.IsWritten.isNameChar_base {type : TypeRef} {text base : String} {name : Name}
    (h : type.IsWritten (Token.ofText text) name) (hbase : type.base? = some base) :
    ∀ c ∈ base.toList, Token.isNameChar c = true := by
  obtain ⟨t, htyped, hrenders⟩ := h
  obtain rfl : t.base = base := Option.some.inj (hrenders.base.symm.trans hbase)
  obtain ⟨front, n, mid, colon, us, hts, -, hmid, -, part, behind, rfl, hkinds, -⟩ :=
    (htyped t).2 rfl
  obtain ⟨token, htoken, hkind⟩ := List.mem_map.1 (hkinds ▸ t.name_base_mem_kinds)
  -- the tokens of the expression are among those of the text
  have hmem : token ∈ mid := hmid.subset (by simp [htoken])
  have htext : token ∈ Token.ofText text := by
    rw [hts]
    exact List.mem_append_right _ (List.mem_cons_of_mem _ hmem)
  exact Token.isNameChar_of_kind htext hkind

/-- An edge that a file adds is drawn by a field of a type that the file declares. -/
theorem Projection.exists_field_of_relationship_mem {file : SchemaFile} {edge : Relationship}
    (h : .relationship edge ∈ records file) :
    ∃ declaration ∈ typeDeclarations file.document, ∃ field ∈ declaration.fields,
      edge.source = declaration.name.text ∧ edge.field = field.name.text ∧
        field.type.base? = some edge.target := by
  have hmodel : .relationship edge ∈ model file := by
    rcases List.mem_append.1 h with hsymbol | hmodel
    · obtain ⟨declaration, -, hr⟩ := List.mem_flatMap.1 hsymbol
      rcases List.mem_cons.1 hr with hr | hr
      · cases hr
      · obtain ⟨field, -, hr⟩ := List.mem_map.1 hr
        cases hr
    · exact hmodel
  obtain ⟨declaration, hdeclaration, hr⟩ := List.mem_flatMap.1 hmodel
  unfold modelOfType at hr
  split at hr
  · rcases List.mem_cons.1 hr with hr | hr
    · cases hr
    · obtain ⟨field, hfield, hr⟩ := List.mem_flatMap.1 hr
      refine ⟨declaration, hdeclaration, field, hfield, ?_⟩
      rw [modelOfField_eq] at hr
      obtain ⟨entry, hentry, hr⟩ := List.mem_flatMap.1 hr
      -- of what the field adds, one record at most is an edge
      have hedge : edge = entry.relationship declaration.name.text := by
        simp only [List.mem_append, List.mem_singleton] at hr
        rcases hr with (hr | hr) | hr
        · split at hr <;> simp at hr
        · split at hr
          · cases hr
          · exact Record.relationship.inj (List.mem_singleton.1 hr)
        · cases hr
      obtain ⟨base, hbase, rfl⟩ := Option.map_eq_some_iff.1 (Option.mem_toList.1 hentry)
      rw [hedge]
      exact ⟨rfl, rfl, hbase⟩
  · cases hr

/-- The edges of a sound file have names of its text. -/
theorem Projection.SchemaFile.IsSound.isWordy {file : Projection.SchemaFile} (h : file.IsSound)
    {edge : Relationship} (hedge : .relationship edge ∈ Projection.records file) :
    edge.IsWordy := by
  obtain ⟨hdocument, hsound⟩ := h
  obtain ⟨declaration, hdeclaration, field, hfield, hsource, hname, htarget⟩ :=
    Projection.exists_field_of_relationship_mem hedge
  rw [hdocument] at hsound hdeclaration
  have hdefinition := Projection.type_mem_definitions hdeclaration
  -- the names of a declaration stand in its text, where the lexer has read them as words
  have hnames {name : Name} (hmem : name ∈ declaration.names) :
      ∀ c ∈ name.text.toList, Token.isNameChar c = true :=
    (Document.standsIn_of_mem_names hsound
      (List.mem_flatMap.2 ⟨.type declaration, hdefinition, hmem⟩)).1
  have hwritten := (Document.isWritten_of_mem_fields hsound hdefinition hfield).1
  exact
    { source := hsource ▸ hnames List.mem_cons_self
      target := hwritten.isNameChar_base htarget
      field := hname ▸ hnames (List.mem_cons_of_mem _ (List.mem_map_of_mem hfield)) }

/-- The edges of a scan that succeeds have names of the texts that were read. -/
theorem Scan.isWordy_of_mem_relationships {source : Source} {options : ScanOptions}
    {entry : FilePath} {cancelAfter : Option Nat} {s : Snapshot}
    (hok : (run source options entry cancelAfter).result = .ok s) :
    ∀ edge ∈ s.relationships, edge.IsWordy := by
  obtain ⟨-, -, records, hs, hrecords⟩ := exists_records_of_ok hok
  intro edge hedge
  rw [hs, Snapshot.relationships_ofRecords] at hedge
  obtain ⟨r, hr, hrelationship⟩ := List.mem_filterMap.1 hedge
  obtain rfl : r = .relationship edge := by
    cases r <;> simp [Record.edge?] at hrelationship
    rw [hrelationship]
  -- the record is one of those that the sound files have added
  have hschema : .relationship edge ∈ records.filter Record.isSchema :=
    List.mem_filter.2 ⟨hr, rfl⟩
  rw [hrecords] at hschema
  obtain ⟨file, hfile, hmem⟩ := List.mem_flatMap.1 hschema
  exact (Source.read_of_mem_soundFiles hfile).2.2.isWordy hmem

end SchemaAtlas
