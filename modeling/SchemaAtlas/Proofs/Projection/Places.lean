import Mathlib.Data.List.Flatten
import SchemaAtlas.Proofs.Projection.Fields
import SchemaAtlas.Proofs.Text.Places

/-!
# Where a file puts its names

What a file adds to an index is located at names of its text. Going to a location leads to the name
that it is the location of, and both readings of a file go through its names in the order of the
text.

* `SchemaFile.IsSound.remainder?_of_mem_places`   going to a place leads to the name
* `SchemaFile.IsSound.pairwise_places`            places come in the order of the text
* `symbols_places`, `fieldEntries_places`          what is located at these places
-/

namespace SchemaAtlas

/-- The line and the code unit of a location. -/
def Location.position (location : Location) : Text.Position :=
  ⟨location.line, location.character⟩

/-- The name and the location of a symbol that a record adds. -/
def Record.symbolPlace? : Record → Option (String × Location)
  | .definition name symbol => some (name, symbol.location)
  | _ => none

namespace Projection

/-- Whether a file was read from its text, and without syntax errors. -/
structure SchemaFile.IsSound (file : SchemaFile) : Prop where
  document : file.document = Document.ofText file.text
  sound : file.document.isSound = true

/-- The names of the types and fields that a file declares with their locations, in text order. -/
def SchemaFile.places (file : SchemaFile) : List (String × Location) :=
  file.document.names.map fun name => (name.text, file.locate name.start)

namespace SchemaFile

variable {file : SchemaFile}

/-- The places in a file are places of that file. -/
theorem file_of_mem_places {name : String} {location : Location}
    (h : (name, location) ∈ file.places) : location.file = file.path := by
  obtain ⟨n, -, heq⟩ := List.mem_map.1 h
  obtain ⟨-, rfl⟩ := Prod.mk.inj heq
  rfl

/-- The places of a sound file come in the order of its text. -/
theorem IsSound.pairwise_places (h : file.IsSound) :
    file.places.Pairwise fun a b => a.2.position.Before b.2.position := by
  obtain ⟨hdocument, hsound⟩ := h
  rw [hdocument] at hsound
  rw [places, hdocument, List.pairwise_map]
  refine (Document.pairwise_names hsound).imp_of_mem ?_
  intro a b ha hb hlt
  -- both names stand in the text, the one with the smaller offset first
  obtain ⟨-, front, behind, htext, hstart, -⟩ := Document.standsIn_of_mem_names hsound ha
  obtain ⟨-, front', behind', htext', hstart', -⟩ := Document.standsIn_of_mem_names hsound hb
  have hbefore := Text.positionAt_before htext htext' (by rwa [hstart, hstart'])
  rwa [hstart, hstart'] at hbefore

/-- Going to a place of a sound file leads to the name, and to nothing that goes on with it. -/
theorem IsSound.remainder?_of_mem_places (h : file.IsSound) {name : String} {location : Location}
    (hplace : (name, location) ∈ file.places) :
    ∃ behind, Text.remainder? file.text location.position = some (name.toList ++ behind) ∧
      ∀ c ∈ behind.head?, Token.isNameChar c = false := by
  obtain ⟨hdocument, hsound⟩ := h
  rw [hdocument] at hsound
  rw [places, hdocument] at hplace
  obtain ⟨n, hn, heq⟩ := List.mem_map.1 hplace
  obtain ⟨rfl, rfl⟩ := Prod.mk.inj heq
  obtain ⟨hchars, front, behind, htext, hstart, hbehind⟩ := Document.standsIn_of_mem_names hsound hn
  -- no line ends inside a name
  have hline : ∀ c ∈ n.text.toList, decide (c ≠ '\n') = true := by
    intro c hc
    have hname := hchars c hc
    by_contra hne
    obtain rfl : c = '\n' := by simpa using hne
    revert hname
    decide
  have hremainder := Text.remainder?_positionAt htext
  rw [hstart, List.takeWhile_append_of_pos hline] at hremainder
  refine ⟨_, hremainder, fun c hc => hbehind c ?_⟩
  cases behind with
  | nil => cases hc
  | cons d behind =>
    rw [List.takeWhile_cons] at hc
    split at hc
    · exact hc
    · cases hc

end SchemaFile

/-! ## What is located at a place -/

variable (file : SchemaFile)

/-- The types declared in a document are among its definitions. -/
theorem type_mem_definitions {document : Document} {declaration : TypeDeclaration}
    (h : declaration ∈ typeDeclarations document) : .type declaration ∈ document.definitions := by
  obtain ⟨d, hd, heq⟩ := List.mem_filterMap.1 h
  cases d with
  | type other =>
    obtain rfl := Option.some.inj heq
    exact hd
  | _ => cases heq

/-- The fields of a sound file have complete types. -/
theorem SchemaFile.IsSound.isTyped {file : SchemaFile} (h : file.IsSound) {type : String} :
    ∀ field ∈ objectFields file.document type, field.IsTyped := by
  obtain ⟨hdocument, hsound⟩ := h
  rw [hdocument] at hsound
  intro field hfield
  obtain ⟨declaration, hdeclaration, hfield⟩ := List.mem_flatMap.1 hfield
  rw [hdocument] at hdeclaration
  have htyped := Document.isTyped_of_mem_definitions hsound (type_mem_definitions hdeclaration)
  split at hfield
  · exact htyped field hfield
  · cases hfield

/-- The names of a document, type by type. -/
theorem names_eq_flatMap (document : Document) :
    document.names = (typeDeclarations document).flatMap TypeDeclaration.names := by
  unfold Document.names typeDeclarations
  induction document.definitions with
  | nil => rfl
  | cons d ds ih =>
    cases d <;> simp [Definition.names, ih]

/-- The places in a file are those of its types, each with its fields behind it. -/
theorem places_eq_flatMap :
    file.places = (typeDeclarations file.document).flatMap fun declaration =>
      (declaration.name.text, file.locate declaration.name.start) ::
        declaration.fields.map file.placeOf := by
  rw [SchemaFile.places, names_eq_flatMap, List.map_flatMap]
  congr 1
  funext declaration
  simp [TypeDeclaration.names, SchemaFile.placeOf]

/-- Where less is picked, less is found. -/
theorem filterMap_sublist_of_imp {α β : Type} {f g : α → Option β}
    (h : ∀ a b, f a = some b → g a = some b) (as : List α) :
    (as.filterMap f).Sublist (as.filterMap g) := by
  induction as with
  | nil => exact .slnil
  | cons a as ih =>
    -- what the first picks the second picks too, and it may pick more
    cases hf : f a with
    | some b =>
      rw [List.filterMap_cons_some hf, List.filterMap_cons_some (h a b hf)]
      exact ih.cons_cons b
    | none =>
      rw [List.filterMap_cons_none hf, List.filterMap_cons]
      split
      · exact ih
      · exact ih.cons _

/-- The symbols of a name are located at places of a file, in their order. -/
theorem symbols_places (name : String) :
    (((records file).filterMap (Record.symbolOf? name)).map fun symbol =>
      (name, symbol.location)).Sublist file.places := by
  rw [symbolsOf_records, places_eq_flatMap, List.map_flatMap]
  -- declaration by declaration
  refine List.Sublist.flatMap_right _ fun declaration _ => ?_
  rw [List.map_filterMap]
  refine (filterMap_sublist_of_imp (g := Record.symbolPlace?) ?_ _).trans ?_
  · intro r place h
    cases r with
    | definition other symbol =>
      by_cases hname : other = name <;> simp_all [Record.symbolOf?, Record.symbolPlace?]
    | _ => cases h
  · -- a type, and behind it the fields that are symbols
    have hfields (fields : List Field) : (fields.map fun field => Record.definition
        field.name.text ⟨file.locate field.name.start, some declaration.name.text⟩).filterMap
        Record.symbolPlace? = fields.map file.placeOf := by
      rw [List.filterMap_map, ← List.filterMap_eq_map]
      rfl
    simp only [symbolsOf, List.filterMap_cons, Record.symbolPlace?, hfields]
    refine .cons_cons _ ?_
    split
    · exact .refl _
    · exact List.nil_sublist _

/-- The entries of an object type are located at places of a file, in their order. -/
theorem fieldEntries_places (type : String) :
    ((fieldEntries file type).map fun entry => (entry.name, entry.location)).Sublist
      file.places := by
  rw [places_eq_flatMap]
  refine (places_fieldEntries file type).trans ?_
  rw [objectFields, List.map_flatMap]
  refine List.Sublist.flatMap_right _ fun declaration _ => ?_
  split
  · exact .cons _ (.refl _)
  · exact List.nil_sublist _

end Projection

end SchemaAtlas
