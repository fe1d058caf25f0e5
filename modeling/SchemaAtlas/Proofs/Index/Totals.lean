import Mathlib.Data.List.Basic
import SchemaAtlas.Proofs.Index.History

/-!
# All fields of an index

An index keeps the fields of every type in a list of their own. Taken together, these lists hold
every field that was recorded as often as it was recorded, although not in the order of the records.

* `OrderedMap.perm_append`          what a map of lists holds when a list grows
* `Snapshot.perm_fields_ofRecords`   the fields of all types
-/

namespace SchemaAtlas

namespace OrderedMap

variable {α : Type}

/-- What is added under a key is added to all there is, wherever the key stands. -/
theorem perm_alterEntry (key : String) (added : List α) (entries : List (String × List α)) :
    ((alterEntry key (fun old => old.getD [] ++ added) entries).map Prod.snd).flatten.Perm
      ((entries.map Prod.snd).flatten ++ added) := by
  induction entries with
  | nil => simp [alterEntry]
  | cons entry rest ih =>
    obtain ⟨k, known⟩ := entry
    simp only [alterEntry]
    split
    · -- the key is new: what is added comes before everything else
      simp only [List.map_cons, List.flatten_cons, Option.getD_none, List.nil_append]
      exact List.perm_append_comm
    · split
      · -- the key is there: what is added comes between its list and the others
        simp only [List.map_cons, List.flatten_cons, Option.getD_some, List.append_assoc]
        apply List.Perm.append_left
        exact List.perm_append_comm
      · simp only [List.map_cons, List.flatten_cons, List.append_assoc]
        apply List.Perm.append_left
        exact ih

/-- What all lists of a map hold together when values are added to one of them. -/
theorem perm_append (m : OrderedMap (List α)) (key : String) (added : List α) :
    (m.append key added).values.flatten.Perm (m.values.flatten ++ added) :=
  perm_alterEntry key added m.entries

end OrderedMap

/-- The field that a record adds, with the type that it belongs to. -/
def Record.typedField? : Record → Option (String × FieldEntry)
  | .field type added => some (type, added)
  | _ => none

/-- The fields of one type are those among all fields that belong to it. -/
theorem Record.fieldOf?_eq (type : String) (r : Record) :
    r.fieldOf? type = r.typedField?.bind fun typed =>
      if typed.1 = type then some typed.2 else none := by
  cases r <;> rfl

namespace Snapshot

/-- The fields of all types are added one by one. -/
theorem fields_addAll (s : Snapshot) (records : List Record) :
    (s.addAll records).fields =
      (records.filterMap Record.typedField?).foldl (fun m typed => m.append typed.1 [typed.2])
        s.fields := by
  apply view_addAll fields Record.typedField? fun m typed => m.append typed.1 [typed.2]
  intro s r
  cases r with
  | typeDirectives type directives => simp only [add, Record.typedField?]; split <;> rfl
  | _ => rfl

/-- The lists of all types hold the fields that were recorded. -/
theorem perm_fields_ofRecords (records : List Record) :
    (ofRecords records).fields.values.flatten.Perm
      ((records.filterMap Record.typedField?).map Prod.snd) := by
  -- field by field, each of which adds one entry under its type
  have hgrow (added : List (String × FieldEntry)) (m : OrderedMap (List FieldEntry)) :
      (added.foldl (fun m typed => m.append typed.1 [typed.2]) m).values.flatten.Perm
        (m.values.flatten ++ added.map Prod.snd) := by
    induction added generalizing m with
    | nil => simp
    | cons typed added ih =>
      have hstep := (m.perm_append typed.1 [typed.2]).append_right (added.map Prod.snd)
      simpa using (ih (m.append typed.1 [typed.2])).trans hstep
  have hempty : empty.fields.values.flatten = [] := rfl
  have hall := hgrow (records.filterMap Record.typedField?) empty.fields
  rwa [← fields_addAll, hempty, List.nil_append] at hall

end Snapshot

end SchemaAtlas
