import Mathlib.Data.List.Dedup
import SchemaAtlas.OrderedMap

/-!
# Keys and values of a map

Entries, keys and values of a map by what it holds under its keys.

* `mem_entries_iff`, `mem_keys_iff`   what is in the lists of a map
* `keys_eq_of_isSome`                 maps that hold values under the same keys have the same keys
* `ext_get?`                          maps that hold the same values are equal
* `size_eq_length_dedup`              the size of a map, from the keys that it holds values under
* `perm_values`                       the values of a map, up to their order
-/

namespace SchemaAtlas.OrderedMap

variable {α β : Type}

/-- In ascending order, the entries are those found under their keys. -/
theorem mem_iff_lookupEntry {key : String} {a : α} {entries : List (String × α)}
    (h : Ascending entries) : (key, a) ∈ entries ↔ lookupEntry key entries = some a := by
  induction entries with
  | nil => simp [lookupEntry]
  | cons entry rest ih =>
    obtain ⟨k, b⟩ := entry
    obtain ⟨hk, hrest⟩ := List.pairwise_cons.1 h
    rw [List.mem_cons, ih hrest]
    by_cases heq : k = key
    · subst heq
      -- the keys behind it are greater
      have hnone : lookupEntry k rest = none := lookupEntry_eq_none hk
      simp [lookupEntry, hnone, eq_comm]
    · simp [lookupEntry, heq, Ne.symm heq]

/-- What a map holds under a key is its entry with that key. -/
theorem mem_entries_iff {m : OrderedMap α} {key : String} {a : α} :
    (key, a) ∈ m.entries ↔ m.get? key = some a :=
  mem_iff_lookupEntry m.ascending

/-- The keys are those under which something is found. -/
theorem mem_keys_iff {m : OrderedMap α} {key : String} :
    key ∈ m.keys ↔ (m.get? key).isSome = true := by
  rw [Option.isSome_iff_exists, keys, List.mem_map]
  constructor
  · rintro ⟨⟨k, a⟩, hmem, rfl⟩
    exact ⟨a, mem_entries_iff.1 hmem⟩
  · rintro ⟨a, ha⟩
    exact ⟨(key, a), mem_entries_iff.2 ha, rfl⟩

/-- The keys of a map ascend. -/
theorem pairwise_keys (m : OrderedMap α) : m.keys.Pairwise (· < ·) :=
  List.pairwise_map.2 m.ascending

theorem nodup_keys (m : OrderedMap α) : m.keys.Nodup := by
  apply m.pairwise_keys.imp
  rintro a _ hlt rfl
  exact String.lt_irrefl a hlt

/-- Maps that hold values under the same keys have the same keys. -/
theorem keys_eq_of_isSome {m : OrderedMap α} {n : OrderedMap β}
    (h : ∀ key, (m.get? key).isSome = (n.get? key).isSome) : m.keys = n.keys := by
  -- ascending lists of the same keys are one list
  apply List.Perm.eq_of_pairwise _ m.pairwise_keys n.pairwise_keys
  · rw [List.perm_ext_iff_of_nodup m.nodup_keys n.nodup_keys]
    intro key
    rw [mem_keys_iff, mem_keys_iff, h]
  · intro a b _ _ hab hba
    exact absurd (String.lt_trans hab hba) (String.lt_irrefl a)

/-- The entries of a map are its keys with what it holds under them. -/
theorem entries_eq_filterMap (m : OrderedMap α) :
    m.entries = m.keys.filterMap fun key => (m.get? key).map (key, ·) := by
  rw [keys, List.filterMap_map]
  conv_lhs => rw [← List.filterMap_some (l := m.entries)]
  apply List.filterMap_congr
  rintro ⟨key, a⟩ hmem
  rw [Function.comp_apply, mem_entries_iff.1 hmem, Option.map_some]

/-- The values are those found under the keys, in order. -/
theorem values_eq_filterMap (m : OrderedMap α) : m.values = m.keys.filterMap m.get? := by
  rw [values, entries_eq_filterMap, List.map_filterMap]
  simp only [Option.map_map, Function.comp_def, Option.map_id']

/-- Maps that hold the same values are equal. -/
theorem ext_get? {m n : OrderedMap α} (h : ∀ key, m.get? key = n.get? key) : m = n := by
  have hkeys : m.keys = n.keys := keys_eq_of_isSome fun key => by rw [h]
  have hentries : m.entries = n.entries := by
    rw [entries_eq_filterMap m, entries_eq_filterMap n, hkeys, funext h]
  cases m
  cases n
  congr

/-! ## From the keys that are held -/

variable {m : OrderedMap α} {held : List String}

/-- A map that has something under certain keys has those keys, each once. -/
theorem perm_keys (h : ∀ key, (m.get? key).isSome = true ↔ key ∈ held) :
    m.keys.Perm held.dedup := by
  rw [List.perm_ext_iff_of_nodup m.nodup_keys held.nodup_dedup]
  intro key
  rw [mem_keys_iff, h, List.mem_dedup]

/-- A map that holds values under some keys has as many entries as there are different ones. -/
theorem size_eq_length_dedup (h : ∀ key, (m.get? key).isSome = true ↔ key ∈ held) :
    m.size = held.dedup.length := by
  rw [← (perm_keys h).length_eq, keys, List.length_map]
  rfl

/-- A map that has something under certain keys has the values of those keys. -/
theorem perm_values (h : ∀ key, (m.get? key).isSome = true ↔ key ∈ held) :
    m.values.Perm (held.dedup.filterMap m.get?) := by
  rw [values_eq_filterMap]
  exact (perm_keys h).filterMap _

end SchemaAtlas.OrderedMap
