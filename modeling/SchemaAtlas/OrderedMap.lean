/-!
# Maps in key order

A map from texts to values whose entries stand in the order of their keys. `alter` is the one way
to change a map: it sets the value of a key from the value that the key had. The view is `get?`:

* `get?_empty`   an empty map holds nothing
* `get?_alter`   `alter` changes the value of its key and of no other
-/

namespace SchemaAtlas

/-- Whether the keys of a list of entries ascend. -/
def Ascending {α : Type} (entries : List (String × α)) : Prop :=
  entries.Pairwise fun a b => a.1 < b.1

/-- The value of a key in a list of entries. -/
def lookupEntry {α : Type} (key : String) : List (String × α) → Option α
  | [] => none
  | (k, a) :: rest => if k = key then some a else lookupEntry key rest

/-- A list of ascending entries in which the value of a key is set from the value it had. -/
def alterEntry {α : Type} (key : String) (f : Option α → α) : List (String × α) → List (String × α)
  | [] => [(key, f none)]
  | (k, a) :: rest =>
    if key < k then (key, f none) :: (k, a) :: rest
    else if k = key then (k, f (some a)) :: rest
    else (k, a) :: alterEntry key f rest

theorem mem_keys_alterEntry {α : Type} {key : String} {f : Option α → α}
    {entries : List (String × α)} {e : String × α} (h : e ∈ alterEntry key f entries) :
    e.1 = key ∨ ∃ e' ∈ entries, e'.1 = e.1 := by
  induction entries with
  | nil => simp [alterEntry] at h; simp [h]
  | cons p rest ih =>
    obtain ⟨k, a⟩ := p
    simp only [alterEntry] at h
    split at h
    · rcases List.mem_cons.1 h with h | h
      · simp [h]
      · exact .inr ⟨e, h, rfl⟩
    · split at h
      · rcases List.mem_cons.1 h with h | h
        · simp [h]
        · exact .inr ⟨e, List.mem_cons_of_mem _ h, rfl⟩
      · rcases List.mem_cons.1 h with h | h
        · exact .inr ⟨(k, a), by simp, by simp [h]⟩
        · rcases ih h with h | ⟨e', he', hk⟩
          · exact .inl h
          · exact .inr ⟨e', List.mem_cons_of_mem _ he', hk⟩

theorem ascending_alterEntry {α : Type} {key : String} {f : Option α → α}
    {entries : List (String × α)}
    (h : Ascending entries) : Ascending (alterEntry key f entries) := by
  induction entries with
  | nil => simp [alterEntry, Ascending]
  | cons p rest ih =>
    obtain ⟨k, a⟩ := p
    obtain ⟨hk, hrest⟩ := List.pairwise_cons.1 h
    simp only [alterEntry]
    split
    · next hlt =>
      refine List.pairwise_cons.2 ⟨fun e he => ?_, h⟩
      rcases List.mem_cons.1 he with rfl | he
      · exact hlt
      · exact String.lt_trans hlt (hk e he)
    · split
      · exact List.pairwise_cons.2 ⟨hk, hrest⟩
      · next hlt hne =>
        refine List.pairwise_cons.2 ⟨fun e he => ?_, ih hrest⟩
        rcases mem_keys_alterEntry he with he | ⟨e', he', heq⟩
        · rw [he]
          exact Std.lt_of_le_of_ne (Std.not_lt.1 hlt) hne
        · rw [← heq]
          exact hk e' he'

/-- A map from texts to values. -/
structure OrderedMap (α : Type) where
  entries : List (String × α)
  ascending : Ascending entries

namespace OrderedMap

variable {α : Type}

instance [DecidableEq α] : DecidableEq (OrderedMap α) := fun a b =>
  decidable_of_iff (a.entries = b.entries)
    ⟨fun h => by cases a; cases b; simpa using h, fun h => h ▸ rfl⟩

/-- The map that holds nothing. -/
def empty : OrderedMap α :=
  ⟨[], List.Pairwise.nil⟩

instance : Inhabited (OrderedMap α) := ⟨empty⟩

/-- The value of a key. -/
def get? (m : OrderedMap α) (key : String) : Option α :=
  lookupEntry key m.entries

/-- Sets the value of a key from the value it has. -/
def alter (m : OrderedMap α) (key : String) (f : Option α → α) : OrderedMap α :=
  ⟨alterEntry key f m.entries, ascending_alterEntry m.ascending⟩

/-- Sets the value of a key. -/
def insert (m : OrderedMap α) (key : String) (value : α) : OrderedMap α :=
  m.alter key fun _ => value

/-- Adds values at the end of the list of a key. -/
def append (m : OrderedMap (List α)) (key : String) (values : List α) : OrderedMap (List α) :=
  m.alter key fun old => old.getD [] ++ values

/-- The keys in ascending order. -/
def keys (m : OrderedMap α) : List String :=
  m.entries.map Prod.fst

/-- The values in the order of their keys. -/
def values (m : OrderedMap α) : List α :=
  m.entries.map Prod.snd

/-- The number of keys. -/
def size (m : OrderedMap α) : Nat :=
  m.entries.length

theorem lookupEntry_eq_none {key : String} {entries : List (String × α)}
    (h : ∀ e ∈ entries, key < e.1) : lookupEntry key entries = none := by
  induction entries with
  | nil => rfl
  | cons p rest ih =>
    have hk : p.1 ≠ key := fun heq => String.lt_irrefl key (heq ▸ h p (by simp))
    rw [lookupEntry, if_neg hk]
    exact ih fun e he => h e (List.mem_cons_of_mem _ he)

@[simp] theorem get?_empty (key : String) : (empty : OrderedMap α).get? key = none := rfl

theorem lookupEntry_alterEntry {key : String} {f : Option α → α} {entries : List (String × α)}
    (h : Ascending entries) (k : String) :
    lookupEntry k (alterEntry key f entries) =
      if k = key then some (f (lookupEntry key entries)) else lookupEntry k entries := by
  induction entries with
  | nil => by_cases hk : k = key <;> simp [alterEntry, lookupEntry, hk, Ne.symm]
  | cons p rest ih =>
    obtain ⟨k', a⟩ := p
    obtain ⟨hk', hrest⟩ := List.pairwise_cons.1 h
    simp only [alterEntry]
    split
    · next hlt =>
      have hne : k' ≠ key := fun heq => String.lt_irrefl key (heq ▸ hlt)
      have hnone : lookupEntry key rest = none :=
        lookupEntry_eq_none fun e he => String.lt_trans hlt (hk' e he)
      by_cases hk : k = key
      · simp [lookupEntry, hk, hne, hnone]
      · simp [lookupEntry, hk, Ne.symm hk]
    · split
      · next heq =>
        subst heq
        by_cases hk : k = k'
        · simp [lookupEntry, hk]
        · simp [lookupEntry, hk, Ne.symm hk]
      · next hne =>
        by_cases hk : k = key
        · subst hk
          simp [lookupEntry, hne, ih hrest]
        · by_cases hk'' : k' = k
          · simp [lookupEntry, hk'', hk]
          · simp [lookupEntry, hk'', hk, ih hrest]

/-- Setting a key changes the value of this key and of no other. -/
theorem get?_alter (m : OrderedMap α) (key : String) (f : Option α → α) (k : String) :
    (m.alter key f).get? k = if k = key then some (f (m.get? key)) else m.get? k :=
  lookupEntry_alterEntry m.ascending k

end OrderedMap

end SchemaAtlas
