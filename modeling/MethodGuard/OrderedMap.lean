/-
# Maps that remember the order their keys came in

Members of a class, fields of an object, bound arguments and registered classes are all looked
up by name, and all are listed in the order their names first appeared.  An `OrderedMap` is the
list of its entries; the three operations that change one say what becomes of that order:

* `insert` puts a new key last and gives a known key its new value WHERE IT STANDS,
* `insertNew` puts a new key last and leaves a known key alone,
* `erase` takes a key out and keeps the order of the others.

That keys do not repeat is a property of the maps these operations build (`nodup_keys_insert`
and its neighbours), not a field of the type: a map inside a `Value` is plain nested data.
-/

namespace MethodGuard

/-- Entries under string keys, in the order the keys first appeared. -/
structure OrderedMap (α : Type u) where
  entries : List (String × α)

namespace OrderedMap

variable {α : Type u} {β : Type v}

/-! ## 1. Reading -/

/-- The map without entries. -/
def empty : OrderedMap α := ⟨[]⟩

instance : Inhabited (OrderedMap α) := ⟨empty⟩

/-- The keys in order. -/
def keys (m : OrderedMap α) : List String := m.entries.map Prod.fst

/-- The values in the order of their keys. -/
def values (m : OrderedMap α) : List α := m.entries.map Prod.snd

/-- The value under a key. -/
def find? (m : OrderedMap α) (key : String) : Option α := m.entries.lookup key

/-- Whether the key has a value. -/
def contains (m : OrderedMap α) (key : String) : Bool := m.keys.contains key

/-- The number of entries. -/
def size (m : OrderedMap α) : Nat := m.entries.length

/-- Whether there is no entry. -/
def isEmpty (m : OrderedMap α) : Bool := m.entries.isEmpty

/-! ## 2. Changing -/

/-- Give `key` the value `value`: in place when the key is known, last when it is new. -/
def insertEntry (key : String) (value : α) : List (String × α) → List (String × α)
  | [] => [(key, value)]
  | (k, v) :: rest => if k = key then (k, value) :: rest else (k, v) :: insertEntry key value rest

/-- The map with `key` bound to `value`; a known key keeps its place. -/
def insert (m : OrderedMap α) (key : String) (value : α) : OrderedMap α :=
  ⟨insertEntry key value m.entries⟩

/-- The map with `key` bound to `value` unless it was bound before. -/
def insertNew (m : OrderedMap α) (key : String) (value : α) : OrderedMap α :=
  if m.contains key then m else ⟨m.entries ++ [(key, value)]⟩

/-- The map without `key`; the other entries keep their order. -/
def erase (m : OrderedMap α) (key : String) : OrderedMap α :=
  ⟨m.entries.filter fun entry => !(entry.1 == key)⟩

/-- Insert the pairs one after the other: the last value of a repeated key wins, at the place
where the key first appeared. -/
def ofList (pairs : List (String × α)) : OrderedMap α :=
  pairs.foldl (fun m pair => m.insert pair.1 pair.2) empty

/-- Change every value, keep every key and the order. -/
def map (f : α → β) (m : OrderedMap α) : OrderedMap β :=
  ⟨m.entries.map fun entry => (entry.1, f entry.2)⟩

/-! ## 3. What each operation does to the keys and to a look-up -/

theorem contains_iff {m : OrderedMap α} {key : String} : m.contains key = true ↔ key ∈ m.keys := by
  simp [contains]

@[simp] theorem keys_empty : (empty : OrderedMap α).keys = [] := rfl

@[simp] theorem find?_empty (key : String) : (empty : OrderedMap α).find? key = none := rfl

/-- Keys after an insertion: the same ones, or the new key added last. -/
theorem keys_insert (m : OrderedMap α) (key : String) (value : α) :
    (m.insert key value).keys = if key ∈ m.keys then m.keys else m.keys ++ [key] := by
  obtain ⟨entries⟩ := m
  simp only [insert, keys]
  induction entries with
  | nil => simp [insertEntry]
  | cons entry rest ih =>
    obtain ⟨k, v⟩ := entry
    by_cases h : k = key
    · simp [insertEntry, h]
    · have h' : key ≠ k := fun e => h e.symm
      by_cases hm : key ∈ rest.map Prod.fst
      · simp only [hm, if_true] at ih
        simp [insertEntry, h, h', hm, ih]
      · simp only [hm, if_false] at ih
        simp [insertEntry, h, h', hm, ih]

/-- An insertion is seen by a look-up of its own key and by no other. -/
theorem find?_insert (m : OrderedMap α) (key other : String) (value : α) :
    (m.insert key value).find? other = if other = key then some value else m.find? other := by
  obtain ⟨entries⟩ := m
  simp only [insert, find?]
  induction entries with
  | nil =>
    by_cases h : other = key
    · simp [insertEntry, h]
    · have : (other == key) = false := by simpa using h
      simp [insertEntry, List.lookup_cons, h, this]
  | cons entry rest ih =>
    obtain ⟨k, v⟩ := entry
    by_cases h : k = key
    · subst h
      by_cases ho : other = k
      · simp [insertEntry, ho]
      · have : (other == k) = false := by simpa using ho
        simp [insertEntry, List.lookup_cons, ho, this]
    · by_cases hk : other = k
      · have : other ≠ key := fun e => h (hk ▸ e)
        subst hk
        simp [insertEntry, h]
      · have : (other == k) = false := by simpa using hk
        simp only [insertEntry, h, if_false, List.lookup_cons, this]
        exact ih

/-- A key is listed exactly when it has a value. -/
theorem find?_isSome_iff (m : OrderedMap α) (key : String) :
    (m.find? key).isSome = true ↔ key ∈ m.keys := by
  obtain ⟨entries⟩ := m
  simp only [find?, keys]
  induction entries with
  | nil => simp
  | cons entry rest ih =>
    obtain ⟨k, v⟩ := entry
    by_cases hk : key = k
    · subst hk; simp
    · have : (key == k) = false := by simpa using hk
      simp [List.lookup_cons, this, hk, ih]

/-- Insertion never makes a key appear twice. -/
theorem nodup_keys_insert {m : OrderedMap α} (h : m.keys.Nodup) (key : String) (value : α) :
    (m.insert key value).keys.Nodup := by
  rw [keys_insert]
  split
  · exact h
  · rename_i hm
    rw [List.nodup_append]
    refine ⟨h, by simp, ?_⟩
    intro a ha b hb hab
    simp only [List.mem_singleton] at hb
    exact hm (hb ▸ hab ▸ ha)

/-- The keys left by an erasure, in their old order. -/
theorem keys_erase (m : OrderedMap α) (key : String) :
    (m.erase key).keys = m.keys.filter fun k => !(k == key) := by
  simp [erase, keys, List.filter_map, Function.comp_def]

/-- Erasure never makes a key appear twice. -/
theorem nodup_keys_erase {m : OrderedMap α} (h : m.keys.Nodup) (key : String) :
    (m.erase key).keys.Nodup := by
  rw [keys_erase]
  exact h.filter _

end OrderedMap

end MethodGuard
