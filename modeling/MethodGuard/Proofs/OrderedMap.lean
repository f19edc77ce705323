/-
# Ordered maps: whole lists of insertions

What `keys` and `find?` say of a map that was built from a list of pairs, or by inserting a list
of pairs where they are new.
-/
import Mathlib.Data.List.Nodup
import MethodGuard.OrderedMap

namespace MethodGuard

namespace OrderedMap

variable {α : Type u}

theorem mem_keys_insert {m : OrderedMap α} {key k : String} {value : α} :
    k ∈ (m.insert key value).keys ↔ k = key ∨ k ∈ m.keys := by
  rw [keys_insert]
  split
  · rename_i hkey
    exact ⟨Or.inr, fun h => h.elim (fun e => e ▸ hkey) id⟩
  · rw [List.mem_append, List.mem_singleton, or_comm]

theorem mem_entries_insert {m : OrderedMap α} {key : String} {value : α} {entry : String × α}
    (h : entry ∈ (m.insert key value).entries) : entry = (key, value) ∨ entry ∈ m.entries := by
  obtain ⟨entries⟩ := m
  simp only [insert] at h ⊢
  induction entries with
  | nil => simpa [insertEntry] using h
  | cons first rest ih =>
    rw [insertEntry] at h
    split at h <;> grind

/-- A look-up after an erasure. -/
theorem find?_erase (m : OrderedMap α) (key other : String) :
    (m.erase key).find? other = if other = key then none else m.find? other := by
  obtain ⟨entries⟩ := m
  simp only [erase, find?]
  induction entries with
  | nil => simp
  | cons entry rest ih =>
    obtain ⟨k, v⟩ := entry
    by_cases hk : k = key
    · rw [List.filter_cons_of_neg (by simpa using hk), ih]
      grind
    · rw [List.filter_cons_of_pos (by simpa using hk), List.lookup_cons, ih]
      grind

/-! ## 1. Maps of lists -/

theorem mem_keys_foldl_insert {pairs : List (String × α)} {m : OrderedMap α} {k : String} :
    k ∈ (pairs.foldl (fun m pair => m.insert pair.1 pair.2) m).keys ↔
      k ∈ m.keys ∨ k ∈ pairs.map Prod.fst := by
  induction pairs generalizing m with
  | nil => simp
  | cons pair rest ih =>
    rw [List.foldl_cons, ih, mem_keys_insert, List.map_cons, List.mem_cons]
    grind

theorem mem_keys_ofList {pairs : List (String × α)} {k : String} :
    k ∈ (ofList pairs).keys ↔ k ∈ pairs.map Prod.fst := by
  rw [ofList, mem_keys_foldl_insert]
  simp

theorem contains_ofList_iff {pairs : List (String × α)} {k : String} :
    (ofList pairs).contains k = true ↔ k ∈ pairs.map Prod.fst :=
  contains_iff.trans mem_keys_ofList

theorem nodup_keys_foldl_insert {pairs : List (String × α)} {m : OrderedMap α}
    (h : m.keys.Nodup) :
    (pairs.foldl (fun m pair => m.insert pair.1 pair.2) m).keys.Nodup := by
  induction pairs generalizing m with
  | nil => exact h
  | cons pair rest ih => exact ih (nodup_keys_insert h pair.1 pair.2)

theorem nodup_keys_ofList (pairs : List (String × α)) : (ofList pairs).keys.Nodup :=
  nodup_keys_foldl_insert List.nodup_nil

/-! ## 2. Looking up and listing -/

/-- A value that is found is listed under its key. -/
theorem mem_entries_of_find? {m : OrderedMap α} {key : String} {value : α}
    (h : m.find? key = some value) : (key, value) ∈ m.entries := by
  obtain ⟨entries⟩ := m
  simp only [find?] at h ⊢
  induction entries with
  | nil => cases h
  | cons entry rest ih =>
    obtain ⟨k, v⟩ := entry
    by_cases hk : key = k
    · subst hk
      simp only [List.lookup_cons_self, Option.some.injEq] at h
      exact h ▸ List.mem_cons_self
    · have hne : (key == k) = false := by simpa using hk
      rw [List.lookup_cons, hne] at h
      exact List.mem_cons_of_mem _ (ih h)

/-- Where keys do not repeat, what is listed is what is found. -/
theorem find?_eq_some_iff_mem {m : OrderedMap α} (hm : m.keys.Nodup) {key : String} {value : α} :
    m.find? key = some value ↔ (key, value) ∈ m.entries := by
  refine ⟨mem_entries_of_find?, fun h => ?_⟩
  have hkey : key ∈ m.keys := List.mem_map.mpr ⟨_, h, rfl⟩
  obtain ⟨other, hother⟩ := Option.isSome_iff_exists.mp ((find?_isSome_iff m key).mpr hkey)
  have hsame := List.inj_on_of_nodup_map hm h (mem_entries_of_find? hother) rfl
  rw [hother, (Prod.mk.inj hsame).2]

/-- Where keys do not repeat, the order of the entries does not matter to a look-up. -/
theorem find?_perm {m m' : OrderedMap α} (h : m.entries.Perm m'.entries) (hm : m.keys.Nodup)
    (key : String) : m.find? key = m'.find? key := by
  have hm' : m'.keys.Nodup := (h.map Prod.fst).nodup_iff.mp hm
  refine Option.ext fun value => ?_
  rw [find?_eq_some_iff_mem hm, find?_eq_some_iff_mem hm', h.mem_iff]

theorem find?_foldl_insert_of_not_mem {pairs : List (String × α)} {m : OrderedMap α}
    {key : String} (h : key ∉ pairs.map Prod.fst) :
    (pairs.foldl (fun m pair => m.insert pair.1 pair.2) m).find? key = m.find? key := by
  induction pairs generalizing m with
  | nil => rfl
  | cons pair rest ih =>
    rw [List.map_cons, List.mem_cons, not_or] at h
    rw [List.foldl_cons, ih h.2, find?_insert, if_neg h.1]

/-- A value that is inserted is found, if its key is inserted once. -/
theorem find?_foldl_insert_of_mem {pairs : List (String × α)} {m : OrderedMap α} {key : String}
    {value : α} (honce : (pairs.map Prod.fst).count key ≤ 1) (h : (key, value) ∈ pairs) :
    (pairs.foldl (fun m pair => m.insert pair.1 pair.2) m).find? key = some value := by
  induction pairs generalizing m with
  | nil => cases h
  | cons pair rest ih =>
    rw [List.foldl_cons]
    by_cases hkey : pair.1 = key
    · have hrest : key ∉ rest.map Prod.fst := by
        rw [List.map_cons, List.count_cons, beq_iff_eq.mpr hkey] at honce
        rw [← List.count_eq_zero]
        simpa using honce
      have hpair : pair = (key, value) :=
        ((List.mem_cons.mp h).resolve_right fun hmem =>
          hrest (List.mem_map_of_mem (f := Prod.fst) hmem)).symm
      rw [hpair, find?_foldl_insert_of_not_mem hrest, find?_insert, if_pos rfl]
    · have hmem : (key, value) ∈ rest :=
        (List.mem_cons.mp h).resolve_left fun heq => hkey (heq ▸ rfl)
      refine ih ?_ hmem
      exact Nat.le_trans ((List.sublist_cons_self pair.1 _).count_le key) honce

/-- A map of pairs with different keys finds exactly those pairs. -/
theorem find?_ofList_iff {pairs : List (String × α)} (hpairs : (pairs.map Prod.fst).Nodup)
    {key : String} {value : α} : (ofList pairs).find? key = some value ↔ (key, value) ∈ pairs := by
  have honce := List.nodup_iff_count.mp hpairs
  refine ⟨fun h => ?_, find?_foldl_insert_of_mem (honce key)⟩
  have hkey : key ∈ pairs.map Prod.fst :=
    mem_keys_ofList.mp ((find?_isSome_iff _ key).mp (h ▸ rfl))
  obtain ⟨⟨k, other⟩, hother, rfl⟩ := List.mem_map.mp hkey
  have hfound : (ofList pairs).find? k = some other := find?_foldl_insert_of_mem (honce k) hother
  rw [h] at hfound
  cases hfound
  exact hother

/-- A new key goes last. -/
theorem entries_insert_of_not_mem {m : OrderedMap α} {key : String} (h : key ∉ m.keys)
    (value : α) : (m.insert key value).entries = m.entries ++ [(key, value)] := by
  obtain ⟨entries⟩ := m
  simp only [insert, keys] at h ⊢
  induction entries with
  | nil => rfl
  | cons entry rest ih =>
    obtain ⟨k, v⟩ := entry
    rw [List.map_cons, List.mem_cons, not_or] at h
    have hk : k ≠ key := fun heq => h.1 heq.symm
    rw [insertEntry, if_neg hk, ih h.2, List.cons_append]

theorem entries_foldl_insert {pairs : List (String × α)} {m : OrderedMap α}
    (h : (m.keys ++ pairs.map Prod.fst).Nodup) :
    (pairs.foldl (fun m pair => m.insert pair.1 pair.2) m).entries = m.entries ++ pairs := by
  induction pairs generalizing m with
  | nil => simp
  | cons pair rest ih =>
    have hnew : pair.1 ∉ m.keys := by
      intro hmem
      exact List.disjoint_of_nodup_append h hmem (by simp)
    have hentries := entries_insert_of_not_mem hnew pair.2
    have hkeys : (m.insert pair.1 pair.2).keys = m.keys ++ [pair.1] := by
      rw [keys, hentries, List.map_append]
      rfl
    have hnodup : ((m.insert pair.1 pair.2).keys ++ rest.map Prod.fst).Nodup := by
      rw [hkeys, List.append_assoc]
      exact h
    rw [List.foldl_cons, ih hnodup, hentries, List.append_assoc]
    rfl

/-- **Pairs with different keys are the entries of their map**, in their order. -/
theorem entries_ofList {pairs : List (String × α)} (h : (pairs.map Prod.fst).Nodup) :
    (ofList pairs).entries = pairs := by
  rw [ofList, entries_foldl_insert (by simpa using h)]
  rfl

/-- **Insertion keeps the order in which keys come first.** -/
theorem keys_ofList (pairs : List (String × α)) :
    (ofList pairs).keys = (pairs.map Prod.fst).eraseDups := by
  have hfold (before : List String) (m : OrderedMap α) (hm : m.keys = before.eraseDups) :
      (pairs.foldl (fun m pair => m.insert pair.1 pair.2) m).keys =
        (before ++ pairs.map Prod.fst).eraseDups := by
    induction pairs generalizing before m with
    | nil => rw [List.map_nil, List.append_nil, ← hm]; rfl
    | cons pair rest ih =>
      have hinsert : (m.insert pair.1 pair.2).keys = (before ++ [pair.1]).eraseDups := by
        rw [keys_insert, hm, List.eraseDups_append]
        by_cases hmem : pair.1 ∈ before <;>
          simp [List.removeAll, List.mem_eraseDups, List.eraseDups_cons, hmem]
      rw [List.foldl_cons, ih _ _ hinsert, List.append_assoc]
      rfl
  exact hfold [] .empty rfl

/-- The last value of a key wins. -/
theorem find?_ofList_append_cons (before after : List (String × α)) {key : String} (value : α)
    (h : key ∉ after.map Prod.fst) :
    (ofList (before ++ (key, value) :: after)).find? key = some value := by
  rw [ofList, List.foldl_append, List.foldl_cons, find?_foldl_insert_of_not_mem h, find?_insert,
    if_pos rfl]

/-! ## 3. Insertions where keys are new -/

/-- A known key keeps its value; only the lookup of a new key changes. -/
theorem find?_insertNew (m : OrderedMap α) (key other : String) (value : α) :
    (m.insertNew key value).find? other =
      (m.find? other).or (if other = key then some value else none) := by
  have hknown : m.contains key = true ↔ (m.find? key).isSome = true :=
    contains_iff.trans (find?_isSome_iff m key).symm
  unfold insertNew
  by_cases hkey : m.contains key = true
  · rw [if_pos hkey]
    split
    · rename_i heq
      obtain ⟨known, hvalue⟩ := Option.isSome_iff_exists.mp (hknown.mp hkey)
      rw [heq, hvalue, Option.some_or]
    · rw [Option.or_none]
  · rw [if_neg hkey, find?, find?, List.lookup_append, List.lookup_cons, List.lookup_nil]
    by_cases heq : other = key
    · rw [if_pos heq, beq_iff_eq.mpr heq]
    · rw [if_neg heq, beq_false_of_ne heq]

theorem nodup_keys_insertNew {m : OrderedMap α} (h : m.keys.Nodup) (key : String) (value : α) :
    (m.insertNew key value).keys.Nodup := by
  unfold insertNew
  split
  · exact h
  · rename_i hkey
    have hnew : key ∉ m.keys := fun hmem => hkey (contains_iff.mpr hmem)
    rw [keys, List.map_append, ← keys]
    exact h.append (List.nodup_singleton key) (by simpa using hnew)

section Fold

variable {β : Type v} {f : β → α}

/-- Inserting the values of a list where keys are new: a look-up finds what was there before, else
the first value that the list has for the key. -/
theorem find?_foldl_insertNew {pairs : List (String × β)} {m : OrderedMap α} (key : String) :
    (pairs.foldl (fun m pair => m.insertNew pair.1 (f pair.2)) m).find? key =
      (m.find? key).or ((pairs.lookup key).map f) := by
  induction pairs generalizing m with
  | nil => simp
  | cons pair rest ih =>
    obtain ⟨k, value⟩ := pair
    rw [List.foldl_cons, ih, find?_insertNew, Option.or_assoc, List.lookup_cons]
    by_cases hk : key = k
    · rw [if_pos hk, beq_iff_eq.mpr hk]
      rfl
    · rw [if_neg hk, beq_false_of_ne hk, Option.none_or]

theorem nodup_keys_foldl_insertNew {pairs : List (String × β)} {m : OrderedMap α}
    (h : m.keys.Nodup) :
    (pairs.foldl (fun m pair => m.insertNew pair.1 (f pair.2)) m).keys.Nodup := by
  induction pairs generalizing m with
  | nil => exact h
  | cons pair rest ih => exact ih (nodup_keys_insertNew h pair.1 (f pair.2))

end Fold

end OrderedMap

end MethodGuard
