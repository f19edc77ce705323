/-
# Values read back from their texts

A value is written to a text in one way and read in two: with its maps in the order of the text,
and with its maps in the byte order of their keys.  The first reading gives the value itself; the
second gives `Value.inKeyOrder`, the value with every map in it sorted, at every depth
(`Value.read_back_from_text`).

The second reading sorts by insertion while it goes through the members of an object.  What it ends
with is a permutation of these members with ascending keys (`Json.sortedMembers_perm`,
`Json.pairwise_sortedMembers`), and where no key is repeated there is only one such list
(`Value.sortedByKey_eq`).
-/
import MethodGuard.Proofs.Text.ByteOrder
import MethodGuard.Proofs.Value.RoundTrip

namespace MethodGuard

open scoped List

/-! ## 1. Objects sorted by insertion -/

namespace Json

variable {key : String} {value : Json} {done members : List (String × Json)}

/-- A member is inserted where its key is inserted among the keys. -/
theorem map_fst_insertMember : (insertMember key value members).map Prod.fst =
    NameSet.insertSorted key (members.map Prod.fst) := by
  induction members with
  | nil => rfl
  | cons member rest ih =>
    obtain ⟨k, v⟩ := member
    rw [insertMember, List.map_cons, NameSet.insertSorted]
    split
    · rfl
    · split
      · rfl
      · rw [List.map_cons, ih]

/-- A member with a new key is added, and nothing else happens. -/
theorem insertMember_perm (h : key ∉ members.map Prod.fst) :
    insertMember key value members ~ (key, value) :: members := by
  induction members with
  | nil => exact .refl _
  | cons member rest ih =>
    obtain ⟨k, v⟩ := member
    rw [List.map_cons, List.mem_cons, not_or] at h
    rw [insertMember]
    split
    · exact .refl _
    · rw [if_neg h.1]
      exact ((ih h.2).cons (k, v)).trans (.swap _ _ _)

/-- **Members with different keys are all kept**, each with its own objects sorted. -/
theorem sortedMembers_perm (h : (done.map Prod.fst ++ members.map Prod.fst).Nodup) :
    sortedMembers done members ~ done ++ members.map fun m => (m.1, m.2.sorted) := by
  induction members generalizing done with
  | nil => rw [sortedMembers, List.map_nil, List.append_nil]
  | cons member rest ih =>
    obtain ⟨key, value⟩ := member
    have hnew : key ∉ done.map Prod.fst := fun hkey =>
      List.disjoint_of_nodup_append h hkey List.mem_cons_self
    have hinsert : insertMember key value.sorted done ~ (key, value.sorted) :: done :=
      insertMember_perm hnew
    have hnodup : ((insertMember key value.sorted done).map Prod.fst ++ rest.map Prod.fst).Nodup :=
      (((hinsert.map Prod.fst).append_right _).trans List.perm_middle.symm).nodup_iff.mpr h
    calc sortedMembers done ((key, value) :: rest)
        = sortedMembers (insertMember key value.sorted done) rest := by rw [sortedMembers]
      _ ~ insertMember key value.sorted done ++ rest.map fun m => (m.1, m.2.sorted) := ih hnodup
      _ ~ (key, value.sorted) :: done ++ rest.map fun m => (m.1, m.2.sorted) :=
        hinsert.append_right _
      _ ~ done ++ ((key, value) :: rest).map fun m => (m.1, m.2.sorted) := List.perm_middle.symm

/-- **The keys of a sorted object ascend.** -/
theorem pairwise_sortedMembers (h : (done.map Prod.fst).Pairwise (· < ·)) :
    ((sortedMembers done members).map Prod.fst).Pairwise (· < ·) := by
  induction members generalizing done with
  | nil => rwa [sortedMembers]
  | cons member rest ih =>
    obtain ⟨key, value⟩ := member
    rw [sortedMembers]
    refine ih ?_
    rw [map_fst_insertMember]
    exact NameSet.insertSorted_pairwise h

end Json

/-! ## 2. Values with their maps sorted -/

namespace ByteOrder

/-- Strings are compared as their bytes are. -/
theorem utf8_le_iff {s t : String} : utf8 s ≤ utf8 t ↔ s ≤ t := by
  constructor
  · intro h
    exact String.not_lt.mp fun hlt => List.not_lt.mpr h (utf8_lt hlt)
  · intro h
    by_cases heq : s = t
    · rw [heq]
      exact List.le_refl _
    · have hlt : s < t := NameSet.lt_of_not_lt_of_ne (String.not_lt.mpr h) (Ne.symm heq)
      exact List.le_of_lt (utf8_lt hlt)

end ByteOrder

namespace Value

/-- Entries in the byte order of their keys. -/
def sortedByKey (entries : List (String × Value)) : List (String × Value) :=
  entries.mergeSort fun a b => decide (ByteOrder.utf8 a.1 ≤ ByteOrder.utf8 b.1)

mutual

/-- **The value with the entries of every map in the byte order of their keys.** -/
def inKeyOrder : Value → Value
  | .list items => .list (itemsInKeyOrder items)
  | .map entries => .map (sortedByKey (entriesInKeyOrder entries))
  | v => v

/-- The items of a list, each with its maps sorted. -/
def itemsInKeyOrder : List Value → List Value
  | [] => []
  | item :: rest => item.inKeyOrder :: itemsInKeyOrder rest

/-- The entries of a map in their old order, each value with its maps sorted. -/
def entriesInKeyOrder : List (String × Value) → List (String × Value)
  | [] => []
  | (key, value) :: rest => (key, value.inKeyOrder) :: entriesInKeyOrder rest

end

/-- **Entries can be put in the order of their keys in one way**, if no key is repeated. -/
theorem sortedByKey_eq {entries sorted : List (String × Value)} (hperm : sorted ~ entries)
    (hsorted : (sorted.map Prod.fst).Pairwise (· < ·)) : sortedByKey entries = sorted := by
  have hnodup : (sorted.map Prod.fst).Nodup := hsorted.imp String.ne_of_lt
  have hmerged : sortedByKey entries ~ sorted := (List.mergeSort_perm _ _).trans hperm.symm
  have hascending : (sortedByKey entries).Pairwise fun a b => a.1 ≤ b.1 := by
    simp only [sortedByKey, ByteOrder.utf8_le_iff]
    have hpairwise : (entries.mergeSort fun a b => decide (a.1 ≤ b.1)).Pairwise
        fun a b => decide (a.1 ≤ b.1) = true := by
      refine List.pairwise_mergeSort ?_ ?_ entries
      · intro a b c hab hbc
        simp only [decide_eq_true_eq] at hab hbc ⊢
        exact String.le_trans hab hbc
      · intro a b
        simp only [Bool.or_eq_true, decide_eq_true_eq]
        exact String.le_total a.1 b.1
    simpa only [decide_eq_true_eq] using hpairwise
  refine List.Perm.eq_of_pairwise ?_ hascending ?_ hmerged
  · intro a b ha hb hab hba
    exact List.inj_on_of_nodup_map hnodup (hmerged.subset ha) hb (String.le_antisymm hab hba)
  · exact (List.pairwise_map.mp hsorted).imp fun hlt => String.not_lt.mp (String.lt_asymm hlt)

/-! ## 3. What is read -/

mutual

/-- How deep the lists and maps of a value nest. -/
def depth : Value → Nat
  | .list items => itemsDepth items + 1
  | .map entries => entriesDepth entries + 1
  | _ => 0

/-- How deep the lists and maps of some items nest. -/
def itemsDepth : List Value → Nat
  | [] => 0
  | item :: rest => max item.depth (itemsDepth rest)

/-- How deep the lists and maps of some entries nest. -/
def entriesDepth : List (String × Value) → Nat
  | [] => 0
  | (_, value) :: rest => max value.depth (entriesDepth rest)

end

mutual

/-- The data of a value nests as deep as the value. -/
theorem depth_toJson : (v : Value) → v.toJson.depth = v.depth
  | .none => rfl
  | .boolean _ => rfl
  | .integer _ => rfl
  | .float _ => rfl
  | .string _ => rfl
  | .list items => by rw [toJson, Json.depth, depth, itemsDepth_itemsToJson items]
  | .map entries => by rw [toJson, Json.depth, depth, membersDepth_entriesToJson entries]

theorem itemsDepth_itemsToJson : (items : List Value) →
    Json.itemsDepth (itemsToJson items) = itemsDepth items
  | [] => rfl
  | item :: rest => by
    rw [itemsToJson, Json.itemsDepth, itemsDepth, depth_toJson item, itemsDepth_itemsToJson rest]

theorem membersDepth_entriesToJson : (entries : List (String × Value)) →
    Json.membersDepth (entriesToJson entries) = entriesDepth entries
  | [] => rfl
  | (_, value) :: rest => by
    rw [entriesToJson, Json.membersDepth, entriesDepth, depth_toJson value,
      membersDepth_entriesToJson rest]

end

theorem map_fst_entriesToJson (entries : List (String × Value)) :
    (entriesToJson entries).map Prod.fst = entries.map Prod.fst := by
  induction entries with
  | nil => rfl
  | cons entry rest ih => rw [entriesToJson, List.map_cons, List.map_cons, ih]

theorem ofMembers_eq_map (members : List (String × Json)) :
    ofMembers members = members.map fun m => (m.1, ofJson m.2) := by
  induction members with
  | nil => rfl
  | cons member rest ih => rw [ofMembers, List.map_cons, ih]

theorem ofItems_sortedItems_eq_map (items : List Json) :
    ofItems (Json.sortedItems items) = items.map fun item => ofJson item.sorted := by
  induction items with
  | nil => rfl
  | cons item rest ih => rw [Json.sortedItems, ofItems, ih, List.map_cons]

theorem map_fst_ofMembers (members : List (String × Json)) :
    (ofMembers members).map Prod.fst = members.map Prod.fst := by
  rw [ofMembers_eq_map, List.map_map]
  rfl

/-- The entries of a map are those of the sorted object, put in order once more. -/
theorem ofMembers_sortedMembers {entries sorted : List (String × Value)}
    (hkeys : (entries.map Prod.fst).Nodup)
    (h : ofMembers ((entriesToJson entries).map fun m => (m.1, m.2.sorted)) = sorted) :
    (OrderedMap.ofList (ofMembers (Json.sortedMembers [] (entriesToJson entries)))).entries =
      sortedByKey sorted := by
  have hperm : Json.sortedMembers [] (entriesToJson entries) ~
      (entriesToJson entries).map fun m => (m.1, m.2.sorted) := by
    refine Json.sortedMembers_perm ?_
    rwa [List.map_nil, List.nil_append, map_fst_entriesToJson]
  have hascending : ((ofMembers (Json.sortedMembers [] (entriesToJson entries))).map
      Prod.fst).Pairwise (· < ·) := by
    rw [ofMembers_eq_map, List.map_map]
    exact Json.pairwise_sortedMembers .nil
  rw [OrderedMap.entries_ofList (hascending.imp String.ne_of_lt)]
  refine (sortedByKey_eq ?_ hascending).symm
  rw [← h, ofMembers_eq_map, ofMembers_eq_map]
  exact hperm.map _

mutual

/-- **The data of a value, sorted, gives the value in the order of its keys.** -/
theorem ofJson_sorted_toJson : (v : Value) → v.DistinctKeys → ofJson v.toJson.sorted = v.inKeyOrder
  | .none, _ => rfl
  | .boolean _, _ => rfl
  | .integer i, _ => ofInt_toInt i
  | .float _, _ => rfl
  | .string _, _ => rfl
  | .list items, h => by
    cases h with
    | list h => rw [toJson, Json.sorted, ofJson, ofItems_sortedItems items h, inKeyOrder]
  | .map entries, h => by
    cases h with
    | map hkeys h =>
      rw [toJson, Json.sorted, ofJson, inKeyOrder,
        ofMembers_sortedMembers hkeys (ofMembers_map_sorted entries h)]

theorem ofItems_sortedItems : (items : List Value) → (∀ item ∈ items, item.DistinctKeys) →
    ofItems (Json.sortedItems (itemsToJson items)) = itemsInKeyOrder items
  | [], _ => rfl
  | item :: items, h => by
    obtain ⟨hitem, hitems⟩ := List.forall_mem_cons.mp h
    rw [itemsToJson, Json.sortedItems, ofItems, ofJson_sorted_toJson item hitem,
      ofItems_sortedItems items hitems, itemsInKeyOrder]

theorem ofMembers_map_sorted : (entries : List (String × Value)) →
    (∀ entry ∈ entries, entry.2.DistinctKeys) →
    ofMembers ((entriesToJson entries).map fun m => (m.1, m.2.sorted)) = entriesInKeyOrder entries
  | [], _ => rfl
  | (key, value) :: entries, h => by
    obtain ⟨hvalue, hentries⟩ := List.forall_mem_cons.mp h
    rw [entriesToJson, List.map_cons, ofMembers, ofJson_sorted_toJson value hvalue,
      ofMembers_map_sorted entries hentries, entriesInKeyOrder]

end

/-- **A value is read back from its text**, as it was, with the entries of every map in their order;
and where the reader sorts what it reads, in the order of its keys.  A text that nests too deep is
not read either way. -/
theorem read_back_from_text {v : Value} (hfloats : v.FloatFree) (hkeys : v.DistinctKeys) :
    (read? v.toJson.text = if v.depth ≤ Written.depthLimit then some v else Option.none) ∧
      readSorted? v.toJson.text =
        if v.depth ≤ Written.depthLimit then some v.inKeyOrder else Option.none := by
  have hread : Json.read? v.toJson.text =
      if v.depth ≤ Written.depthLimit then some v.toJson else Option.none := by
    rw [Json.read?_text (exact_toJson v hfloats), depth_toJson]
  constructor
  · rw [read?, hread, Option.map_if, ofJson_toJson v hkeys]
  · rw [readSorted?, hread, Option.map_if, ofJson_sorted_toJson v hkeys]

/-- A value with keys out of order at two depths, a control character and the smallest integer. -/
def settings : Value :=
  .map [("scale", .list [.integer Int64.minValue, .none, .string "é\x01\"\n", .list []]),
    ("limits", .map [("z", .boolean true), ("", .map [])])]

theorem read_back_from_text_settings : (settings.FloatFree ∧ settings.DistinctKeys) ∧
    read? settings.toJson.text = some settings ∧
      readSorted? settings.toJson.text = some settings.inKeyOrder := by
  have hscale : (Value.list [.integer Int64.minValue, .none, .string "é\x01\"\n",
        .list []]).FloatFree ∧
      (Value.list [.integer Int64.minValue, .none, .string "é\x01\"\n", .list []]).DistinctKeys :=
    ⟨.list (by simp [FloatFree.integer, FloatFree.none, FloatFree.string, FloatFree.list]),
      .list (by simp [DistinctKeys.integer, DistinctKeys.none, DistinctKeys.string,
        DistinctKeys.list])⟩
  have hlimits : (Value.map [("z", .boolean true), ("", .map [])]).FloatFree ∧
      (Value.map [("z", .boolean true), ("", .map [])]).DistinctKeys :=
    ⟨.map (by simp [FloatFree.boolean, FloatFree.map]),
      .map (by decide) (by simp [DistinctKeys.boolean, DistinctKeys.map])⟩
  have hfloats : settings.FloatFree := .map (by simp [hscale.1, hlimits.1])
  have hkeys : settings.DistinctKeys := .map (by decide) (by simp [hscale.2, hlimits.2])
  have hdepth : settings.depth ≤ Written.depthLimit := by decide
  have hread := read_back_from_text hfloats hkeys
  rw [if_pos hdepth, if_pos hdepth] at hread
  exact ⟨⟨hfloats, hkeys⟩, hread⟩

example : settings.inKeyOrder = .map [("limits", .map [("", .map []), ("z", .boolean true)]),
    ("scale", .list [.integer Int64.minValue, .none, .string "é\x01\"\n", .list []])] := by cbv

end Value

end MethodGuard
