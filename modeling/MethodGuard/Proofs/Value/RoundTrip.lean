/-
# Values and their JSON data

A value has one form in JSON, and the form gives the value back, provided that no map in it repeats
a key (`Value.ofJson_toJson`).  Reading the form from a text asks more: a float need not survive
it, so the value must be `FloatFree` (`Value.exact_toJson`).

Both are conditions on a value at every depth.  Maps that programs build satisfy the first one; it
has to be said because the entries of a map are plain data.
-/
import MethodGuard.Proofs.Json.RoundTrip
import MethodGuard.Proofs.OrderedMap
import MethodGuard.Value.Json

namespace MethodGuard

namespace Value

/-! ## 1. Conditions at every depth -/

/-- **A value without floats.** -/
inductive FloatFree : Value → Prop where
  | none : FloatFree .none
  | boolean (b : Bool) : FloatFree (.boolean b)
  | integer (i : Int64) : FloatFree (.integer i)
  | string (s : String) : FloatFree (.string s)
  | list {items : List Value} : (∀ item ∈ items, FloatFree item) → FloatFree (.list items)
  | map {entries : List (String × Value)} : (∀ entry ∈ entries, FloatFree entry.2) →
      FloatFree (.map entries)

/-- **A value whose maps do not repeat keys.** -/
inductive DistinctKeys : Value → Prop where
  | none : DistinctKeys .none
  | boolean (b : Bool) : DistinctKeys (.boolean b)
  | integer (i : Int64) : DistinctKeys (.integer i)
  | float (d : Double) : DistinctKeys (.float d)
  | string (s : String) : DistinctKeys (.string s)
  | list {items : List Value} : (∀ item ∈ items, DistinctKeys item) → DistinctKeys (.list items)
  | map {entries : List (String × Value)} : (entries.map Prod.fst).Nodup →
      (∀ entry ∈ entries, DistinctKeys entry.2) → DistinctKeys (.map entries)

/-! ## 2. The data of a value -/

mutual

/-- The data of a value without floats is given back by its text. -/
theorem exact_toJson : (v : Value) → v.FloatFree → v.toJson.Exact
  | .none, _ => .null
  | .boolean b, _ => .boolean b
  | .integer i, _ => by
    have hmin := Int64.le_toInt i
    have hmax := Int64.toInt_lt i
    exact .integer (by omega) (by omega)
  | .float _, h => nomatch h
  | .string s, _ => .string s
  | .list items, h => by
    cases h with
    | list h => exact .array (exact_itemsToJson items h)
  | .map entries, h => by
    cases h with
    | map h => exact .object (exact_entriesToJson entries h)

theorem exact_itemsToJson : (items : List Value) → (∀ item ∈ items, item.FloatFree) →
    ∀ j ∈ itemsToJson items, j.Exact
  | [], _, _, hj => nomatch hj
  | item :: items, h, j, hj => by
    obtain ⟨hitem, hitems⟩ := List.forall_mem_cons.mp h
    rcases List.mem_cons.mp hj with rfl | hj
    · exact exact_toJson item hitem
    · exact exact_itemsToJson items hitems j hj

theorem exact_entriesToJson : (entries : List (String × Value)) →
    (∀ entry ∈ entries, entry.2.FloatFree) → ∀ m ∈ entriesToJson entries, m.2.Exact
  | [], _, _, hm => nomatch hm
  | (key, value) :: entries, h, m, hm => by
    obtain ⟨hvalue, hentries⟩ := List.forall_mem_cons.mp h
    rcases List.mem_cons.mp hm with rfl | hm
    · exact exact_toJson value hvalue
    · exact exact_entriesToJson entries hentries m hm

end

theorem fits_toInt (i : Int64) : fits i.toInt = true := by
  rw [fits, decide_eq_true (Int64.minValue_le_toInt i), decide_eq_true (Int64.toInt_le i)]
  rfl

theorem toInt_ofInt_of_fits {n : Int} (h : fits n = true) : (Int64.ofInt n).toInt = n := by
  simp only [fits, Bool.and_eq_true, decide_eq_true_eq] at h
  have hmin : Int64.minValue.toInt = -2 ^ 63 := by decide
  have hmax : Int64.maxValue.toInt = 2 ^ 63 - 1 := by decide
  exact Int64.toInt_ofInt_of_le (by omega) (by omega)

/-- 64 bits hold every integer that they held before. -/
theorem ofInt_toInt (i : Int64) : ofInt i.toInt = .integer i := by
  rw [ofInt, if_pos (fits_toInt i), Int64.ofInt_toInt]

mutual

/-- **The data of a value gives the value back.** -/
theorem ofJson_toJson : (v : Value) → v.DistinctKeys → ofJson v.toJson = v
  | .none, _ => rfl
  | .boolean _, _ => rfl
  | .integer i, _ => ofInt_toInt i
  | .float _, _ => rfl
  | .string _, _ => rfl
  | .list items, h => by
    cases h with
    | list h => rw [toJson, ofJson, ofItems_itemsToJson items h]
  | .map entries, h => by
    cases h with
    | map hkeys h =>
      rw [toJson, ofJson, ofMembers_entriesToJson entries h, OrderedMap.entries_ofList hkeys]

theorem ofItems_itemsToJson : (items : List Value) → (∀ item ∈ items, item.DistinctKeys) →
    ofItems (itemsToJson items) = items
  | [], _ => rfl
  | item :: items, h => by
    obtain ⟨hitem, hitems⟩ := List.forall_mem_cons.mp h
    rw [itemsToJson, ofItems, ofJson_toJson item hitem, ofItems_itemsToJson items hitems]

theorem ofMembers_entriesToJson : (entries : List (String × Value)) →
    (∀ entry ∈ entries, entry.2.DistinctKeys) → ofMembers (entriesToJson entries) = entries
  | [], _ => rfl
  | (key, value) :: entries, h => by
    obtain ⟨hvalue, hentries⟩ := List.forall_mem_cons.mp h
    rw [entriesToJson, ofMembers, ofJson_toJson value hvalue,
      ofMembers_entriesToJson entries hentries]

end

/-- **The tree of a value's text means the value**, as deep as it may nest. -/
theorem ofJson_meaning? {v : Value} (hfloats : v.FloatFree) (hkeys : v.DistinctKeys) {depth : Nat}
    (hdepth : v.toJson.depth ≤ depth) :
    (v.toJson.written.meaning? depth).map ofJson = some v := by
  rw [Json.meaning?_written (exact_toJson v hfloats) hdepth, Option.map_some,
    ofJson_toJson v hkeys]

/-- Only the absence of a value is written as `null`. -/
theorem written_toJson_ne_null {v : Value} (h : v.FloatFree) (hnone : v ≠ .none) :
    v.toJson.written ≠ .null := by
  cases h with
  | none => exact absurd rfl hnone
  | _ => nofun

end Value

end MethodGuard
