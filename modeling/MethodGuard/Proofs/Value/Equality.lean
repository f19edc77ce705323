/-
# When a value equals itself

The program compares values with its own equality, and a number that is not one differs from
everything, itself included.  One such number, however deep inside a list or a map, makes a whole
value differ from its copies (`Value.equal_self_iff`).  Nothing else does: in a map without repeated
keys every key finds its own entry again.
-/
import MethodGuard.Proofs.OrderedMap
import MethodGuard.Proofs.Value.RoundTrip

namespace MethodGuard

/-- A number equals itself unless it is not one. -/
theorem Double.equal_self_iff {d : Double} : d.equal d = true ↔ ¬ d.isNaN = true := by
  rw [equal, beq_self_eq_true, Bool.true_or, Bool.and_true, Bool.and_self, Bool.not_eq_true,
    Bool.not_eq_true']

namespace Value

/-- **Somewhere in the value there is a number that is not one.** -/
inductive HoldsNaN : Value → Prop where
  | float {d : Double} : d.isNaN = true → HoldsNaN (.float d)
  | list {items : List Value} {item : Value} : item ∈ items → HoldsNaN item →
      HoldsNaN (.list items)
  | map {entries : List (String × Value)} {entry : String × Value} : entry ∈ entries →
      HoldsNaN entry.2 → HoldsNaN (.map entries)

theorem holdsNaN_float_iff {d : Double} : (Value.float d).HoldsNaN ↔ d.isNaN = true := by
  constructor
  · intro h
    cases h with
    | float hd => exact hd
  · exact .float

theorem holdsNaN_list_iff {items : List Value} :
    (Value.list items).HoldsNaN ↔ ∃ item ∈ items, item.HoldsNaN := by
  constructor
  · intro h
    cases h with
    | list hitem h => exact ⟨_, hitem, h⟩
  · rintro ⟨item, hitem, h⟩
    exact .list hitem h

theorem holdsNaN_map_iff {entries : List (String × Value)} :
    (Value.map entries).HoldsNaN ↔ ∃ entry ∈ entries, entry.2.HoldsNaN := by
  constructor
  · intro h
    cases h with
    | map hentry h => exact ⟨_, hentry, h⟩
  · rintro ⟨entry, hentry, h⟩
    exact .map hentry h

mutual

/-- **A value equals itself** exactly when every number in it is one. -/
theorem equal_self_iff : (v : Value) → v.DistinctKeys → (v.equal v = true ↔ ¬ v.HoldsNaN)
  | .none, _ => by
    rw [equal]
    exact iff_of_true rfl nofun
  | .boolean b, _ => by
    rw [equal]
    exact iff_of_true (beq_self_eq_true b) nofun
  | .integer i, _ => by
    rw [equal]
    exact iff_of_true (beq_self_eq_true i) nofun
  | .float d, _ => by
    rw [equal, holdsNaN_float_iff, Double.equal_self_iff]
  | .string s, _ => by
    rw [equal]
    exact iff_of_true (beq_self_eq_true s) nofun
  | .list items, h => by
    cases h with
    | list h =>
      rw [equal, equalItems_self_iff items h, holdsNaN_list_iff]
      simp only [not_exists, not_and]
  | .map entries, h => by
    cases h with
    | map hkeys h =>
      have hfound : ∀ entry ∈ entries, entries.lookup entry.1 = some entry.2 := fun entry hentry =>
        (OrderedMap.find?_eq_some_iff_mem (m := ⟨entries⟩) hkeys).mpr hentry
      rw [equal, beq_self_eq_true, Bool.true_and, entriesWithin_self_iff entries hfound h,
        holdsNaN_map_iff]
      simp only [not_exists, not_and]

theorem equalItems_self_iff : (items : List Value) → (∀ item ∈ items, item.DistinctKeys) →
    (equalItems items items = true ↔ ∀ item ∈ items, ¬ item.HoldsNaN)
  | [], _ => by
    rw [equalItems]
    exact iff_of_true rfl nofun
  | item :: items, h => by
    obtain ⟨hitem, hitems⟩ := List.forall_mem_cons.mp h
    rw [equalItems, Bool.and_eq_true, equal_self_iff item hitem, equalItems_self_iff items hitems,
      List.forall_mem_cons]

/-- Entries that a map finds again under their keys are equal to what it finds exactly when they
equal themselves. -/
theorem entriesWithin_self_iff {all : List (String × Value)} :
    (entries : List (String × Value)) →
    (∀ entry ∈ entries, all.lookup entry.1 = some entry.2) →
    (∀ entry ∈ entries, entry.2.DistinctKeys) →
    (entriesWithin entries all = true ↔ ∀ entry ∈ entries, ¬ entry.2.HoldsNaN)
  | [], _, _ => by
    rw [entriesWithin]
    exact iff_of_true rfl nofun
  | (key, value) :: entries, hfound, h => by
    obtain ⟨hkey, hrest⟩ := List.forall_mem_cons.mp hfound
    obtain ⟨hvalue, hentries⟩ := List.forall_mem_cons.mp h
    rw [entriesWithin, hkey, Bool.and_eq_true, equal_self_iff value hvalue,
      entriesWithin_self_iff entries hrest hentries, List.forall_mem_cons]

end

end Value

end MethodGuard
