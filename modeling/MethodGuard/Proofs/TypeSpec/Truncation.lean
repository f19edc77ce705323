/-
# What a check sees of a value

The check that looks at the first element of each container might be thought to be a check of its
own.  It is the exhaustive one, of a smaller value: `Value.truncated` cuts every list to its first
item and every map to its first entry, at every depth, and the two checks answer alike, down to the
mismatch (`TypeSpec.check_firstItem_eq`).

So one notion of inhabitant serves both strategies, if it is asked of what the strategy sees
(`TypeSpec.check_eq_ok_iff`).  A member of a union may match what is seen of a value and not the
value itself, but what inhabits a descriptor still does when it is truncated
(`Value.inhabits_truncated`): the quicker check refuses nothing that the exhaustive one lets pass.
-/
import MethodGuard.Proofs.TypeSpec.Inhabits

namespace MethodGuard

/-! ## 1. Truncated values -/

namespace Value

mutual

/-- **The value with every list cut to its first item and every map to its first entry.** -/
def truncated : Value → Value
  | .list items => .list (truncatedItems items)
  | .map entries => .map (truncatedEntries entries)
  | v => v

/-- The first item of a list, truncated. -/
def truncatedItems : List Value → List Value
  | [] => []
  | item :: _ => [item.truncated]

/-- The first entry of a map, with its value truncated. -/
def truncatedEntries : List (String × Value) → List (String × Value)
  | [] => []
  | (key, value) :: _ => [(key, value.truncated)]

end

/-- **A value whose lists and maps hold one element at most**, at every depth. -/
inductive Slender : Value → Prop where
  | none : Slender .none
  | boolean (b : Bool) : Slender (.boolean b)
  | integer (i : Int64) : Slender (.integer i)
  | float (d : Double) : Slender (.float d)
  | string (s : String) : Slender (.string s)
  | list {items : List Value} : items.length ≤ 1 → (∀ item ∈ items, Slender item) →
      Slender (.list items)
  | map {entries : List (String × Value)} : entries.length ≤ 1 →
      (∀ entry ∈ entries, Slender entry.2) → Slender (.map entries)

variable {v : Value} {t : TypeSpec}

theorem kind_truncated (v : Value) : v.truncated.kind = v.kind := by
  cases v <;> rfl

/-- There is nothing to cut from a slender value. -/
theorem truncated_of_slender (h : v.Slender) : v.truncated = v := by
  induction h with
  | @list items hlength _ ih =>
    cases items with
    | nil => rfl
    | cons item rest =>
      obtain rfl : rest = [] := List.eq_nil_of_length_eq_zero (by simpa using hlength)
      rw [truncated, truncatedItems, ih item List.mem_cons_self]
  | @map entries hlength _ ih =>
    cases entries with
    | nil => rfl
    | cons entry rest =>
      obtain rfl : rest = [] := List.eq_nil_of_length_eq_zero (by simpa using hlength)
      rw [truncated, truncatedEntries, ih entry List.mem_cons_self]
  | _ => rfl

/-- **An inhabitant stays one when it is truncated.** -/
theorem inhabits_truncated (h : v.Inhabits t) : v.truncated.Inhabits t := by
  induction h with
  | any v => exact .any _
  | none => exact .none
  | boolean b => exact .boolean b
  | integer i => exact .integer i
  | float d => exact .float d
  | widened i => exact .widened i
  | string s => exact .string s
  | @list items element _ ih =>
    cases items with
    | nil => exact .list nofun
    | cons item rest =>
      exact .list (List.forall_mem_singleton.mpr (ih item List.mem_cons_self))
  | @map entries element _ ih =>
    cases entries with
    | nil => exact .map nofun
    | cons entry rest =>
      exact .map (List.forall_mem_singleton.mpr (ih entry List.mem_cons_self))
  | absent inner => exact .absent inner
  | present _ ih => exact .present ih
  | member ht _ ih => exact .member ht ih

end Value

/-- What a strategy sees of a value. -/
def CollectionCheck.seen (strategy : CollectionCheck) (v : Value) : Value :=
  match strategy with
  | .firstItem => v.truncated
  | .allItems => v

namespace TypeSpec

/-! ## 2. The check of the first elements -/

mutual

/-- **The check of the first elements is the exhaustive check of the truncated value.** -/
theorem check_firstItem_eq : (t : TypeSpec) → (v : Value) →
    t.check .firstItem v = t.check .allItems v.truncated
  | .any, _ => rfl
  | .none, v => by cases v <;> rfl
  | .boolean, v => by cases v <;> rfl
  | .integer, v => by cases v <;> rfl
  | .float, v => by cases v <;> rfl
  | .string, v => by cases v <;> rfl
  | .list element, v => by
    cases v with
    | list items =>
      -- either walk is over one item at most
      cases items with
      | nil => rfl
      | cons item rest =>
        have hitem := check_firstItem_eq element item
        calc check .firstItem (.list element) (.list (item :: rest))
            = checkItems (check .firstItem element) 0 [item] := rfl
          _ = checkItems (check .allItems element) 0 [item.truncated] := by
            simp only [checkItems, hitem]
    | _ => rfl
  | .map element, v => by
    cases v with
    | map entries =>
      cases entries with
      | nil => rfl
      | cons entry rest =>
        obtain ⟨key, value⟩ := entry
        have hvalue := check_firstItem_eq element value
        calc check .firstItem (.map element) (.map ((key, value) :: rest))
            = checkEntries (check .firstItem element) [(key, value)] := rfl
          _ = checkEntries (check .allItems element) [(key, value.truncated)] := by
            simp only [checkEntries, hvalue]
    | _ => rfl
  | .optional inner, v => by
    cases v with
    | none => rfl
    | _ => exact check_firstItem_eq inner _
  | .union members, v => by
    rw [check, check, anyMatches_firstItem_eq members v, v.kind_truncated]

theorem anyMatches_firstItem_eq : (members : List TypeSpec) → (v : Value) →
    anyMatches .firstItem members v = anyMatches .allItems members v.truncated
  | [], _ => rfl
  | t :: rest, v => by
    rw [anyMatches, anyMatches, check_firstItem_eq t v, anyMatches_firstItem_eq rest v]

end

variable {strategy : CollectionCheck} {t : TypeSpec} {v : Value}

/-- **A check lets a value pass exactly if what it sees of it inhabits the descriptor.** -/
theorem check_eq_ok_iff : t.check strategy v = .ok () ↔ (strategy.seen v).Inhabits t := by
  cases strategy with
  | firstItem =>
    rw [check_firstItem_eq]
    exact check_allItems_eq_ok_iff
  | allItems => exact check_allItems_eq_ok_iff

/-- **The two strategies.**  Looking at the first elements is looking at everything in the truncated
value, with the same mismatch; it lets pass what the exhaustive check lets pass; and it is the
exhaustive check where no list and no map has a second element. -/
theorem check_firstItem_exact (t : TypeSpec) (v : Value) :
    t.check .firstItem v = t.check .allItems v.truncated ∧
      (t.check .allItems v = .ok () → t.check .firstItem v = .ok ()) ∧
      (v.Slender → t.check .firstItem v = t.check .allItems v) := by
  refine ⟨check_firstItem_eq t v, fun h => ?_, fun h => ?_⟩
  · exact check_eq_ok_iff.mpr (Value.inhabits_truncated (check_allItems_eq_ok_iff.mp h))
  · rw [check_firstItem_eq, Value.truncated_of_slender h]

/-- Tables of integers, one for each row. -/
def rows : TypeSpec := .list (.map .integer)

theorem check_firstItem_exact_rows :
    (rows.check .allItems (.list [.map [("x", .integer 1), ("y", .integer 2)], .map []]) = .ok () ∧
      rows.check .firstItem (.list [.map [("x", .integer 1), ("y", .integer 2)], .map []]) =
        .ok ()) ∧
    (Value.list [.map [("x", .boolean true)]]).Slender ∧
      rows.check .firstItem (.list [.map [("x", .boolean true)]]) =
        rows.check .allItems (.list [.map [("x", .boolean true)]]) := by
  have hpasses : rows.check .allItems
      (.list [.map [("x", .integer 1), ("y", .integer 2)], .map []]) = .ok () := rfl
  have hrow : (Value.map [("x", .boolean true)]).Slender :=
    .map (Nat.le_refl 1) (List.forall_mem_singleton.mpr (.boolean true))
  have hslender : (Value.list [.map [("x", .boolean true)]]).Slender :=
    .list (Nat.le_refl 1) (List.forall_mem_singleton.mpr hrow)
  exact ⟨⟨hpasses, (check_firstItem_exact rows _).2.1 hpasses⟩, hslender,
    (check_firstItem_exact rows _).2.2 hslender⟩

example : rows.check .firstItem (.list [.map [("x", .integer 1), ("y", .none)], .none]) = .ok () ∧
    rows.check .allItems (.list [.map [("x", .integer 1), ("y", .none)], .none]) =
      .error (.item 0 (.entry "y" (.kind .none .integer))) := ⟨rfl, rfl⟩

end TypeSpec

end MethodGuard
