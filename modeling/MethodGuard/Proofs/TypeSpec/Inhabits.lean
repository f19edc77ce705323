/-
# The values that inhabit a descriptor

Which values a descriptor admits is said here by rules, one for each way to inhabit a descriptor
(`Value.Inhabits`).  They do not mention the check, which goes by the cases of descriptor AND value
and takes the first that fits.  The check that looks at everything decides them
(`TypeSpec.check_allItems_eq_ok_iff`), so what is said of inhabitants holds of it.
-/
import MethodGuard.TypeSpec.Basic

namespace MethodGuard

/-! ## 1. Inhabitants -/

namespace Value

/-- **The values that inhabit a descriptor.** -/
inductive Inhabits : Value → TypeSpec → Prop where
  | any (v : Value) : Inhabits v .any
  | none : Inhabits .none .none
  | boolean (b : Bool) : Inhabits (.boolean b) .boolean
  | integer (i : Int64) : Inhabits (.integer i) .integer
  | float (d : Double) : Inhabits (.float d) .float
  /-- An integer where a float is expected. -/
  | widened (i : Int64) : Inhabits (.integer i) .float
  | string (s : String) : Inhabits (.string s) .string
  | list {items : List Value} {element : TypeSpec} : (∀ item ∈ items, Inhabits item element) →
      Inhabits (.list items) (.list element)
  | map {entries : List (String × Value)} {element : TypeSpec} :
      (∀ entry ∈ entries, Inhabits entry.2 element) → Inhabits (.map entries) (.map element)
  /-- No value where one is optional. -/
  | absent (inner : TypeSpec) : Inhabits .none (.optional inner)
  /-- A value where one is optional. -/
  | present {v : Value} {inner : TypeSpec} : Inhabits v inner → Inhabits v (.optional inner)
  | member {v : Value} {t : TypeSpec} {members : List TypeSpec} : t ∈ members → Inhabits v t →
      Inhabits v (.union members)

theorem inhabits_list_nil (element : TypeSpec) : (Value.list []).Inhabits (.list element) :=
  .list nofun

theorem inhabits_map_nil (element : TypeSpec) : (Value.map []).Inhabits (.map element) :=
  .map nofun

end Value

namespace TypeSpec

/-! ## 2. The walks of a check -/

section Walks

variable {check : Value → Except Mismatch Unit} {strategy : CollectionCheck} {v : Value}

theorem checkItems_eq_ok_iff {items : List Value} {start : Nat} :
    checkItems check start items = .ok () ↔ ∀ item ∈ items, check item = .ok () := by
  induction items generalizing start with
  | nil => exact iff_of_true rfl nofun
  | cons item rest ih =>
    rw [checkItems, List.forall_mem_cons]
    cases check item with
    | ok u => simpa using ih
    | error m => exact iff_of_false nofun fun h => nomatch h.1

theorem checkEntries_eq_ok_iff {entries : List (String × Value)} :
    checkEntries check entries = .ok () ↔ ∀ entry ∈ entries, check entry.2 = .ok () := by
  induction entries with
  | nil => exact iff_of_true rfl nofun
  | cons entry rest ih =>
    obtain ⟨key, value⟩ := entry
    rw [checkEntries, List.forall_mem_cons]
    cases check value with
    | ok u => simpa using ih
    | error m => exact iff_of_false nofun fun h => nomatch h.1

/-- A value matches one of the members exactly if the check of some member lets it pass. -/
theorem anyMatches_iff {members : List TypeSpec} :
    anyMatches strategy members v = true ↔ ∃ t ∈ members, t.check strategy v = .ok () := by
  induction members with
  | nil => exact iff_of_false nofun nofun
  | cons t rest ih =>
    simp only [anyMatches, Bool.or_eq_true, ih, List.mem_cons, exists_eq_or_imp]
    refine or_congr_left ?_
    cases t.check strategy v with
    | ok u => exact iff_of_true rfl rfl
    | error m => exact iff_of_false nofun nofun

end Walks

/-! ## 3. Where the runtime type decides -/

/-- **Nothing to choose and nothing to look into**: the descriptor is neither optional nor a union,
nor does a list meet the descriptor of lists or a map that of maps. -/
def Plain : TypeSpec → Value → Prop
  | .optional _, _ => False
  | .union _, _ => False
  | .list _, .list _ => False
  | .map _, .map _ => False
  | _, _ => True

section Plain

variable {t : TypeSpec} {v : Value}

/-- **There the runtime type of the value decides**, for a check as for the rules: the value is an
inhabitant, or no value of its runtime type is one. -/
theorem Plain.decided (hplain : Plain t v) :
    (v.Inhabits t ∧ ∀ strategy, t.check strategy v = .ok ()) ∨
      (∀ w : Value, w.kind = v.kind → ¬ w.Inhabits t) ∧
        ∀ strategy, t.check strategy v = .error (.kind v.kind t) := by
  cases t with
  | any => exact .inl ⟨.any v, fun _ => rfl⟩
  | none =>
    cases v with
    | none => exact .inl ⟨.none, fun _ => rfl⟩
    | _ => exact .inr ⟨fun _ hw h => (by cases h; cases hw), fun _ => rfl⟩
  | boolean =>
    cases v with
    | boolean b => exact .inl ⟨.boolean b, fun _ => rfl⟩
    | _ => exact .inr ⟨fun _ hw h => (by cases h; cases hw), fun _ => rfl⟩
  | integer =>
    cases v with
    | integer i => exact .inl ⟨.integer i, fun _ => rfl⟩
    | _ => exact .inr ⟨fun _ hw h => (by cases h; cases hw), fun _ => rfl⟩
  | float =>
    cases v with
    | float d => exact .inl ⟨.float d, fun _ => rfl⟩
    | integer i => exact .inl ⟨.widened i, fun _ => rfl⟩
    | _ => exact .inr ⟨fun _ hw h => (by cases h <;> cases hw), fun _ => rfl⟩
  | string =>
    cases v with
    | string s => exact .inl ⟨.string s, fun _ => rfl⟩
    | _ => exact .inr ⟨fun _ hw h => (by cases h; cases hw), fun _ => rfl⟩
  | list element =>
    cases v with
    | list items => exact hplain.elim
    | _ => exact .inr ⟨fun _ hw h => (by cases h; cases hw), fun _ => rfl⟩
  | map element =>
    cases v with
    | map entries => exact hplain.elim
    | _ => exact .inr ⟨fun _ hw h => (by cases h; cases hw), fun _ => rfl⟩
  | optional inner => exact hplain.elim
  | union members => exact hplain.elim

theorem Plain.inhabits_of_check (hplain : Plain t v) {strategy : CollectionCheck}
    (h : t.check strategy v = .ok ()) : v.Inhabits t := by
  rcases hplain.decided with ⟨hv, -⟩ | ⟨-, hcheck⟩
  · exact hv
  · rw [hcheck strategy] at h
    cases h

end Plain

/-! ## 4. The check that looks at everything -/

section Exhaustive

variable {t : TypeSpec} {v : Value}

/-- Every rule is a case of the check. -/
theorem check_allItems_of_inhabits (h : v.Inhabits t) : t.check .allItems v = .ok () := by
  induction h with
  | list _ ih => exact checkItems_eq_ok_iff.mpr ih
  | map _ ih => exact checkEntries_eq_ok_iff.mpr ih
  | @present v inner _ ih =>
    cases v with
    | none => rfl
    | _ => exact ih
  | member ht _ ih => rw [check, if_pos (anyMatches_iff.mpr ⟨_, ht, ih⟩)]
  | _ => rfl

mutual

/-- What the check lets pass is an inhabitant, by induction on the descriptor. -/
theorem inhabits_of_check_allItems : (t : TypeSpec) → {v : Value} → t.check .allItems v = .ok () →
    v.Inhabits t
  | .any, v, _ => .any v
  | .none, _, h => Plain.inhabits_of_check trivial h
  | .boolean, _, h => Plain.inhabits_of_check trivial h
  | .integer, _, h => Plain.inhabits_of_check trivial h
  | .float, _, h => Plain.inhabits_of_check trivial h
  | .string, _, h => Plain.inhabits_of_check trivial h
  | .list element, v, h => by
    cases v with
    | list items =>
      exact .list fun item hitem =>
        inhabits_of_check_allItems element (checkItems_eq_ok_iff.mp h item hitem)
    | _ => cases h
  | .map element, v, h => by
    cases v with
    | map entries =>
      exact .map fun entry hentry =>
        inhabits_of_check_allItems element (checkEntries_eq_ok_iff.mp h entry hentry)
    | _ => cases h
  | .optional inner, v, h => by
    cases v with
    | none => exact .absent inner
    | _ => exact .present (inhabits_of_check_allItems inner h)
  | .union members, v, h => by
    by_cases hmatch : anyMatches .allItems members v = true
    · obtain ⟨t, ht, hv⟩ := anyMatches_iff.mp hmatch
      exact .member ht (inhabits_of_mem_of_check_allItems members v t ht hv)
    · rw [check, if_neg hmatch] at h
      cases h

theorem inhabits_of_mem_of_check_allItems : (members : List TypeSpec) → (v : Value) →
    ∀ t ∈ members, t.check .allItems v = .ok () → v.Inhabits t
  | [], _ => nofun
  | t :: rest, v => List.forall_mem_cons.mpr
    ⟨fun h => inhabits_of_check_allItems t h, inhabits_of_mem_of_check_allItems rest v⟩

end

/-- **The exhaustive check lets exactly the inhabitants pass.** -/
theorem check_allItems_eq_ok_iff : t.check .allItems v = .ok () ↔ v.Inhabits t :=
  ⟨inhabits_of_check_allItems t, check_allItems_of_inhabits⟩

end Exhaustive

end TypeSpec

end MethodGuard
