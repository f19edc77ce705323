/-
# Where a value fails first

A value that does not inhabit a descriptor fails to do so somewhere: at the end of a path through
lists and maps that takes, at each, the FIRST element that does not inhabit the element descriptor.
`TypeSpec.FirstFault` says by rules which place that is, again without the check; there is one for
every value that is no inhabitant (`TypeSpec.exists_firstFault`), and one only
(`TypeSpec.FirstFault.unique`).

The exhaustive check tells this place: its message is the steps of the path, in order, and what was
found and expected at the end (`TypeSpec.check_allItems_exact`).  What it cannot tell is which
member of a union a value was meant to inhabit, so a path ends at a union.
-/
import MethodGuard.Proofs.TypeSpec.Inhabits

namespace MethodGuard

/-! ## 1. The first element that lacks a property -/

section Least

variable {α : Type u} {P : α → Prop} {list : List α} {i j : Nat} {x y : α}

/-- `x` is the first element of the list without the property, and stands at `i`. -/
structure LeastWithout (P : α → Prop) (list : List α) (i : Nat) (x : α) : Prop where
  found : list[i]? = some x
  lacks : ¬ P x
  least : ∀ j < i, ∀ y, list[j]? = some y → P y

namespace LeastWithout

theorem unique (h : LeastWithout P list i x) (h' : LeastWithout P list j y) : i = j ∧ x = y := by
  have hij : i = j := by
    rcases Nat.lt_trichotomy i j with hlt | heq | hlt
    · exact absurd (h'.least i hlt x h.found) h.lacks
    · exact heq
    · exact absurd (h.least j hlt y h'.found) h'.lacks
  subst hij
  exact ⟨rfl, Option.some.inj (h.found.symm.trans h'.found)⟩

theorem cons (hx : P x) (h : LeastWithout P list i y) : LeastWithout P (x :: list) (i + 1) y where
  found := by rw [List.getElem?_cons_succ, h.found]
  lacks := h.lacks
  least
    | 0, _, z, hz => Option.some.inj hz ▸ hx
    | j + 1, hj, z, hz => by
      rw [List.getElem?_cons_succ] at hz
      exact h.least j (Nat.lt_of_succ_lt_succ hj) z hz

theorem of_cons (h : LeastWithout P (x :: list) (i + 1) y) : P x ∧ LeastWithout P list i y where
  left := h.least 0 (Nat.succ_pos i) x rfl
  right :=
    { found := by rw [← h.found, List.getElem?_cons_succ]
      lacks := h.lacks
      least := fun j hj z hz =>
        h.least (j + 1) (Nat.succ_lt_succ hj) z (by rw [List.getElem?_cons_succ, hz]) }

end LeastWithout

/-- Where some element lacks the property, there is a first one. -/
theorem exists_leastWithout (h : ¬ ∀ x ∈ list, P x) : ∃ i x, LeastWithout P list i x := by
  induction list with
  | nil => exact absurd nofun h
  | cons x rest ih =>
    by_cases hx : P x
    · obtain ⟨i, y, hy⟩ := ih fun hrest => h (List.forall_mem_cons.mpr ⟨hx, hrest⟩)
      exact ⟨i + 1, y, hy.cons hx⟩
    · exact ⟨0, x, rfl, hx, fun j hj => absurd hj (Nat.not_lt_zero j)⟩

end Least

namespace TypeSpec

/-! ## 2. The first fault of a value -/

/-- A step from a list or a map to one of its elements. -/
inductive PathStep where
  | item (index : Nat)
  | entry (key : String)

/-- The text of a step. -/
def PathStep.text : PathStep → String
  | .item index => "item " ++ toString index ++ ": "
  | .entry key => "value of key " ++ quoted key ++ ": "

/-- A place in a value where it does not inhabit what is expected there. -/
structure Fault where
  /-- The way to the place. -/
  path : List PathStep
  /-- The descriptor that is expected there. -/
  expected : TypeSpec
  /-- The value that is found there. -/
  found : Value

namespace Fault

/-- The fault seen from a container of the value it was seen from. -/
def under (step : PathStep) (f : Fault) : Fault := { f with path := step :: f.path }

/-- What is wrong at the end of the path. -/
def leaf (f : Fault) : String :=
  match f.expected with
  | .union _ => f.found.kind.name ++ " did not match any element in " ++ f.expected.displayName
  | _ => f.found.kind.name ++ " is not " ++ f.expected.displayName

/-- The steps of the path, and what is wrong at its end. -/
def message (f : Fault) : String := String.join (f.path.map PathStep.text) ++ f.leaf

theorem message_nil (t : TypeSpec) (v : Value) : message ⟨[], t, v⟩ = leaf ⟨[], t, v⟩ :=
  String.empty_append

theorem leaf_of_ne_union {path : List PathStep} {t : TypeSpec} {v : Value}
    (h : ∀ members, t ≠ .union members) :
    leaf ⟨path, t, v⟩ = v.kind.name ++ " is not " ++ t.displayName := by
  cases t with
  | union members => exact absurd rfl (h members)
  | _ => rfl

theorem message_under (step : PathStep) (f : Fault) :
    (f.under step).message = step.text ++ f.message := by
  rw [message, under, List.map_cons, String.join_cons, String.append_assoc]
  rfl

end Fault

/-- **Where a value fails first to inhabit a descriptor.**  The path goes to the first item, or to
the first value of a map, that does not inhabit the element descriptor, and on from there; it ends
at a union or where no value of the runtime type that was found would do.  A descriptor that is
optional is left for its inner one, as there is a value. -/
inductive FirstFault : TypeSpec → Value → Fault → Prop where
  | shape {t : TypeSpec} {v : Value} : (∀ inner, t ≠ .optional inner) →
      (∀ members, t ≠ .union members) → (∀ w : Value, w.kind = v.kind → ¬ w.Inhabits t) →
      FirstFault t v ⟨[], t, v⟩
  | noMember {members : List TypeSpec} {v : Value} : ¬ v.Inhabits (.union members) →
      FirstFault (.union members) v ⟨[], .union members, v⟩
  | present {inner : TypeSpec} {v : Value} {f : Fault} : v ≠ .none → FirstFault inner v f →
      FirstFault (.optional inner) v f
  | item {element : TypeSpec} {items : List Value} {i : Nat} {item : Value} {f : Fault} :
      LeastWithout (fun other => other.Inhabits element) items i item →
      FirstFault element item f → FirstFault (.list element) (.list items) (f.under (.item i))
  | entry {element : TypeSpec} {entries : List (String × Value)} {i : Nat} {key : String}
      {value : Value} {f : Fault} :
      LeastWithout (fun other => other.2.Inhabits element) entries i (key, value) →
      FirstFault element value f → FirstFault (.map element) (.map entries) (f.under (.entry key))

section FirstFault

variable {t : TypeSpec} {v : Value} {f g : Fault}

/-- **A value has one first fault at most.** -/
theorem FirstFault.unique (hf : FirstFault t v f) (hg : FirstFault t v g) : f = g := by
  induction hf generalizing g with
  | shape hoptional hunion hkind =>
    -- a path goes through a list, and then the empty list would do
    cases hg with
    | shape => rfl
    | noMember => exact absurd rfl (hunion _)
    | present => exact absurd rfl (hoptional _)
    | item => exact absurd (Value.inhabits_list_nil _) (hkind _ rfl)
    | entry => exact absurd (Value.inhabits_map_nil _) (hkind _ rfl)
  | noMember =>
    cases hg with
    | shape _ hunion => exact absurd rfl (hunion _)
    | noMember => rfl
  | present hv _ ih =>
    cases hg with
    | shape hoptional => exact absurd rfl (hoptional _)
    | present _ hg => exact ih hg
  | item hitem _ ih =>
    cases hg with
    | shape _ _ hkind => exact absurd (Value.inhabits_list_nil _) (hkind _ rfl)
    | item hother hg =>
      obtain ⟨rfl, rfl⟩ := hitem.unique hother
      rw [ih hg]
  | entry hentry _ ih =>
    cases hg with
    | shape _ _ hkind => exact absurd (Value.inhabits_map_nil _) (hkind _ rfl)
    | entry hother hg =>
      obtain ⟨rfl, heq⟩ := hentry.unique hother
      cases heq
      rw [ih hg]

theorem FirstFault.of_plain (hplain : Plain t v) (h : ¬ v.Inhabits t) :
    FirstFault t v ⟨[], t, v⟩ := by
  rcases hplain.decided with ⟨hv, -⟩ | ⟨hkind, -⟩
  · exact absurd hv h
  · refine .shape ?_ ?_ hkind
    · rintro inner rfl
      exact hplain
    · rintro members rfl
      exact hplain

/-- **A value that does not inhabit a descriptor has a first fault.** -/
theorem exists_firstFault : (t : TypeSpec) → {v : Value} → ¬ v.Inhabits t → ∃ f, FirstFault t v f
  | .any, v, h => absurd (.any v) h
  | .none, _, h => ⟨_, .of_plain trivial h⟩
  | .boolean, _, h => ⟨_, .of_plain trivial h⟩
  | .integer, _, h => ⟨_, .of_plain trivial h⟩
  | .float, _, h => ⟨_, .of_plain trivial h⟩
  | .string, _, h => ⟨_, .of_plain trivial h⟩
  | .list element, v, h => by
    cases v with
    | list items =>
      obtain ⟨i, item, hitem⟩ := exists_leastWithout fun hall => h (.list hall)
      obtain ⟨f, hf⟩ := exists_firstFault element hitem.lacks
      exact ⟨_, .item hitem hf⟩
    | _ => exact ⟨_, .of_plain trivial h⟩
  | .map element, v, h => by
    cases v with
    | map entries =>
      obtain ⟨i, entry, hentry⟩ := exists_leastWithout fun hall => h (.map hall)
      obtain ⟨f, hf⟩ := exists_firstFault element hentry.lacks
      exact ⟨_, .entry hentry hf⟩
    | _ => exact ⟨_, .of_plain trivial h⟩
  | .optional inner, v, h => by
    have hv : v ≠ .none := fun heq => h (heq ▸ .absent inner)
    obtain ⟨f, hf⟩ := exists_firstFault inner fun hinner => h (.present hinner)
    exact ⟨f, .present hv hf⟩
  | .union _, _, h => ⟨_, .noMember h⟩

end FirstFault

/-! ## 3. What the check tells -/

section Walks

variable {check : Value → Except Mismatch Unit}

/-- A walk over items ends at the first one that is refused. -/
theorem checkItems_of_least {items : List Value} {start i : Nat} {item : Value} {m : Mismatch}
    (h : LeastWithout (fun other => check other = .ok ()) items i item)
    (hitem : check item = .error m) :
    checkItems check start items = .error (.item (start + i) m) := by
  induction items generalizing start i with
  | nil => cases h.found
  | cons first rest ih =>
    cases i with
    | zero =>
      cases h.found
      simp only [checkItems, hitem, Nat.add_zero]
    | succ i =>
      obtain ⟨hfirst, hrest⟩ := h.of_cons
      simp only [checkItems, hfirst, ih hrest, Nat.add_assoc, Nat.add_comm 1 i]

/-- A walk over entries ends at the first value that is refused. -/
theorem checkEntries_of_least {entries : List (String × Value)} {i : Nat} {key : String}
    {value : Value} {m : Mismatch}
    (h : LeastWithout (fun other => check other.2 = .ok ()) entries i (key, value))
    (hvalue : check value = .error m) : checkEntries check entries = .error (.entry key m) := by
  induction entries generalizing i with
  | nil => cases h.found
  | cons first rest ih =>
    cases i with
    | zero =>
      cases h.found
      simp only [checkEntries, hvalue]
    | succ i =>
      obtain ⟨hfirst, hrest⟩ := h.of_cons
      simp only [checkEntries, hfirst, ih hrest]

end Walks

section Exhaustive

variable {t : TypeSpec} {v : Value} {f : Fault}

/-- Where no value of the runtime type would do, a check says so. -/
theorem check_of_shape {strategy : CollectionCheck} (hoptional : ∀ inner, t ≠ .optional inner)
    (hunion : ∀ members, t ≠ .union members)
    (hkind : ∀ w : Value, w.kind = v.kind → ¬ w.Inhabits t) :
    t.check strategy v = .error (.kind v.kind t) := by
  have hplain : Plain t v := by
    cases t with
    | optional inner => exact absurd rfl (hoptional inner)
    | union members => exact absurd rfl (hunion members)
    | list element =>
      cases v with
      | list items => exact absurd (Value.inhabits_list_nil element) (hkind _ rfl)
      | _ => trivial
    | map element =>
      cases v with
      | map entries => exact absurd (Value.inhabits_map_nil element) (hkind _ rfl)
      | _ => trivial
    | _ => trivial
  rcases hplain.decided with ⟨hv, -⟩ | ⟨-, hcheck⟩
  · exact absurd hv (hkind v rfl)
  · exact hcheck strategy

/-- **The exhaustive check tells the first fault.** -/
theorem FirstFault.exists_check_eq (h : FirstFault t v f) :
    ∃ m, t.check .allItems v = .error m ∧ m.message = f.message := by
  induction h with
  | @shape t v hoptional hunion hkind =>
    refine ⟨_, check_of_shape hoptional hunion hkind, ?_⟩
    rw [Fault.message_nil, Fault.leaf_of_ne_union hunion]
    rfl
  | @noMember members v hv =>
    have hmatch : ¬ anyMatches .allItems members v = true := fun hmatch => by
      obtain ⟨t, ht, hcheck⟩ := anyMatches_iff.mp hmatch
      exact hv (.member ht (check_allItems_eq_ok_iff.mp hcheck))
    exact ⟨_, by rw [check, if_neg hmatch], rfl⟩
  | @present inner v f hv _ ih =>
    cases v with
    | none => exact absurd rfl hv
    | _ => exact ih
  | @item element items i item f hitem _ ih =>
    obtain ⟨m, hm, hmessage⟩ := ih
    simp only [← check_allItems_eq_ok_iff] at hitem
    refine ⟨.item i m, ?_, ?_⟩
    · rw [← Nat.zero_add i]
      exact checkItems_of_least hitem hm
    · calc (Mismatch.item i m).message
          = (PathStep.item i).text ++ m.message := rfl
        _ = (f.under (.item i)).message := by rw [hmessage, Fault.message_under]
  | @entry element entries i key value f hentry _ ih =>
    obtain ⟨m, hm, hmessage⟩ := ih
    simp only [← check_allItems_eq_ok_iff] at hentry
    refine ⟨.entry key m, checkEntries_of_least hentry hm, ?_⟩
    calc (Mismatch.entry key m).message
        = (PathStep.entry key).text ++ m.message := rfl
      _ = (f.under (.entry key)).message := by rw [hmessage, Fault.message_under]

/-- **The exhaustive check decides and pinpoints.**  It lets exactly the inhabitants of a descriptor
pass; it fails with the text of a fault exactly if that is the value's first fault; and a value has
no two first faults. -/
theorem check_allItems_exact (t : TypeSpec) (v : Value) :
    (t.check .allItems v = .ok () ↔ v.Inhabits t) ∧
      (∀ detail, (t.check .allItems v).mapError Mismatch.message = .error detail ↔
        ∃ f, FirstFault t v f ∧ detail = f.message) ∧
      ∀ f g, FirstFault t v f → FirstFault t v g → f = g := by
  refine ⟨check_allItems_eq_ok_iff, fun detail => ⟨fun h => ?_, ?_⟩, fun f g => FirstFault.unique⟩
  · have hv : ¬ v.Inhabits t := fun hv => by
      rw [check_allItems_eq_ok_iff.mpr hv] at h
      cases h
    obtain ⟨f, hf⟩ := exists_firstFault t hv
    obtain ⟨m, hm, hmessage⟩ := hf.exists_check_eq
    rw [hm] at h
    cases h
    exact ⟨f, hf, hmessage⟩
  · rintro ⟨f, hf, rfl⟩
    obtain ⟨m, hm, hmessage⟩ := hf.exists_check_eq
    rw [hm, ← hmessage]
    rfl

example : ((TypeSpec.map (.list (.optional (.union [.integer, .boolean])))).check .allItems
    (.map [("a", .list [.integer 1, .none]), ("b", .list [.boolean true, .string "x"])])).mapError
      Mismatch.message =
    .error ("value of key \"b\": item 1: " ++
      "String did not match any element in Union[Integer, Boolean]") := by rfl

end Exhaustive

end TypeSpec

end MethodGuard
