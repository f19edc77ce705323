/-
# Descriptors that admit more

A descriptor widens to another one when every value that the first admits is one the second admits,
and `TypeSpec.WidensTo` is what can be derived of this from a few rules: integers are floats, a
value is an optional one, a member of a union is in the union, and lists, maps and optional values
widen with what they hold.

The rules are sound for the check, by either strategy (`TypeSpec.check_of_widensTo`).  One induction
over derivations is enough, since the strategy only decides which value is asked about: for the
quicker check, a derivation is read on the truncated value.
-/
import MethodGuard.Proofs.TypeSpec.Truncation

namespace MethodGuard

namespace TypeSpec

/-- **What one descriptor can be replaced by without refusing more.** -/
inductive WidensTo : TypeSpec → TypeSpec → Prop where
  | refl (s : TypeSpec) : WidensTo s s
  | trans {s t u : TypeSpec} : WidensTo s t → WidensTo t u → WidensTo s u
  | float : WidensTo .integer .float
  | any (s : TypeSpec) : WidensTo s .any
  | present (s : TypeSpec) : WidensTo s (.optional s)
  | absent (s : TypeSpec) : WidensTo .none (.optional s)
  | unfolded (s : TypeSpec) : WidensTo (.optional s) (.union [s, .none])
  | member {s : TypeSpec} {members : List TypeSpec} : s ∈ members → WidensTo s (.union members)
  | least {members : List TypeSpec} {t : TypeSpec} : (∀ s ∈ members, WidensTo s t) →
      WidensTo (.union members) t
  | list {s t : TypeSpec} : WidensTo s t → WidensTo (.list s) (.list t)
  | map {s t : TypeSpec} : WidensTo s t → WidensTo (.map s) (.map t)
  | optional {s t : TypeSpec} : WidensTo s t → WidensTo (.optional s) (.optional t)

variable {s t : TypeSpec} {v : Value}

/-- **An inhabitant of a descriptor inhabits what it widens to.** -/
theorem WidensTo.inhabits (h : s.WidensTo t) (hv : v.Inhabits s) : v.Inhabits t := by
  -- a derivation under a list or a map is used for every element
  induction h generalizing v with
  | refl => exact hv
  | trans _ _ ih₁ ih₂ => exact ih₂ (ih₁ hv)
  | float =>
    cases hv with
    | integer i => exact .widened i
  | any => exact .any v
  | present => exact .present hv
  | absent =>
    cases hv with
    | none => exact .absent _
  | unfolded s =>
    cases hv with
    | absent => exact .member (List.mem_cons_of_mem s List.mem_cons_self) .none
    | present hv => exact .member List.mem_cons_self hv
  | member hs => exact .member hs hv
  | least _ ih =>
    cases hv with
    | member hs hv => exact ih _ hs hv
  | list _ ih =>
    cases hv with
    | list hitems => exact .list fun item hitem => ih (hitems item hitem)
  | map _ ih =>
    cases hv with
    | map hentries => exact .map fun entry hentry => ih (hentries entry hentry)
  | optional _ ih =>
    cases hv with
    | absent => exact .absent _
    | present hv => exact .present (ih hv)

/-- **A wider descriptor refuses nothing more**, however much of a container is looked at. -/
theorem check_of_widensTo (h : s.WidensTo t) {strategy : CollectionCheck}
    (hv : s.check strategy v = .ok ()) : t.check strategy v = .ok () :=
  check_eq_ok_iff.mpr (h.inhabits (check_eq_ok_iff.mp hv))

/-- Scores by name, where a player without one may be listed. -/
def scores : TypeSpec := .map (.union [.integer, .none])

/-- The scores, of which the first one alone is looked at: the second is no score. -/
theorem check_of_widensTo_scores :
    (scores.WidensTo (.optional (.map (.optional .float))) ∧
      scores.check .firstItem (.map [("ann", .integer 3), ("bob", .string "?")]) = .ok ()) ∧
    (TypeSpec.optional (.map (.optional .float))).check .firstItem
      (.map [("ann", .integer 3), ("bob", .string "?")]) = .ok () := by
  have hscore : (TypeSpec.union [.integer, .none]).WidensTo (.optional .float) :=
    .least (List.forall_mem_cons.mpr ⟨.trans .float (.present .float),
      List.forall_mem_singleton.mpr (.absent .float)⟩)
  have hscores : scores.WidensTo (.optional (.map (.optional .float))) :=
    .trans (.map hscore) (.present _)
  have hpasses : scores.check .firstItem
      (.map [("ann", .integer 3), ("bob", .string "?")]) = .ok () := rfl
  exact ⟨⟨hscores, hpasses⟩, check_of_widensTo hscores hpasses⟩

end TypeSpec

end MethodGuard
