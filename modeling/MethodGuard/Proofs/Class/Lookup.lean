/-
# Looking along a lineage

Members, initializer and options are those of the first class of a lineage that says something
about them.  `FirstWith` says which element of a list is meant; the table of visible names is a
search for it (`Shape.find?_resolveAlong`), and so is everything that building finds with
`findSome?` (`findSome?_eq_some_iff`).  The list of abstract names is read off that table.
-/
import MethodGuard.Proofs.Class.History
import MethodGuard.Proofs.OrderedMap

namespace MethodGuard

/-! ## 1. The first with a property -/

section First

variable {α : Type u} {β : Type v} {P : α → Prop} {list : List α} {x : α}

/-- `x` is the first element of the list that has the property. -/
def FirstWith (P : α → Prop) (list : List α) (x : α) : Prop :=
  ∃ before after, list = before ++ x :: after ∧ P x ∧ ∀ y ∈ before, ¬ P y

theorem FirstWith.mem (h : FirstWith P list x) : x ∈ list := by
  obtain ⟨before, after, rfl, -, -⟩ := h
  exact List.mem_append_right _ List.mem_cons_self

theorem FirstWith.holds (h : FirstWith P list x) : P x := by
  obtain ⟨before, after, -, hx, -⟩ := h
  exact hx

/-- **A search finds what the first element that has something has.** -/
theorem findSome?_eq_some_iff {f : α → Option β} {b : β} :
    list.findSome? f = some b ↔
      ∃ x, FirstWith (fun y => (f y).isSome = true) list x ∧ f x = some b := by
  rw [List.findSome?_eq_some_iff]
  constructor
  · rintro ⟨before, x, after, rfl, hx, hbefore⟩
    refine ⟨x, ⟨before, after, rfl, Option.isSome_of_mem hx, fun y hy => ?_⟩, hx⟩
    simp [hbefore y hy]
  · rintro ⟨x, ⟨before, after, rfl, -, hbefore⟩, hx⟩
    exact ⟨before, x, after, rfl, hx, fun y hy => by simpa using hbefore y hy⟩

end First

namespace Shape

/-! ## 2. Visible names -/

variable {classes : List Declaration} {name : String}

/-- The definition that a class body has for a name. -/
def ownResolved? (name : String) (x : Declaration) : Option Resolved :=
  (x.members.find? name).map fun member => ⟨member, x.name⟩

/-- One class of the lineage adds its definition unless there is one. -/
theorem find?_foldl_members (x : Declaration) (found : OrderedMap Resolved) :
    (x.members.entries.foldl (fun found entry => found.insertNew entry.1 ⟨entry.2, x.name⟩)
      found).find? name = (found.find? name).or (ownResolved? name x) :=
  OrderedMap.find?_foldl_insertNew (f := fun member => Resolved.mk member x.name) name

theorem find?_foldl_resolveAlong (found : OrderedMap Resolved) :
    (classes.foldl (fun found d =>
      d.members.entries.foldl (fun found entry => found.insertNew entry.1 ⟨entry.2, d.name⟩) found)
      found).find? name = (found.find? name).or (classes.findSome? (ownResolved? name)) := by
  induction classes generalizing found with
  | nil => simp
  | cons x rest ih =>
    rw [List.foldl_cons, ih, find?_foldl_members, Option.or_assoc, List.findSome?_cons]
    cases ownResolved? name x with
    | none => rw [Option.none_or]
    | some r => rw [Option.some_or]

/-- **A name stands for its first definition along the classes.** -/
theorem find?_resolveAlong (classes : List Declaration) (name : String) :
    (resolveAlong classes).find? name = classes.findSome? (ownResolved? name) := by
  rw [resolveAlong, find?_foldl_resolveAlong, OrderedMap.find?_empty, Option.none_or]

theorem nodup_keys_resolveAlong (classes : List Declaration) :
    (resolveAlong classes).keys.Nodup := by
  unfold resolveAlong
  generalize hfound : (OrderedMap.empty : OrderedMap Resolved) = found
  have hnodup : found.keys.Nodup := hfound ▸ List.nodup_nil
  clear hfound
  induction classes generalizing found with
  | nil => exact hnodup
  | cons x rest ih =>
    exact ih _ (OrderedMap.nodup_keys_foldl_insertNew (f := fun member => Resolved.mk member x.name)
      hnodup)

/-! ## 3. Abstract names -/

section Abstract

variable {resolved : OrderedMap Resolved}

theorem mem_abstractNamesOf (h : resolved.keys.Nodup) :
    name ∈ abstractNamesOf resolved ↔
      ∃ r, resolved.find? name = some r ∧ r.member.isAbstract = true := by
  simp only [abstractNamesOf, List.mem_map, List.mem_filter, Prod.exists,
    OrderedMap.find?_eq_some_iff_mem h]
  grind

theorem nodup_abstractNamesOf (h : resolved.keys.Nodup) : (abstractNamesOf resolved).Nodup :=
  List.Nodup.sublist (List.filter_sublist.map _) h

end Abstract

/-! ## 4. What building looks for -/

/-- The parts of a class that are looked for along its lineage. -/
structure Searched (s : Shape) : Prop where
  resolved : s.resolved = resolveAlong s.lineage
  abstractNames : s.abstractNames = abstractNamesOf s.resolved
  initializer : s.initializer = s.lineage.findSome? (fun x => x.initializer)
  options : s.options = (s.lineage.findSome? (fun x => x.options)).getD .strict

theorem searched_ofDefinition (d : Definition) (id : ClassId) (ancestors : List Declaration) :
    (ofDefinition d id ancestors).Searched := ⟨rfl, rfl, rfl, rfl⟩

namespace Searched

variable {s : Shape} (h : s.Searched)
include h

theorem resolve?_eq : s.resolve? name = s.lineage.findSome? (ownResolved? name) := by
  rw [resolve?, h.resolved, find?_resolveAlong]

theorem mem_abstractNames_iff :
    name ∈ s.abstractNames ↔ ∃ r, s.resolve? name = some r ∧ r.member.isAbstract = true := by
  rw [h.abstractNames, mem_abstractNamesOf (h.resolved ▸ nodup_keys_resolveAlong _)]
  rfl

theorem nodup_abstractNames : s.abstractNames.Nodup := by
  rw [h.abstractNames]
  exact nodup_abstractNamesOf (h.resolved ▸ nodup_keys_resolveAlong _)

/-- In a class without abstract names no name stands for an abstract method. -/
theorem member?_ne_abstract (habstract : s.isAbstract = false) (m : AbstractMethod) :
    s.member? name ≠ some (.abstract m) := by
  intro hmember
  obtain ⟨r, hr, hrm⟩ := Option.map_eq_some_iff.mp hmember
  have hname : name ∈ s.abstractNames :=
    h.mem_abstractNames_iff.mpr ⟨r, hr, by rw [hrm, Member.isAbstract]⟩
  have hnil : s.abstractNames = [] := by simpa [isAbstract] using habstract
  simp [hnil] at hname

end Searched

end Shape

/-- Every built class looks along its lineage. -/
theorem History.searched {classes : List Class} (h : History classes) {c : Class}
    (hc : c ∈ classes) : c.Searched := by
  obtain ⟨d, hd⟩ := h.exists_builtFrom hc
  rw [hd.eq_ofDefinition.2]
  exact Shape.searched_ofDefinition d _ _

end MethodGuard
