/-
# What a class inherits of the markers of its ancestors

A class gathers the names marked for validators and for type checks from its own body and from the
sets of its DIRECT bases.  Along a build history these are the names that some class of its
lineage marks (`History.mem_marked_iff`), wherever that class stands and whatever the name stands
for in the end: a marker is never lost, not even by an override that carries none or by one that
comes from another branch.
-/
import MethodGuard.Proofs.Class.Ancestors
import MethodGuard.Proofs.OrderedMap

namespace MethodGuard

/-- The own body of a class marks the name. -/
def Declaration.Marks (x : Declaration) (marker : Marker) (name : String) : Prop :=
  ∃ member, x.members.find? name = some member ∧ member.markers.contains marker = true

namespace Shape

/-- Some class of the lineage marks the name. -/
def MarkedAlong (s : Shape) (marker : Marker) (name : String) : Prop :=
  ∃ x ∈ s.lineage, x.Marks marker name

/-- The gathered names of a marker. -/
def marked (s : Shape) : Marker → NameSet
  | .prerun => s.prerun
  | .type => s.typed

theorem gathered_of_mem_marked {s : Shape} {marker : Marker} {name : String}
    (h : name ∈ s.marked marker) : name ∈ s.prerun ∨ name ∈ s.typed := by
  cases marker with
  | prerun => exact Or.inl h
  | type => exact Or.inr h

theorem mem_markedNames {marker : Marker} {members : OrderedMap Member} {name : String} :
    name ∈ markedNames marker members ↔
      ∃ member, (name, member) ∈ members.entries ∧ member.markers.contains marker = true := by
  simp only [markedNames, List.mem_map, List.mem_filter, Prod.exists]
  grind

theorem mem_foldl_union {sets : List NameSet} {first : NameSet} {name : String} :
    name ∈ sets.foldl NameSet.union first ↔ name ∈ first ∨ ∃ set ∈ sets, name ∈ set := by
  induction sets generalizing first with
  | nil => simp
  | cons set rest ih =>
    rw [List.foldl_cons, ih, NameSet.mem_union]
    simp only [List.mem_cons, exists_eq_or_imp, or_assoc]

theorem mem_gather {own : List String} {inherited : List NameSet} {name : String} :
    name ∈ gather own inherited ↔ name ∈ own ∨ ∃ set ∈ inherited, name ∈ set := by
  rw [gather, mem_foldl_union, NameSet.mem_ofList]

end Shape

namespace Definition

variable {d : Definition} {id : ClassId} {ancestors : List Declaration}

/-- Own marks are found by going through the own members. -/
theorem marks_declaration_iff {marker : Marker} {name : String} :
    (d.declaration id).Marks marker name ↔ name ∈ Shape.markedNames marker d.members := by
  have hnodup : d.members.keys.Nodup := OrderedMap.nodup_keys_ofList _
  simp only [Declaration.Marks, declaration, Shape.mem_markedNames,
    OrderedMap.find?_eq_some_iff_mem hnodup]

theorem marked_ofDefinition (marker : Marker) :
    (Shape.ofDefinition d id ancestors).marked marker =
      Shape.gather (Shape.markedNames marker d.members)
        (d.bases.map fun b => b.marked marker) := by
  cases marker <;> rfl

/-- One step of the gathering: the own marks and the sets of the bases. -/
theorem mem_marked_ofDefinition {marker : Marker} {name : String} :
    name ∈ (Shape.ofDefinition d id ancestors).marked marker ↔
      (d.declaration id).Marks marker name ∨ ∃ b ∈ d.bases, name ∈ b.marked marker := by
  rw [marked_ofDefinition, Shape.mem_gather, marks_declaration_iff]
  simp only [List.mem_map, exists_exists_and_eq_and]

end Definition

namespace History

variable {classes : List Class} {c : Class} {marker : Marker} {name : String}

theorem mem_marked_iff_of_mem (h : History classes) : ∀ c ∈ classes, ∀ marker name,
    (name ∈ c.marked marker ↔ c.MarkedAlong marker name) := by
  refine h.induction fun d c hd ih marker name => ?_
  have hstep : name ∈ c.marked marker ↔
      c.own.Marks marker name ∨ ∃ b ∈ d.bases, name ∈ b.marked marker := by
    rw [hd.eq_ofDefinition.2]
    exact Definition.mem_marked_ofDefinition
  rw [hstep]
  constructor
  · rintro (hown | ⟨b, hb, hname⟩)
    · exact ⟨c.own, c.own_mem_lineage, hown⟩
    · obtain ⟨x, hx, hmarks⟩ := (ih b hb marker name).mp hname
      have hanc : x ∈ c.ancestors := (h.lineage_sublist_of_mem_bases hd hb).subset hx
      exact ⟨x, Shape.mem_lineage.mpr (Or.inr hanc), hmarks⟩
  · rintro ⟨x, hx, hmarks⟩
    rcases Shape.mem_lineage.mp hx with rfl | hx
    · exact Or.inl hmarks
    · obtain ⟨b, hb, hxb⟩ := hd.exists_base_of_mem_ancestors hx
      exact Or.inr ⟨b, hb, (ih b hb marker name).mpr ⟨x, hxb, hmarks⟩⟩

/-- **No marker is lost and none is made up**: the gathered names are those marked somewhere along
the lineage. -/
theorem mem_marked_iff (h : History classes) (hc : c ∈ classes) :
    name ∈ c.marked marker ↔ c.MarkedAlong marker name :=
  h.mem_marked_iff_of_mem c hc marker name

end History

end MethodGuard
