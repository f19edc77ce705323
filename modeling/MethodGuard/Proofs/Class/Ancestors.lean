/-
# The order of a class's ancestors

A class lists its ancestors in resolution order.  Along every build history that list is what it
should be, `Linearized`: it repeats no class and leaves out the class itself, it holds exactly the
classes that direct-base steps lead to, it keeps the order of the bases and the order of every
ancestor's own list, and it is the C3 order of the bases' lists.

The class computes its list from those of its direct bases only.  That this reaches all ancestors
and keeps the orders of all of them goes by induction along building: an ancestor's list is a part
of some base's list (`lineage_sublist_of_ancestor`), and that one is a part of the class's.
-/
import MethodGuard.Proofs.Class.History

namespace MethodGuard

open Relation Linearization

/-! ## 1. Ancestors by steps -/

/-- `b` is a direct base of `c`, as far as identities go. -/
def DirectBase (classes : List Class) (c b : Class) : Prop :=
  c ∈ classes ∧ b ∈ classes ∧ b.id ∈ c.bases.map (fun x => x.id)

/-- One or more direct-base steps lead from a class to another. -/
def Ancestor (classes : List Class) : Class → Class → Prop := TransGen (DirectBase classes)

theorem Ancestor.left_mem {classes : List Class} {c a : Class} (h : Ancestor classes c a) :
    c ∈ classes := by
  obtain ⟨b, hb, -⟩ := TransGen.head'_iff.mp h
  exact hb.1

theorem Ancestor.right_mem {classes : List Class} {c a : Class} (h : Ancestor classes c a) :
    a ∈ classes := by
  obtain ⟨b, -, hb⟩ := TransGen.tail'_iff.mp h
  exact hb.2.1

namespace History

variable {classes : List Class} {d : Definition} {c : Class}

/-- The direct bases of a class are the bases of its statement. -/
theorem directBase_iff (h : History classes) (hd : BuiltFrom classes d c) {b : Class} :
    DirectBase classes c b ↔ b ∈ d.bases := by
  rw [DirectBase, hd.bases_eq, List.map_map, List.mem_map]
  constructor
  · rintro ⟨-, hb, b', hb', hid⟩
    exact h.eq_of_id_eq (hd.bases_mem b' hb') hb hid ▸ hb'
  · intro hb
    exact ⟨hd.mem, hd.bases_mem b hb, b, hb, rfl⟩

theorem lineage_sublist_of_mem_bases (h : History classes) (hd : BuiltFrom classes d c) {b : Class}
    (hb : b ∈ d.bases) : b.lineage.Sublist c.ancestors :=
  h.sublist_ancestors? hd.bases_mem hd.eq_ofDefinition.1
    (Definition.mem_precedence.mpr (Or.inl ⟨b, hb, rfl⟩))

/-- A base with its own ancestors comes in its own order. -/
theorem lineage_sublist_of_directBase (h : History classes) {b : Class}
    (hb : DirectBase classes c b) : b.lineage.Sublist c.ancestors := by
  obtain ⟨d, hd⟩ := h.exists_builtFrom hb.1
  exact h.lineage_sublist_of_mem_bases hd ((h.directBase_iff hd).mp hb)

/-- The bases come in the order they were listed. -/
theorem bases_sublist (h : History classes) (hc : c ∈ classes) : c.bases.Sublist c.ancestors := by
  obtain ⟨d, hd⟩ := h.exists_builtFrom hc
  rw [hd.bases_eq]
  exact h.sublist_ancestors? hd.bases_mem hd.eq_ofDefinition.1
    (Definition.mem_precedence.mpr (Or.inr rfl))

/-! ## 2. What the list holds -/

/-- **Every ancestor comes with its own ancestors in its own order**, however far up it is. -/
theorem lineage_sublist_of_ancestor (h : History classes) {a : Class}
    (ha : Ancestor classes c a) : a.lineage.Sublist c.ancestors := by
  induction ha using TransGen.head_induction_on with
  | single hb => exact h.lineage_sublist_of_directBase hb
  | @head x b hb _ ih =>
    have hinner : a.lineage.Sublist b.lineage := ih.trans (List.sublist_cons_self b.own _)
    exact hinner.trans (h.lineage_sublist_of_directBase hb)

/-- Every listed class is reached by direct-base steps. -/
theorem ancestor_of_mem (h : History classes) : ∀ c ∈ classes, ∀ a ∈ classes,
    a.own ∈ c.ancestors → Ancestor classes c a := by
  refine h.induction fun d c hd ih a ha hmem => ?_
  obtain ⟨b, hb, hab⟩ := hd.exists_base_of_mem_ancestors hmem
  have hstep : DirectBase classes c b := (h.directBase_iff hd).mpr hb
  rcases Shape.mem_lineage.mp hab with hown | hab
  · have hsame : a = b := h.eq_of_id_eq ha (hd.bases_mem b hb) (congrArg Declaration.id hown)
    exact hsame ▸ TransGen.single hstep
  · exact TransGen.head hstep (ih b hb a ha hab)

/-- The list holds exactly the classes that direct-base steps lead to. -/
theorem own_mem_ancestors_iff (h : History classes) (hc : c ∈ classes) {a : Class}
    (ha : a ∈ classes) : a.own ∈ c.ancestors ↔ Ancestor classes c a :=
  ⟨h.ancestor_of_mem c hc a ha,
    fun hanc => (h.lineage_sublist_of_ancestor hanc).subset a.own_mem_lineage⟩

/-- Neither the class nor any ancestor is listed twice. -/
theorem lineage_ids_nodup (h : History classes) (hc : c ∈ classes) :
    (c.lineage.map (fun x => x.id)).Nodup := by
  obtain ⟨d, hd⟩ := h.exists_builtFrom hc
  rw [Shape.lineage, List.map_cons, List.nodup_cons]
  refine ⟨fun hmem => ?_, (isC3_of_merge? Declaration.id hd.eq_ofDefinition.1).nodup⟩
  obtain ⟨x, hx, hid⟩ := List.mem_map.mp hmem
  obtain ⟨a, ha, rfl, hlt⟩ := h.exists_own_of_mem_ancestors hc hx
  exact absurd hid (Nat.ne_of_lt hlt)

/-! ## 3. The whole -/

/-- The identities in the orders that the ancestors of a class with some bases must keep. -/
def precedenceIds (bases : List Class) : List (List ClassId) :=
  bases.map (fun b => b.lineage.map (fun x => x.id)) ++ [bases.map (fun b => b.id)]

theorem precedenceIds_bases (d : Definition) :
    precedenceIds d.bases = d.precedence.map (List.map Declaration.id) := by
  simp [precedenceIds, Definition.precedence, Function.comp_def, Shape.id]

/-- **What the list of ancestors of a class should be**, among the classes of a history. -/
structure Linearized (classes : List Class) (c : Class) : Prop where
  /-- No class is listed twice, and the class itself is not listed. -/
  nodup : (c.ancestors.map (fun x => x.id)).Nodup ∧ c.id ∉ c.ancestors.map (fun x => x.id)
  /-- All that is listed are own parts of classes of the history. -/
  built : ∀ x ∈ c.ancestors, ∃ a ∈ classes, a.own = x
  /-- The classes listed are those that one or more direct-base steps lead to. -/
  mem_iff : ∀ a ∈ classes, a.own ∈ c.ancestors ↔ TransGen (DirectBase classes) c a
  /-- The bases come in the order they were listed. -/
  bases : c.bases.Sublist c.ancestors
  /-- Every base comes with its ancestors, in its own order. -/
  base_lineage : ∀ b, DirectBase classes c b → (b.own :: b.ancestors).Sublist c.ancestors
  /-- Every ancestor comes after all of its own subclasses in the list. -/
  subclass_first : ∀ a b, a.own ∈ c.ancestors → TransGen (DirectBase classes) a b →
    [a.own, b.own].Sublist c.ancestors
  /-- The order is the C3 order of the bases' orders, and nothing else is. -/
  isC3 : ∃ bases : List Class, (∀ b ∈ bases, b ∈ classes) ∧ bases.map (fun b => b.own) = c.bases ∧
    ∀ order, IsC3 (precedenceIds bases) order ↔ order = c.ancestors.map (fun x => x.id)

theorem isC3_iff (hd : BuiltFrom classes d c) (order : List ClassId) :
    IsC3 (precedenceIds d.bases) order ↔ order = c.ancestors.map (fun x => x.id) := by
  have hmerge : IsC3 (precedenceIds d.bases) (c.ancestors.map Declaration.id) := by
    rw [precedenceIds_bases]
    exact isC3_of_merge? Declaration.id hd.eq_ofDefinition.1
  constructor
  · intro horder
    have hsome := (merge?_eq_some_iff.mpr horder).symm.trans (merge?_eq_some_iff.mpr hmerge)
    exact Option.some.inj hsome
  · rintro rfl
    exact hmerge

/-- **Linearization is sound.**  Every class that builds lead to has its ancestors in their C3
order. -/
theorem linearized (h : History classes) (hc : c ∈ classes) : Linearized classes c := by
  obtain ⟨d, hd⟩ := h.exists_builtFrom hc
  have hnodup := h.lineage_ids_nodup hc
  rw [Shape.lineage, List.map_cons, List.nodup_cons] at hnodup
  refine {
    nodup := hnodup.symm
    built := fun x hx => ?_
    mem_iff := fun a ha => h.own_mem_ancestors_iff hc ha
    bases := h.bases_sublist hc
    base_lineage := fun b hb => h.lineage_sublist_of_directBase hb
    subclass_first := fun a b ha hb => ?_
    isC3 := ⟨d.bases, hd.bases_mem, hd.bases_eq.symm, isC3_iff hd⟩ }
  · obtain ⟨a, ha, hown, -⟩ := h.exists_own_of_mem_ancestors hc hx
    exact ⟨a, ha, hown⟩
  · have hanc : Ancestor classes c a := (h.own_mem_ancestors_iff hc (Ancestor.left_mem hb)).mp ha
    have hbelow : b.own ∈ a.ancestors :=
      (h.own_mem_ancestors_iff (Ancestor.left_mem hb) (Ancestor.right_mem hb)).mpr hb
    have hpair : [a.own, b.own].Sublist a.lineage := (List.singleton_sublist.mpr hbelow).cons_cons _
    exact hpair.trans (h.lineage_sublist_of_ancestor hanc)

/-- The bottom of the diamond, where two pairs of classes share a name. -/
theorem linearized_bottom : (History (Diamond.bottom :: Diamond.sides) ∧
    Diamond.bottom ∈ Diamond.bottom :: Diamond.sides) ∧
    Linearized (Diamond.bottom :: Diamond.sides) Diamond.bottom :=
  ⟨⟨Diamond.history, List.mem_cons_self⟩, Diamond.history.linearized List.mem_cons_self⟩

end History

end MethodGuard
