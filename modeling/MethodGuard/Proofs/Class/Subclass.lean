/-
# The subclass relation

Whether a class derives from another is read off a list that was computed when the class was built:
some entry of it has the other's identity.  In every build history that list has all that direct-base
steps lead to, through however many diamonds, and nothing else.  So the relation is the reflexive and
transitive closure of those steps (`History.isSubclassOf_iff`), and as each step leads to a class
built earlier, it is a partial order (`History.subclassOrder`).
-/
import MethodGuard.Proofs.Class.Ancestors

namespace MethodGuard

open Relation

namespace History

variable {classes : List Class} {a b c : Class}

/-- Ancestors have been built earlier. -/
theorem id_lt_of_ancestor (h : History classes) (hancestor : Ancestor classes c a) : a.id < c.id := by
  have hown : a.own ∈ c.ancestors :=
    (h.own_mem_ancestors_iff hancestor.left_mem hancestor.right_mem).mpr hancestor
  obtain ⟨a', -, hsame, hlt⟩ := h.exists_own_of_mem_ancestors hancestor.left_mem hown
  have hid : a'.id = a.id := congrArg Declaration.id hsame
  exact hid ▸ hlt

/-- An entry of the list with the identity of a class is the class's own part. -/
theorem isSubclassOf_iff_own_mem (h : History classes) (hc : c ∈ classes) (hb : b ∈ classes) :
    c.isSubclassOf b.toShape = true ↔ b.own ∈ c.lineage := by
  rw [Shape.isSubclassOf, List.any_eq_true]
  constructor
  · rintro ⟨x, hx, hid⟩
    obtain ⟨a, ha, rfl, -⟩ := h.exists_own_of_mem_lineage c hc x hx
    have hsame : a = b := h.eq_of_id_eq ha hb (beq_iff_eq.mp hid)
    exact hsame ▸ hx
  · exact fun hown => ⟨b.own, hown, beq_self_eq_true _⟩

/-- **A class derives from those that any number of direct-base steps lead to.** -/
theorem isSubclassOf_iff (h : History classes) (hc : c ∈ classes) (hb : b ∈ classes) :
    c.isSubclassOf b.toShape = true ↔ ReflTransGen (DirectBase classes) c b := by
  rw [h.isSubclassOf_iff_own_mem hc hb, Shape.mem_lineage, h.own_mem_ancestors_iff hc hb,
    reflTransGen_iff_eq_or_transGen]
  have hown : b.own = c.own ↔ b = c :=
    ⟨fun hsame => h.eq_of_id_eq hb hc (congrArg Declaration.id hsame), fun hsame => hsame ▸ rfl⟩
  rw [hown]
  rfl

/-- Two classes that derive from each other are one. -/
theorem eq_of_reflTransGen (h : History classes) (hab : ReflTransGen (DirectBase classes) a b)
    (hba : ReflTransGen (DirectBase classes) b a) : a = b := by
  rcases reflTransGen_iff_eq_or_transGen.mp hab with hsame | hup
  · exact hsame.symm
  rcases reflTransGen_iff_eq_or_transGen.mp hba with hsame | hdown
  · exact hsame
  · exact absurd (h.id_lt_of_ancestor hup) (Nat.lt_asymm (h.id_lt_of_ancestor hdown))

end History

/-- **What the subclass relation should be** among the classes of a history: the reflexive and
transitive closure of direct-base steps, and a partial order. -/
structure SubclassOrder (classes : List Class) : Prop where
  closure : ∀ c ∈ classes, ∀ b ∈ classes,
    c.isSubclassOf b.toShape = true ↔ ReflTransGen (DirectBase classes) c b
  refl : ∀ c ∈ classes, c.isSubclassOf c.toShape = true
  trans : ∀ a ∈ classes, ∀ b ∈ classes, ∀ c ∈ classes, a.isSubclassOf b.toShape = true →
    b.isSubclassOf c.toShape = true → a.isSubclassOf c.toShape = true
  antisymm : ∀ a ∈ classes, ∀ b ∈ classes, a.isSubclassOf b.toShape = true →
    b.isSubclassOf a.toShape = true → a = b

/-- **The subclass relation is what it should be**, along every build history. -/
theorem History.subclassOrder {classes : List Class} (h : History classes) :
    SubclassOrder classes where
  closure := fun _ hc _ hb => h.isSubclassOf_iff hc hb
  refl := fun _ hc => (h.isSubclassOf_iff hc hc).mpr .refl
  trans := fun _ ha _ hb _ hc hab hbc => (h.isSubclassOf_iff ha hc).mpr
    (((h.isSubclassOf_iff ha hb).mp hab).trans ((h.isSubclassOf_iff hb hc).mp hbc))
  antisymm := fun _ ha _ hb hab hba =>
    h.eq_of_reflTransGen ((h.isSubclassOf_iff ha hb).mp hab) ((h.isSubclassOf_iff hb ha).mp hba)

end MethodGuard
