/-
# What takes the place of an abstract method

Declaring a method abstract asks subclasses to write it.  Building looks only at what the name
stands for in the end, so it is content with whatever definition comes first along the lineage
(`Shape.Searched.exists_first`): a method, but a plain attribute as well.  Whether the attribute is
found out depends on what else has been said of the name.  If it is marked or required, the
structural check wants a method and the class has no objects; if it is not, the class has objects,
and calls of the name on them find nothing to call (`Session.Reaches.abstract_overridden`).

So an abstract method alone does not guarantee a method: two classes of one line each are enough
for an object on which it cannot be called (`Session.exists_attribute_override`).
-/
import MethodGuard.Proofs.Call.Dependable

namespace MethodGuard

/-- The own body of a class defines the name. -/
def Declaration.Defines (x : Declaration) (name : String) : Prop :=
  (x.members.find? name).isSome = true

namespace Shape

/-! ## 1. First definitions, and calls of them -/

/-- Some class of the lineage declares the name as an abstract method. -/
def AbstractAlong (s : Shape) (name : String) : Prop :=
  ∃ x ∈ s.lineage, ∃ m, x.members.find? name = some (.abstract m)

variable {s : Shape} {name : String}

/-- A name that is defined along the lineage stands for its first definition. -/
theorem Searched.exists_first (h : s.Searched) (hname : ∃ x ∈ s.lineage, x.Defines name) :
    ∃ x member, FirstWith (fun y => y.Defines name) s.lineage x ∧
      x.members.find? name = some member ∧ s.resolve? name = some ⟨member, x.name⟩ := by
  have hfound : (s.resolve? name).isSome = true := by
    obtain ⟨x, hx, hdefines⟩ := hname
    rw [h.resolve?_eq, List.findSome?_isSome_iff]
    exact ⟨x, hx, by rwa [ownResolved?, Option.isSome_map]⟩
  obtain ⟨r, hr⟩ := Option.isSome_iff_exists.mp hfound
  have hsearch := hr
  rw [h.resolve?_eq] at hsearch
  obtain ⟨x, hfirst, hown⟩ := findSome?_eq_some_iff.mp hsearch
  obtain ⟨member, hmember, rfl⟩ := Option.map_eq_some_iff.mp hown
  simp only [ownResolved?, Option.isSome_map] at hfirst
  exact ⟨x, member, hfirst, hmember, hr⟩

/-- **A call finds nothing to call exactly when the name stands for an attribute.** -/
theorem Settled.notCallable_iff (h : s.Settled) {nested : Caller} {a : Arguments}
    {fields : Fields} {out : Outcome (Except CallError Value)} {journal : List Invocation}
    (haccount : s.Account nested name a fields out journal) :
    (∃ c n, out.value = .error (.notCallable c n)) ↔
      ∃ value, s.member? name = some (.attribute value) := by
  have hnot {P : Prop} (hvalue : ∀ e, out.value = .error e → e.OfCall)
      (h : ∃ c n, out.value = .error (.notCallable c n)) : P := by
    obtain ⟨c, n, he⟩ := h
    cases hvalue _ he
  cases haccount with
  | @validated p out journal hp hproxy =>
    constructor
    · refine hnot fun e he => ofCall_of_proxyAccount (fun hprerun => ?_) hproxy he
      obtain ⟨v, hv, -⟩ := h.validator _ _ hp hprerun
      exact ⟨v, hv⟩
    · rintro ⟨value, hvalue⟩
      have hmethod := hasMethod_iff.mp (h.method _ _ hp)
      cases hvalue.symm.trans hmethod
  | unbound hp hmethod =>
    rw [hasMethod_iff.mp hmethod]
    simp
  | ran hp hmethod =>
    rw [hasMethod_iff.mp hmethod]
    constructor
    · refine hnot fun e he => ?_
      obtain ⟨raised, -, rfl⟩ := mapError_eq_error_iff.mp he
      exact .raised
    · simp
  | isAbstract _ hmember => exact absurd hmember (h.concrete _ _)
  | isAttribute _ hmember =>
    rw [hmember]
    simp
  | unknown _ hmember =>
    rw [hmember]
    simp

end Shape

/-! ## 2. Objects -/

namespace Session

/-- **What takes the place of an abstract method.**  Where an object's class or an ancestor of it
declares an abstract method, the first class of the lineage that has the name in its own body has
it for a method or for an attribute.  If the class asks that it be a method, it is one; and calls
on the object fail for want of something callable exactly when it is an attribute. -/
theorem Reaches.abstract_overridden {S : Session} {log : List (Action × List Event)}
    (hrun : initial.Reaches log S) {o : Object} (ho : o ∈ S.objects) {name : String}
    (hname : o.cls.AbstractAlong name) :
    ∃ x member, FirstWith (fun y => y.Defines name) o.cls.lineage x ∧
      x.members.find? name = some member ∧ o.cls.resolve? name = some ⟨member, x.name⟩ ∧
      member.isAbstract = false ∧ (o.cls.Demands name → member.isCallable = true) ∧
      (∀ a t, o.call name a = some t →
        ((∃ c n, t.value.1 = .error (.notCallable c n)) ↔ member.isCallable = false)) ∧
      ∀ nested a fields out, o.cls.callWith nested name a fields = some out →
        ((∃ c n, out.value = .error (.notCallable c n)) ↔ member.isCallable = false) := by
  have hvalid := hrun.valid
  obtain ⟨hcls, habstract, hpasses⟩ := hvalid.objects o ho
  have hsearched := hvalid.history.searched hcls
  obtain ⟨x, hx, m, hm⟩ := hname
  obtain ⟨y, member, hfirst, hown, hresolve⟩ := hsearched.exists_first
    ⟨x, hx, by rw [Declaration.Defines, hm]; rfl⟩
  have hmember : o.cls.member? name = some member := by rw [Shape.member?, hresolve]; rfl
  have hconcrete : member.isAbstract = false := by
    rcases member with m | m | value
    · rfl
    · exact absurd hmember (hsearched.member?_ne_abstract habstract m)
    · rfl
  have hattribute : (∃ value, o.cls.member? name = some (.attribute value)) ↔
      member.isCallable = false := by
    rw [hmember]
    rcases member with m | m | value
    · simp [Member.isCallable]
    · cases hconcrete
    · simp [Member.isCallable]
  have hdemanded : o.cls.Demands name → member.isCallable = true := by
    intro hdemands
    obtain ⟨m, hm⟩ := hvalid.history.exists_hasMethod_of_demands hcls hpasses.sound hdemands
    cases hmember.symm.trans (Shape.hasMethod_iff.mp hm)
    rfl
  have hcalls {nested : Caller} {a : Arguments} {fields : Fields}
      {out : Outcome (Except CallError Value)}
      (hcall : o.cls.callWith nested name a fields = some out) :
      (∃ c n, out.value = .error (.notCallable c n)) ↔ member.isCallable = false := by
    obtain ⟨journal, haccount⟩ := Shape.callWith_eq_some_iff.mp hcall
    exact ((hvalid.settled ho).notCallable_iff haccount).trans hattribute
  refine ⟨y, member, hfirst, hown, hresolve, hconcrete, hdemanded, fun a t hcall => ?_,
    fun nested a fields out => hcalls⟩
  obtain ⟨out, hout, rfl⟩ := Option.map_eq_some_iff.mp hcall
  exact hcalls hout

/-- In the diamond, the abstract area is overridden by the method of the other base. -/
theorem abstract_overridden_bottom : ∃ log S, (initial.Reaches log S ∧
    Diamond.object ∈ S.objects ∧ Diamond.object.cls.AbstractAlong "area") ∧
    ∃ x member, FirstWith (fun y => y.Defines "area") Diamond.object.cls.lineage x ∧
      x.members.find? "area" = some member ∧
      Diamond.object.cls.resolve? "area" = some ⟨member, x.name⟩ ∧ member.isAbstract = false ∧
      (Diamond.object.cls.Demands "area" → member.isCallable = true) ∧
      (∀ a t, Diamond.object.call "area" a = some t →
        ((∃ c n, t.value.1 = .error (.notCallable c n)) ↔ member.isCallable = false)) ∧
      ∀ nested a fields out, Diamond.object.cls.callWith nested "area" a fields = some out →
        ((∃ c n, out.value = .error (.notCallable c n)) ↔ member.isCallable = false) := by
  obtain ⟨log, hrun⟩ := Diamond.exists_reaches_object
  have hname : Diamond.object.cls.AbstractAlong "area" :=
    ⟨Diamond.marking.own, List.mem_of_getElem? (i := 2) rfl, _, rfl⟩
  exact ⟨log, Diamond.session, ⟨hrun, Diamond.object_mem, hname⟩,
    hrun.abstract_overridden Diamond.object_mem hname⟩

end Session

/-! ## 3. An attribute in the place of a method -/

namespace Shadowed

def baseStatement : Definition := ⟨"Base", [], [.abstract ⟨"save", .empty, .none⟩]⟩
def base : Class := .ofDefinition baseStatement 0 []

def childStatement : Definition := ⟨"Child", [base], [.attribute "save" (.integer 1)]⟩
def child : Class := .ofDefinition childStatement 1 [base.own]

theorem base_defined : Class.define 0 baseStatement = .ok base :=
  Class.define_eq_ok_iff.mpr
    ⟨by decide, by decide, rfl, [], Linearization.merge?_of_isEmpty _ rfl, rfl⟩

theorem child_defined : Class.define 1 childStatement = .ok child :=
  Class.define_eq_ok_iff.mpr
    ⟨by decide, by decide, rfl, _, Definition.ancestors?_of_root rfl rfl, rfl⟩

theorem history : History [child, base] :=
  (History.start.build (by simp [baseStatement]) base_defined).build
    (by simp [childStatement]) child_defined

/-- Nothing is asked of the name, so nothing is found out. -/
theorem child_passes : child.Passes := rfl

/-- An object of the class with the attribute. -/
def object : Object := ⟨0, child, .empty, true⟩

/-- The session after both classes have been built and the object constructed. -/
def session : Session := ⟨⟨2, 1, [child.id], .empty⟩, [child, base], [object]⟩

theorem exists_reaches_object : ∃ log, Session.initial.Reaches log session :=
  Session.exists_reaches_first_object history List.mem_cons_self rfl rfl child_passes

end Shadowed

/-- **An abstract method is not always a callable requirement**: a class with an object may have an
attribute in its place, and then calling it fails. -/
theorem Session.exists_attribute_override : ∃ log S o, initial.Reaches log S ∧ o ∈ S.objects ∧
    o.cls.AbstractAlong "save" ∧ (¬ ∃ m, o.cls.HasMethod "save" m) ∧
    ∃ t, o.call "save" .empty = some t ∧ t.value.1 = .error (.notCallable "Child" "save") := by
  obtain ⟨log, hrun⟩ := Shadowed.exists_reaches_object
  have hmember : Shadowed.child.member? "save" = some (.attribute (.integer 1)) := rfl
  refine ⟨log, Shadowed.session, Shadowed.object, hrun, List.mem_singleton_self _,
    ⟨Shadowed.base.own, List.mem_of_getElem? (i := 1) rfl, _, rfl⟩, ?_, _, rfl, rfl⟩
  rintro ⟨m, hm⟩
  cases hmember.symm.trans (Shape.hasMethod_iff.mp hm)

end MethodGuard
