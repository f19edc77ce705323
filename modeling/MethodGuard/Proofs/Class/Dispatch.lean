/-
# The proxies of a class

When a class is built, every marked name that stands for a method is bound to a proxy, with its
validator and the options in effect.  `Shape.IsProxy` says which proxy that should be, in terms of
what the names of the class stand for; a name has it exactly when it is marked and stands for a
method (`Shape.HasTable.validatedMethod?_eq_some_iff`).  The table is made once, so this is what
every later call of a marked name passes through.
-/
import MethodGuard.Call.Basic
import MethodGuard.Proofs.Class.History
import MethodGuard.Proofs.OrderedMap
import MethodGuard.Proofs.Structure.SelfCheck

namespace MethodGuard

namespace Shape

variable {s : Shape} {name : String}

/-- The validator of a name, with the class that defines it. -/
def HasValidator (s : Shape) (name : String) (v : Validator) : Prop :=
  ∃ owner, s.resolve? (validatorName name) = some ⟨.method v.method, owner⟩ ∧
    v.qualname = owner ++ "." ++ validatorName name

/-- A method under a validator's name is the validator, named after the class that defines it. -/
theorem HasMethod.exists_hasValidator {v : Method} (h : s.HasMethod (validatorName name) v) :
    ∃ w, s.HasValidator name w ∧ w.method = v := by
  obtain ⟨owner, hv⟩ := h
  exact ⟨⟨owner ++ "." ++ validatorName name, v⟩, ⟨owner, hv, rfl⟩, rfl⟩

/-- **The proxy that a class should have for a name** that stands for a method. -/
structure IsProxy (s : Shape) (name : String) (p : ValidatedMethod) : Prop where
  method : s.HasMethod name p.method
  className : p.className = s.name
  qualname : p.qualname = s.qualname name
  prerun : p.prerun = true ↔ name ∈ s.prerun
  typed : p.typed = true ↔ name ∈ s.typed
  validator : ∀ v, p.validator = some v ↔ name ∈ s.prerun ∧ s.HasValidator name v
  collectionCheck : p.collectionCheck = s.options.collectionCheck

/-- A class says all of a proxy. -/
theorem IsProxy.unique {p q : ValidatedMethod} (hp : s.IsProxy name p) (hq : s.IsProxy name q) :
    p = q := by
  have hprerun : p.prerun = q.prerun := Bool.eq_iff_iff.mpr (hp.prerun.trans hq.prerun.symm)
  have htyped : p.typed = q.typed := Bool.eq_iff_iff.mpr (hp.typed.trans hq.typed.symm)
  have hvalidator : p.validator = q.validator :=
    Option.ext fun v => (hp.validator v).trans (hq.validator v).symm
  have hmethod := hp.method.unique hq.method
  have hclass := hp.className.trans hq.className.symm
  have hqualname := hp.qualname.trans hq.qualname.symm
  have hcheck := hp.collectionCheck.trans hq.collectionCheck.symm
  cases p
  cases q
  simp_all

theorem validatorOf?_eq_some_iff {v : Validator} :
    validatorOf? s.resolved name = some v ↔ s.HasValidator name v := by
  obtain ⟨qualname, method⟩ := v
  simp only [validatorOf?, HasValidator, resolve?]
  rcases s.resolved.find? (validatorName name) with _ | ⟨m | m | value, owner⟩
  · simp
  · simp only [Option.some.injEq, Validator.mk.injEq, Resolved.mk.injEq, Member.method.injEq]
    grind
  · simp
  · simp

/-- What building makes for a name. -/
def madeProxy? (s : Shape) (name : String) : Option (String × ValidatedMethod) :=
  proxyOf? s.name s.options s.resolved s.prerun s.typed name

theorem isProxy_of_madeProxy? {key : String} {p : ValidatedMethod}
    (h : s.madeProxy? name = some (key, p)) : key = name ∧ s.IsProxy name p := by
  unfold madeProxy? proxyOf? at h
  rcases hr : s.resolved.find? name with _ | ⟨m | m | value, owner⟩ <;> rw [hr] at h <;> cases h
  refine ⟨rfl, ⟨owner, hr⟩, rfl, rfl, NameSet.contains_iff, NameSet.contains_iff, fun v => ?_, rfl⟩
  by_cases hname : name ∈ s.prerun
  · simp [NameSet.contains_iff.mpr hname, hname, validatorOf?_eq_some_iff]
  · simp [NameSet.contains_iff, hname]

theorem exists_madeProxy? {m : Method} (h : s.HasMethod name m) :
    ∃ p, s.madeProxy? name = some (name, p) := by
  obtain ⟨owner, hm⟩ := h
  unfold resolve? at hm
  simp [madeProxy?, proxyOf?, hm]

/-- Building makes the proxy that the class should have. -/
theorem madeProxy?_eq_some_iff {key : String} {p : ValidatedMethod} :
    s.madeProxy? name = some (key, p) ↔ key = name ∧ s.IsProxy name p := by
  refine ⟨isProxy_of_madeProxy?, ?_⟩
  rintro ⟨rfl, hp⟩
  obtain ⟨found, hfound⟩ := exists_madeProxy? hp.method
  rw [hfound, (isProxy_of_madeProxy? hfound).2.unique hp]

/-- There is a proxy that a class should have for each of its methods. -/
theorem exists_isProxy {m : Method} (h : s.HasMethod name m) : ∃ p, s.IsProxy name p := by
  obtain ⟨p, hp⟩ := exists_madeProxy? h
  exact ⟨p, (isProxy_of_madeProxy? hp).2⟩

/-- The entries of the table have different names. -/
theorem nodup_madeProxies (names : NameSet) :
    ((names.names.filterMap s.madeProxy?).map Prod.fst).Nodup := by
  rw [List.map_filterMap]
  have hne {a b : String} (hlt : a < b) : a ≠ b := fun heq => String.lt_irrefl b (heq ▸ hlt)
  have hnames : names.names.Nodup := names.ascending.imp hne
  refine hnames.filterMap fun a a' b hb hb' => ?_
  simp only [Option.mem_def, Option.map_eq_some_iff, Prod.exists, exists_and_right,
    exists_eq_right] at hb hb'
  obtain ⟨p, hp⟩ := hb
  obtain ⟨p', hp'⟩ := hb'
  exact (isProxy_of_madeProxy? hp).1.symm.trans (isProxy_of_madeProxy? hp').1

/-- A class's table is the one made for its marked names. -/
def HasTable (s : Shape) : Prop :=
  s.dispatch = .ofList ((s.prerun.union s.typed).names.filterMap s.madeProxy?)

theorem hasTable_ofDefinition (d : Definition) (id : ClassId) (ancestors : List Declaration) :
    (ofDefinition d id ancestors).HasTable := rfl

/-- **A name has a proxy exactly when it is marked and stands for a method**, and the proxy is the
one that the class says. -/
theorem HasTable.validatedMethod?_eq_some_iff (h : s.HasTable) {p : ValidatedMethod} :
    s.validatedMethod? name = some p ↔ (name ∈ s.prerun ∨ name ∈ s.typed) ∧ s.IsProxy name p := by
  rw [validatedMethod?, h, OrderedMap.find?_ofList_iff (nodup_madeProxies _), List.mem_filterMap]
  simp only [madeProxy?_eq_some_iff]
  constructor
  · rintro ⟨key, hkey, rfl, hp⟩
    exact ⟨NameSet.mem_union.mp hkey, hp⟩
  · rintro ⟨hname, hp⟩
    exact ⟨name, NameSet.mem_union.mpr hname, rfl, hp⟩

end Shape

namespace History

variable {classes : List Class} {c : Class}

/-- Every built class has its table. -/
theorem hasTable (h : History classes) (hc : c ∈ classes) : c.HasTable := by
  obtain ⟨d, hd⟩ := h.exists_builtFrom hc
  rw [hd.eq_ofDefinition.2]
  exact Shape.hasTable_ofDefinition d _ _

end History

end MethodGuard
