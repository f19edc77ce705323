/-
# What a call of an object never comes to

Building makes the dispatch table in silence: a marked name that stands for no method gets no
proxy, and a name marked for a validator that has none gets a proxy without.  A call that met such
a gap would fail for a reason that has nothing to do with the call.  The structural check looks for
the same gaps, but later and by itself, when the first object is constructed.

That the two agree is `Shape.Settled`: of a class that is sound and not abstract, the table has a
proxy for every marked name, every proxy has what it is marked for, and no name stands for an
abstract method (`Shape.HasTable.settled`).  Going through the accounts of calls, none of them then
ends in a structural error, and none of a name that is marked or required finds anything but a
method (`Shape.Settled.dependable`).  Objects belong to such classes
(`Session.Reaches.calls_dependable`).
-/
import MethodGuard.Proofs.Call.Guarded
import MethodGuard.Proofs.Class.Lookup

namespace MethodGuard

/-- **The errors that a call is to blame for**, or the functions that it runs, and not the class. -/
inductive CallError.OfCall : CallError → Prop where
  | bind {method : String} {e : BindError} : OfCall (.bind method e)
  | argumentType {method parameter detail : String} {spec : TypeSpec} :
      OfCall (.argumentType method parameter spec detail)
  | returnType {method detail : String} {spec : TypeSpec} : OfCall (.returnType method spec detail)
  | raised {e : MethodError} : OfCall (.raised e)

namespace Shape

/-! ## 1. Classes without gaps -/

/-- **A class whose dispatch table has no gaps.** -/
structure Settled (s : Shape) : Prop where
  /-- The names in the table are the marked ones, each once and in byte order. -/
  keys : s.dispatch.keys = (s.prerun.union s.typed).names
  /-- Every proxy wraps the method that its name stands for. -/
  method : ∀ name p, s.validatedMethod? name = some p → s.HasMethod name p.method
  /-- Its two flags say what the name is marked for. -/
  flags : ∀ name p, s.validatedMethod? name = some p →
    (p.prerun = true ↔ name ∈ s.prerun) ∧ (p.typed = true ↔ name ∈ s.typed)
  /-- A proxy marked for a validator has the one that the class has for the name, under the name of
  the class that defines it. -/
  validator : ∀ name p, s.validatedMethod? name = some p → p.prerun = true →
    ∃ v, p.validator = some v ∧ s.HasValidator name v
  /-- No name stands for an abstract method, so no call gets to where it would find one. -/
  concrete : ∀ name m, s.member? name ≠ some (.abstract m)

variable {s : Shape} {name : String}

/-- Making the proxies of names that all stand for methods leaves none of them out. -/
theorem map_fst_madeProxies {names : List String} (h : ∀ name ∈ names, ∃ m, s.HasMethod name m) :
    (names.filterMap s.madeProxy?).map Prod.fst = names := by
  induction names with
  | nil => rfl
  | cons name rest ih =>
    obtain ⟨m, hm⟩ := h name List.mem_cons_self
    obtain ⟨p, hp⟩ := exists_madeProxy? hm
    have hrest := ih fun other hother => h other (List.mem_cons_of_mem name hother)
    rw [List.filterMap_cons_some hp, List.map_cons, hrest]

theorem HasTable.keys_eq (h : s.HasTable) (hsound : Sound s) :
    s.dispatch.keys = (s.prerun.union s.typed).names := by
  have hmethods : ∀ name ∈ (s.prerun.union s.typed).names, ∃ m, s.HasMethod name m := by
    intro name hname
    exact hsound.exists_hasMethod (NameSet.mem_union.mp hname)
  rw [h, OrderedMap.keys, OrderedMap.entries_ofList (nodup_madeProxies _)]
  exact map_fst_madeProxies hmethods

/-- **What the structural check asks for is what building needs.** -/
theorem HasTable.settled (h : s.HasTable) (hsearched : s.Searched) (hsound : Sound s)
    (habstract : s.isAbstract = false) : s.Settled where
  keys := h.keys_eq hsound
  method := fun _ _ hp => (h.validatedMethod?_eq_some_iff.mp hp).2.method
  flags := fun _ _ hp =>
    ⟨(h.validatedMethod?_eq_some_iff.mp hp).2.prerun, (h.validatedMethod?_eq_some_iff.mp hp).2.typed⟩
  validator := by
    intro name p hp hprerun
    obtain ⟨-, hproxy⟩ := h.validatedMethod?_eq_some_iff.mp hp
    have hname : name ∈ s.prerun := hproxy.prerun.mp hprerun
    obtain ⟨-, v, -, hv, -⟩ := hsound.prerun name hname
    obtain ⟨validator, hvalidator, -⟩ := hv.exists_hasValidator
    exact ⟨validator, (hproxy.validator _).mpr ⟨hname, hvalidator⟩, hvalidator⟩
  concrete := fun _ m => hsearched.member?_ne_abstract habstract m

/-! ## 2. What calls come to -/

/-- The class asks that the name be a method: some class of its lineage marks it, or it is
required. -/
def Demands (s : Shape) (name : String) : Prop :=
  (∃ marker, s.MarkedAlong marker name) ∨ name ∈ s.required

/-- **A result of a call that is not due to a gap in the class.** -/
structure Dependable (s : Shape) (name : String) (result : Except CallError Value) : Prop where
  structural : ∀ e, result ≠ .error (.structural e)
  callable : s.Demands name → ∀ c n, result ≠ .error (.notCallable c n)
  known : s.Demands name → ∀ c n, result ≠ .error (.unknownMethod c n)

/-- What is due to the call and the functions it runs is not due to a gap. -/
theorem Dependable.of_ofCall {result : Except CallError Value}
    (h : ∀ e, result = .error e → e.OfCall) : s.Dependable name result where
  structural := fun _ he => nomatch h _ he
  callable := fun _ _ _ he => nomatch h _ he
  known := fun _ _ _ he => nomatch h _ he

section Accounts

variable {nested : Caller} {a : Arguments} {fields : Fields} {journal : List Invocation}

/-- The first checkpoint of a proxy with its validator. -/
theorem ofCall_of_inputsAccount {p : ValidatedMethod}
    (hvalidator : p.prerun = true → ∃ v, p.validator = some v) {e : CallError} {fields' : Fields}
    {events : List Event}
    (h : p.InputsAccount s nested a fields ⟨.error e, fields', events⟩ journal) : e.OfCall := by
  cases h with
  | missing hprerun hnone =>
    obtain ⟨v, hv⟩ := hvalidator hprerun
    cases hnone.symm.trans hv
  | unbound => exact .bind
  | rejected => exact .raised

/-- All checkpoints of such a proxy. -/
theorem ofCall_of_proxyAccount {p : ValidatedMethod}
    (hvalidator : p.prerun = true → ∃ v, p.validator = some v)
    {out : Outcome (Except CallError Value)} (h : p.Account s nested a fields out journal)
    {e : CallError} (he : out.value = .error e) : e.OfCall := by
  cases h with
  | rejected hinputs =>
    cases he
    exact ofCall_of_inputsAccount hvalidator hinputs
  | unbound =>
    cases he
    exact .bind
  | mistyped _ _ _ hcheck =>
    cases he
    obtain ⟨parameter, spec, detail, rfl⟩ := exists_argumentType_of_checkSupplied hcheck
    exact .argumentType
  | raised =>
    cases he
    exact .raised
  | mistypedResult _ _ _ hcheck =>
    cases he
    obtain ⟨spec, detail, rfl⟩ := exists_returnType_of_checkReturn hcheck
    exact .returnType
  | returned => cases he

/-- **No call fails for a gap in its class**, whatever its arguments, the object and the functions
that it runs are. -/
theorem Settled.dependable (h : s.Settled) (hdemands : s.Demands name → ∃ m, s.HasMethod name m)
    {out : Outcome (Except CallError Value)} (haccount : s.Account nested name a fields out journal) :
    s.Dependable name out.value := by
  have hnot (hother : ∀ m, s.member? name ≠ some (.method m)) : ¬ s.Demands name := by
    intro hname
    obtain ⟨m, hm⟩ := hdemands hname
    exact hother m (hasMethod_iff.mp hm)
  cases haccount with
  | validated hp hproxy =>
    refine .of_ofCall fun e he => ofCall_of_proxyAccount (fun hprerun => ?_) hproxy he
    obtain ⟨v, hv, -⟩ := h.validator _ _ hp hprerun
    exact ⟨v, hv⟩
  | unbound => exact .of_ofCall fun e he => by cases he; exact .bind
  | ran =>
    refine .of_ofCall fun e he => ?_
    obtain ⟨raised, -, rfl⟩ := mapError_eq_error_iff.mp he
    exact .raised
  | isAbstract _ hmember => exact absurd hmember (h.concrete _ _)
  | isAttribute _ hmember =>
    have hname := hnot fun m => by simp [hmember]
    exact ⟨fun _ => nofun, fun hdemand => absurd hdemand hname, fun _ _ _ => nofun⟩
  | unknown _ hmember =>
    have hname := hnot fun m => by simp [hmember]
    exact ⟨fun _ => nofun, fun _ _ _ => nofun, fun hdemand => absurd hdemand hname⟩

end Accounts

end Shape

/-! ## 3. Objects -/

namespace History

variable {classes : List Class} {c : Class}

/-- What a sound class of a history demands is a method. -/
theorem exists_hasMethod_of_demands (h : History classes) (hc : c ∈ classes)
    (hsound : Sound c.toShape) {name : String} (hname : c.Demands name) :
    ∃ m, c.HasMethod name m := by
  rcases hname with ⟨marker, hmarked⟩ | hrequired
  · have hname := (h.mem_marked_iff hc).mpr hmarked
    exact hsound.exists_hasMethod (Shape.gathered_of_mem_marked hname)
  · exact hsound.required name hrequired

end History

namespace Session

/-- The class of an object has no gaps. -/
theorem Valid.settled {S : Session} (h : S.Valid) {o : Object} (ho : o ∈ S.objects) :
    o.cls.Settled := by
  obtain ⟨hcls, habstract, hpasses⟩ := h.objects o ho
  exact (h.history.hasTable hcls).settled (h.history.searched hcls) hpasses.sound habstract

/-- **Structural failures cannot surface at call time.**  In every session that can be reached, the
class of every object has a dispatch table without gaps, and no call of the object, with whatever
name and arguments, fails for what the structural check is about; the same holds of all calls that
bodies make, whatever the fields are then and whatever calls of their own these make. -/
theorem Reaches.calls_dependable {S : Session} {log : List (Action × List Event)}
    (hrun : initial.Reaches log S) {o : Object} (ho : o ∈ S.objects) :
    o.cls.Settled ∧
      (∀ name a t, o.call name a = some t → o.cls.Dependable name t.value.1) ∧
      ∀ nested name a fields out, o.cls.callWith nested name a fields = some out →
        o.cls.Dependable name out.value := by
  have hvalid := hrun.valid
  have hsettled := hvalid.settled ho
  obtain ⟨hcls, -, hpasses⟩ := hvalid.objects o ho
  have hcalls : ∀ nested name a fields out, o.cls.callWith nested name a fields = some out →
      o.cls.Dependable name out.value := by
    intro nested name a fields out hcall
    obtain ⟨journal, haccount⟩ := Shape.callWith_eq_some_iff.mp hcall
    exact hsettled.dependable (hvalid.history.exists_hasMethod_of_demands hcls hpasses.sound)
      haccount
  refine ⟨hsettled, fun name a t hcall => ?_, hcalls⟩
  obtain ⟨out, hout, rfl⟩ := Option.map_eq_some_iff.mp hcall
  exact hcalls _ name a o.fields out hout

/-- In the diamond, the only marked name comes from a base that has no method for it. -/
theorem calls_dependable_bottom : ∃ log S,
    (initial.Reaches log S ∧ Diamond.object ∈ S.objects) ∧
    Diamond.object.cls.Settled ∧
    (∀ name a t, Diamond.object.call name a = some t →
      Diamond.object.cls.Dependable name t.value.1) ∧
    ∀ nested name a fields out, Diamond.object.cls.callWith nested name a fields = some out →
      Diamond.object.cls.Dependable name out.value := by
  obtain ⟨log, hrun⟩ := Diamond.exists_reaches_object
  exact ⟨log, Diamond.session, ⟨hrun, Diamond.object_mem⟩,
    hrun.calls_dependable Diamond.object_mem⟩

end Session

end MethodGuard
