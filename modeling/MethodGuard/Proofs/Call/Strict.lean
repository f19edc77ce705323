/-
# Strict validators see the call that the method sees

Under strict options the structural check compares the parameters of a validator with those of the
method it guards, once, before the first object is constructed.  After that a call binds the
caller's arguments twice: to the validator, and, if this has accepted, to the method.  The two
bindings come out alike (`Signature.bindsAlike`), so the second one never fails: every refusal of
arguments is the validator's, and comes before any body has run (`Shape.BoundStrictly`).
-/
import MethodGuard.Proofs.Call.Guarded
import MethodGuard.Proofs.Signature.Alike

namespace MethodGuard

/-! ## 1. Proxies whose validator binds as the method does -/

namespace ValidatedMethod

variable {p : ValidatedMethod} {v : Validator} {s : Shape} {nested : Caller} {a : Arguments}
  {fields : Fields} {journal : List Invocation}

/-- Arguments that the validator's signature refuses end the first checkpoint. -/
theorem InputsAccount.of_refused {o : Outcome (Except CallError Unit)}
    (h : p.InputsAccount s nested a fields o journal) (hprerun : p.prerun = true)
    (hv : p.validator = some v) {e : BindError} (he : v.method.signature.bind a = .error e) :
    o = ⟨.error (.bind v.qualname e), fields, []⟩ ∧ journal = [] := by
  cases h with
  | unmarked hunmarked => cases hunmarked.symm.trans hprerun
  | missing _ hnone => cases hnone.symm.trans hv
  | unbound _ hv' he' =>
    cases hv.symm.trans hv'
    cases he.symm.trans he'
    exact ⟨rfl, rfl⟩
  | rejected _ hv' hbind =>
    cases hv.symm.trans hv'
    cases he.symm.trans hbind
  | accepted _ hv' hbind =>
    cases hv.symm.trans hv'
    cases he.symm.trans hbind

/-- Such arguments end the call, with nothing run and nothing changed. -/
theorem Account.of_refused {out : Outcome (Except CallError Value)}
    (h : p.Account s nested a fields out journal) (hprerun : p.prerun = true)
    (hv : p.validator = some v) {e : BindError} (he : v.method.signature.bind a = .error e) :
    out = ⟨.error (.bind v.qualname e), fields, [.calling p.qualname]⟩ ∧ journal = [] := by
  have hnot {fields' : Fields} {events : List Event} {journal : List Invocation}
      (hinputs : p.InputsAccount s nested a fields ⟨.ok (), fields', events⟩ journal) : False := by
    cases (hinputs.of_refused hprerun hv he).1
  cases h with
  | rejected hinputs =>
    obtain ⟨ho, hjournal⟩ := hinputs.of_refused hprerun hv he
    cases ho
    exact ⟨rfl, hjournal⟩
  | unbound hinputs => exact (hnot hinputs).elim
  | mistyped hinputs => exact (hnot hinputs).elim
  | raised hadmitted =>
    obtain ⟨_, hinputs, -⟩ := hadmitted.inputs
    exact (hnot hinputs).elim
  | mistypedResult hadmitted =>
    obtain ⟨_, hinputs, -⟩ := hadmitted.inputs
    exact (hnot hinputs).elim
  | returned hadmitted =>
    obtain ⟨_, hinputs, -⟩ := hadmitted.inputs
    exact (hnot hinputs).elim

/-- The first checkpoint runs the validator on what its own signature made of the arguments. -/
theorem InputsAccount.bound_eq {o : Outcome (Except CallError Unit)}
    (h : p.InputsAccount s nested a fields o journal) (hv : p.validator = some v)
    {bound : BoundArguments} (hbound : v.method.signature.bind a = .ok bound) {i : Invocation}
    (hi : i ∈ journal) : i.bound = bound := by
  cases h with
  | unmarked => cases hi
  | missing => cases hi
  | unbound => cases hi
  | rejected _ hv' hbind =>
    cases hv.symm.trans hv'
    cases hbound.symm.trans hbind
    rw [List.mem_singleton.mp hi]
  | accepted _ hv' hbind =>
    cases hv.symm.trans hv'
    cases hbound.symm.trans hbind
    rw [List.mem_singleton.mp hi]

/-- A first checkpoint at which the arguments bind does not refuse them. -/
theorem InputsAccount.ne_bind {e : CallError} {fields' : Fields} {events : List Event}
    (h : p.InputsAccount s nested a fields ⟨.error e, fields', events⟩ journal)
    (hv : p.validator = some v) {bound : BoundArguments}
    (hbound : v.method.signature.bind a = .ok bound) (q : String) (refusal : BindError) :
    e ≠ .bind q refusal := by
  rintro rfl
  cases h with
  | unbound _ hv' he =>
    cases hv.symm.trans hv'
    cases hbound.symm.trans he

/-- A call whose arguments bind twice refuses none. -/
theorem Account.ne_bind {out : Outcome (Except CallError Value)}
    (h : p.Account s nested a fields out journal) (hv : p.validator = some v)
    {bound bound' : BoundArguments} (hbound : v.method.signature.bind a = .ok bound)
    (hbound' : p.method.signature.bind a = .ok bound') (q : String) (refusal : BindError) :
    out.value ≠ .error (.bind q refusal) := by
  intro he
  cases h with
  | rejected hinputs =>
    cases he
    exact hinputs.ne_bind hv hbound q refusal rfl
  | unbound _ hrefused => cases hbound'.symm.trans hrefused
  | mistyped _ _ _ hcheck =>
    obtain ⟨parameter, spec, detail, rfl⟩ := exists_argumentType_of_checkSupplied hcheck
    cases he
  | raised => cases he
  | mistypedResult _ _ _ hcheck =>
    obtain ⟨spec, detail, rfl⟩ := exists_returnType_of_checkReturn hcheck
    cases he
  | returned => cases he

/-- In a call, too, a validator is run on what its own signature made of the arguments. -/
theorem Account.bound_eq {out : Outcome (Except CallError Value)}
    (h : p.Account s nested a fields out journal) (hv : p.validator = some v)
    {bound : BoundArguments} (hbound : v.method.signature.bind a = .ok bound) {i : Invocation}
    (hi : i ∈ journal) (hrole : i.role = .validator) : i.bound = bound := by
  rcases h.stopped_or_ran with
    ⟨-, o, hinputs⟩ | ⟨_, _, earlier, b, ⟨⟨_, hinputs, -⟩, -⟩, rfl, hb, -⟩
  · exact hinputs.bound_eq hv hbound hi
  · rcases List.mem_append.mp hi with hi | hi
    · exact hinputs.bound_eq hv hbound hi
    · rw [List.mem_singleton.mp hi, hb] at hrole
      cases hrole

end ValidatedMethod

/-! ## 2. Calls of strictly validated names -/

namespace Shape

/-- **What an account of a call keeps to under strict options**, for a name with the method `m`
and the validator `v`. -/
structure BoundStrictly (s : Shape) (name : String) (m : Method) (v : Validator) (a : Arguments)
    (fields : Fields) (out : Outcome (Except CallError Value)) (journal : List Invocation) :
    Prop where
  /-- Arguments that do not bind are refused in the validator's name, with no body run, no record
  but that of the call, and the fields as they were. -/
  refused : ∀ e, v.method.signature.bind a = .error e → journal = [] ∧
    out = ⟨.error (.bind v.qualname e), fields, [.calling (s.qualname name)]⟩
  /-- No other arguments are refused, and in no other name. -/
  binds : ∀ q e, out.value = .error (.bind q e) → q = v.qualname ∧
    v.method.signature.bind a = .error e ∧ m.signature.bind a = .error e
  /-- A validator that was run saw the arguments as the method has them or would have them. -/
  validated : ∀ i ∈ journal, i.role = .validator → ∃ bound, m.signature.bind a = .ok bound ∧
    i.bound.Alike bound

/-- A call of a name keeps to that: there is an account of what has come of it, and every account
of that does. -/
def BindsStrictly (s : Shape) (name : String) (m : Method) (v : Validator) (nested : Caller)
    (a : Arguments) (fields : Fields) (out : Outcome (Except CallError Value)) : Prop :=
  (∃ journal, s.Account nested name a fields out journal) ∧
    ∀ journal, s.Account nested name a fields out journal →
      s.BoundStrictly name m v a fields out journal

variable {s : Shape} {nested : Caller} {name : String} {p : ValidatedMethod} {v : Validator}
  {a : Arguments} {fields : Fields} {out : Outcome (Except CallError Value)}
  {journal : List Invocation}

/-- **A proxy whose validator binds as its method does keeps to it.** -/
theorem IsProxy.boundStrictly (hp : s.IsProxy name p) (hprerun : p.prerun = true)
    (hv : p.validator = some v)
    (halike : BindsAlike (v.method.signature.bind a) (p.method.signature.bind a))
    (h : p.Account s nested a fields out journal) :
    s.BoundStrictly name p.method v a fields out journal := by
  cases hbind : v.method.signature.bind a with
  | error e =>
    obtain ⟨hout, hjournal⟩ := h.of_refused hprerun hv hbind
    have hmethod := halike.eq_error hbind
    refine ⟨fun e' he' => ?_, fun q e' he' => ?_, fun i hi => ?_⟩
    · cases hbind.symm.trans he'
      exact ⟨hjournal, hp.qualname ▸ hout⟩
    · rw [hout] at he'
      cases he'
      exact ⟨rfl, hbind, hmethod⟩
    · rw [hjournal] at hi
      cases hi
  | ok bound =>
    obtain ⟨bound', hmethod, hbound⟩ := halike.exists_alike hbind
    refine ⟨fun e he => ?_, fun q e he => ?_, fun i hi hrole => ?_⟩
    · cases hbind.symm.trans he
    · exact absurd he (h.ne_bind hv hbind hmethod q e)
    · rw [h.bound_eq hv hbind hi hrole]
      exact ⟨bound', hmethod, hbound⟩

end Shape

/-! ## 3. Objects -/

namespace Session

/-- **Under strict options validator and method see the same call.**  In every session that can be
reached, every name that is marked for a validator along the lineage of an object's class stands
for a method and has a validator.  If the class is strict, any arguments bind to the two of them
alike; and in every call, of the object or by one of its bodies, only the validator refuses
arguments, before anything is run or changed. -/
theorem Reaches.calls_strict {S : Session} {log : List (Action × List Event)}
    (hrun : initial.Reaches log S) {o : Object} (ho : o ∈ S.objects)
    (hstrict : o.cls.options.strictValidators = true) {name : String}
    (hmarked : o.cls.MarkedAlong .prerun name) :
    ∃ m v, o.cls.HasMethod name m ∧ o.cls.HasValidator name v ∧
      (∀ a, BindsAlike (v.method.signature.bind a) (m.signature.bind a)) ∧
      (∀ a t, o.call name a = some t → o.cls.BindsStrictly name m v
        (o.cls.callAt (Shape.callDepth - 1)) a o.fields
        ⟨t.value.1, t.value.2.fields, t.events⟩) ∧
      ∀ nested a fields out, o.cls.callWith nested name a fields = some out →
        o.cls.BindsStrictly name m v nested a fields out := by
  have hvalid := hrun.valid
  obtain ⟨hcls, -, hpasses⟩ := hvalid.objects o ho
  obtain ⟨p, hproxy, hp⟩ := hvalid.exists_validatedMethod? ho hmarked
  have hname : name ∈ o.cls.prerun := (hvalid.history.mem_marked_iff hcls).mpr hmarked
  obtain ⟨m, validator, hm, hvalidator, hcontract⟩ := hpasses.sound.prerun name hname
  obtain rfl := hm.unique hp.method
  obtain ⟨v, hv, rfl⟩ := hvalidator.exists_hasValidator
  have halike := Signature.bindsAlike (hcontract hstrict).1
  have hcalls {nested : Caller} {a : Arguments} {fields : Fields}
      {out : Outcome (Except CallError Value)}
      (hcall : o.cls.callWith nested name a fields = some out) :
      o.cls.BindsStrictly name p.method v nested a fields out := by
    refine ⟨Shape.callWith_eq_some_iff.mp hcall, fun journal haccount => ?_⟩
    exact hp.boundStrictly (hp.prerun.mpr hname) ((hp.validator v).mpr ⟨hname, hv⟩) (halike a)
      (haccount.of_validatedMethod? hproxy)
  refine ⟨p.method, v, hm, hv, halike, fun a t hcall => ?_, fun nested a fields out => hcalls⟩
  obtain ⟨out, hout, rfl⟩ := Option.map_eq_some_iff.mp hcall
  exact hcalls hout

/-- The diamond is strict: what one base marks has its method and its validator from the other. -/
theorem calls_strict_bottom : ∃ log S, (initial.Reaches log S ∧ Diamond.object ∈ S.objects ∧
    Diamond.object.cls.options.strictValidators = true ∧
    Diamond.object.cls.MarkedAlong .prerun "area") ∧
    ∃ m v, Diamond.object.cls.HasMethod "area" m ∧ Diamond.object.cls.HasValidator "area" v ∧
      (∀ a, BindsAlike (v.method.signature.bind a) (m.signature.bind a)) ∧
      (∀ a t, Diamond.object.call "area" a = some t →
        Diamond.object.cls.BindsStrictly "area" m v
          (Diamond.object.cls.callAt (Shape.callDepth - 1)) a Diamond.object.fields
          ⟨t.value.1, t.value.2.fields, t.events⟩) ∧
      ∀ nested a fields out, Diamond.object.cls.callWith nested "area" a fields = some out →
        Diamond.object.cls.BindsStrictly "area" m v nested a fields out := by
  obtain ⟨log, hrun⟩ := Diamond.exists_reaches_object
  exact ⟨log, Diamond.session, ⟨hrun, Diamond.object_mem, rfl, Diamond.area_marked⟩,
    hrun.calls_strict Diamond.object_mem rfl Diamond.area_marked⟩

end Session

end MethodGuard
