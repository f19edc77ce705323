/-
# No override escapes validation

Whoever marks a method, in whatever class of the lineage and whether or not that class defines it,
guards every implementation that takes its place.  `Shape.Guarded` says what that means for one
account of one call: before the body the validator has accepted the caller's arguments, the body
was handed arguments of the declared types, and what the call returned has the declared type.

The argument has three parts.  Markers reach every subclass, whichever base brings them
(`History.mem_marked_iff`).  An object's class has passed its structural check, so what is marked
is a method and has a proxy (`exists_validatedMethod?`).  And the proxy runs the body last and only
after all that its two flags ask for (`ValidatedMethod.Account.stopped_or_ran`).
-/
import MethodGuard.Proofs.Call.Account
import MethodGuard.Proofs.Class.Inheritance
import MethodGuard.Proofs.Signature.Supplied
import MethodGuard.Proofs.World.Session

namespace MethodGuard

/-! ## 1. What proxies run -/

/-- A list has one way of being cut at its last element when that is the only one of its sort. -/
theorem eq_of_append_singleton_eq {α : Type u} {P : α → Prop} {earlier before after : List α}
    {b i : α} (hearlier : ∀ x ∈ earlier, ¬ P x) (hi : P i)
    (h : earlier ++ [b] = before ++ i :: after) : earlier = before ∧ b = i := by
  rcases append_singleton_eq_append_cons_iff.mp h with ⟨-, hbefore, hlast⟩ | ⟨_, -, hcut⟩
  · exact ⟨hbefore, hlast⟩
  · exact absurd hi (hearlier i (by simp [hcut]))

namespace ValidatedMethod

variable {p : ValidatedMethod} {s : Shape} {nested : Caller} {a : Arguments} {fields : Fields}
  {journal : List Invocation}

/-- The first checkpoint runs validators only. -/
theorem InputsAccount.isValidator {o : Outcome (Except CallError Unit)}
    (h : p.InputsAccount s nested a fields o journal) {i : Invocation} (hi : i ∈ journal) :
    i.role = .validator ∧ i.Ran s nested := by
  cases h with
  | unmarked => cases hi
  | missing => cases hi
  | unbound => cases hi
  | rejected _ _ _ hdone =>
    rw [List.mem_singleton.mp hi]
    exact ⟨rfl, hdone⟩
  | accepted _ _ _ hdone =>
    rw [List.mem_singleton.mp hi]
    exact ⟨rfl, hdone⟩

theorem InputsAccount.role_ne_body {o : Outcome (Except CallError Unit)}
    (h : p.InputsAccount s nested a fields o journal) {i : Invocation} (hi : i ∈ journal) :
    i.role ≠ .body := by
  rw [(h.isValidator hi).1]
  exact Role.noConfusion

/-- A checkpoint that is passed has had the validator accept the caller's arguments. -/
theorem InputsAccount.exists_accepted {fields' : Fields} {events : List Event}
    (h : p.InputsAccount s nested a fields ⟨.ok (), fields', events⟩ journal)
    (hprerun : p.prerun = true) : ∃ v i, p.validator = some v ∧ i ∈ journal ∧
      i.role = .validator ∧ i.method = v.method ∧ v.method.signature.bind a = .ok i.bound ∧
      ∃ value, i.outcome.value = .ok value := by
  cases h with
  | unmarked hunmarked => simp [hunmarked] at hprerun
  | @accepted v bound value _ _ _ hv hbind hdone =>
    exact ⟨v, _, hv, List.mem_singleton_self _, rfl, rfl, hbind, value, rfl⟩

/-- **The body is run last, and only after all other checkpoints.**  A call either stops with an
error before the body, or runs it once; then what it returns is what the body gave. -/
theorem Account.stopped_or_ran {out : Outcome (Except CallError Value)}
    (h : p.Account s nested a fields out journal) :
    ((∃ e, out.value = .error e) ∧ ∃ o, p.InputsAccount s nested a fields o journal) ∨
    ∃ fields' events earlier i, p.Admitted s nested a fields i.bound fields' events earlier ∧
      journal = earlier ++ [i] ∧ i.role = .body ∧ i.method = p.method ∧ i.Ran s nested ∧
      ∀ value, out.value = .ok value → i.outcome.value = .ok value ∧ (p.typed = true →
        checkReturn p.qualname p.method.signature value p.collectionCheck = .ok ()) := by
  cases h with
  | rejected hinputs => exact Or.inl ⟨⟨_, rfl⟩, _, hinputs⟩
  | unbound hinputs => exact Or.inl ⟨⟨_, rfl⟩, _, hinputs⟩
  | mistyped hinputs => exact Or.inl ⟨⟨_, rfl⟩, _, hinputs⟩
  | raised hadmitted hdone =>
    exact Or.inr ⟨_, _, _, _, hadmitted, rfl, rfl, rfl, hdone, fun _ hvalue => nomatch hvalue⟩
  | mistypedResult hadmitted hdone =>
    exact Or.inr ⟨_, _, _, _, hadmitted, rfl, rfl, rfl, hdone, fun _ hvalue => nomatch hvalue⟩
  | returned hadmitted hdone hresult =>
    refine Or.inr ⟨_, _, _, _, hadmitted, rfl, rfl, rfl, hdone, fun value hvalue => ?_⟩
    cases hvalue
    exact ⟨rfl, hresult⟩

end ValidatedMethod

/-! ## 2. Guarded calls -/

namespace Shape

/-- **What an account of a call of a marked name keeps to**, the name standing for `m`. -/
structure Guarded (s : Shape) (nested : Caller) (name : String) (m : Method) (a : Arguments)
    (out : Outcome (Except CallError Value)) (journal : List Invocation) : Prop where
  /-- The journal tells of bodies that were run. -/
  ran : ∀ i ∈ journal, i.Ran s nested
  /-- The body that the call runs is that of the method, on the caller's arguments. -/
  body : ∀ i ∈ journal, i.role = .body → i.method = m ∧ m.signature.bind a = .ok i.bound
  /-- Before the body, the validator that the class has for the name was run on the caller's
  arguments and accepted them. -/
  validated : s.MarkedAlong .prerun name → ∀ before i after, journal = before ++ i :: after →
    i.role = .body → ∃ v, s.HasMethod (validatorName name) v ∧
      ∃ j ∈ before, j.role = .validator ∧ j.method = v ∧ v.signature.bind a = .ok j.bound ∧
        ∃ value, j.outcome.value = .ok value
  /-- Every supplied argument that the body was handed has the type that its parameter declares. -/
  arguments : s.MarkedAlong .type name → ∀ i ∈ journal, i.role = .body →
    ∀ q ∈ m.signature.parameters, ∀ spec, q.declared = some spec →
      i.bound.isSupplied q.name = true → ∀ value, i.bound.find? q.name = some value →
        spec.check s.options.collectionCheck value = .ok ()
  /-- What the call returns has the type that the method declares. -/
  result : s.MarkedAlong .type name → ∀ value, out.value = .ok value →
    ∀ spec, m.signature.returns = some spec →
      spec.check s.options.collectionCheck value = .ok ()
  /-- A call that returns has run the body, and returns what the body gave. -/
  returned : ∀ value, out.value = .ok value →
    ∃ i ∈ journal, i.role = .body ∧ i.outcome.value = .ok value

section Proxies

variable {s : Shape} {nested : Caller} {name : String} {p : ValidatedMethod} {a : Arguments}
  {fields : Fields} {out : Outcome (Except CallError Value)} {journal : List Invocation}

/-- A call that stops before the body runs nothing that would have to be guarded. -/
theorem Guarded.of_stopped {m : Method} {o : Outcome (Except CallError Unit)} {e : CallError}
    (hinputs : p.InputsAccount s nested a fields o journal) (he : out.value = .error e) :
    s.Guarded nested name m a out journal where
  ran := fun _ hi => (hinputs.isValidator hi).2
  body := fun _ hi hrole => absurd hrole (hinputs.role_ne_body hi)
  validated := fun _ _ _ _ hcut hrole => absurd hrole (hinputs.role_ne_body (by simp [hcut]))
  arguments := fun _ _ hi hrole => absurd hrole (hinputs.role_ne_body hi)
  result := fun _ _ hvalue => nomatch he.symm.trans hvalue
  returned := fun _ hvalue => nomatch he.symm.trans hvalue

/-- **Calls through the proxy that a class should have are guarded.** -/
theorem IsProxy.guarded (hp : s.IsProxy name p)
    (hmarked : ∀ marker, name ∈ s.marked marker ↔ s.MarkedAlong marker name)
    (h : p.Account s nested a fields out journal) :
    s.Guarded nested name p.method a out journal := by
  have hprerun (hname : s.MarkedAlong .prerun name) : p.prerun = true :=
    hp.prerun.mpr ((hmarked .prerun).mpr hname)
  have htyped (hname : s.MarkedAlong .type name) : p.typed = true :=
    hp.typed.mpr ((hmarked .type).mpr hname)
  rcases h.stopped_or_ran with
    ⟨⟨e, he⟩, o, hinputs⟩ | ⟨fields', events, earlier, b, hadmitted, rfl, hb, hmethod, hran, hout⟩
  · exact .of_stopped hinputs he
  obtain ⟨⟨records, hinputs, -⟩, hbind, hcheck⟩ := hadmitted
  have honly {i : Invocation} (hi : i ∈ earlier ++ [b]) (hrole : i.role = .body) : i = b := by
    rcases List.mem_append.mp hi with hi | hi
    · exact absurd hrole (hinputs.role_ne_body hi)
    · exact List.mem_singleton.mp hi
  refine { ran := ?_, body := ?_, validated := ?_, arguments := ?_, result := ?_, returned := ?_ }
  · intro i hi
    rcases List.mem_append.mp hi with hi | hi
    · exact (hinputs.isValidator hi).2
    · exact List.mem_singleton.mp hi ▸ hran
  · intro i hi hrole
    exact honly hi hrole ▸ ⟨hmethod, hbind⟩
  · intro hname before i after hcut hrole
    obtain ⟨rfl, rfl⟩ := eq_of_append_singleton_eq (fun _ => hinputs.role_ne_body) hrole hcut
    obtain ⟨v, j, hv, hj, hjrole, hjmethod, hjbind, haccepted⟩ :=
      hinputs.exists_accepted (hprerun hname)
    obtain ⟨-, owner, hresolve, -⟩ := (hp.validator v).mp hv
    exact ⟨v.method, ⟨owner, hresolve⟩, j, hj, hjrole, hjmethod, hjbind, haccepted⟩
  · intro hname i hi hrole q hq spec hdeclared hsupplied value hvalue
    obtain rfl := honly hi hrole
    rw [← hp.collectionCheck]
    exact check_supplied_of_checkArguments hbind (hcheck (htyped hname)) hq hdeclared
      hsupplied hvalue
  · intro hname value hvalue
    rw [← hp.collectionCheck]
    exact checkReturn_eq_ok_iff.mp ((hout value hvalue).2 (htyped hname))
  · intro value hvalue
    exact ⟨b, by simp, hb, (hout value hvalue).1⟩

end Proxies

/-- **A call of a name is guarded** whose own calls have room to nest `depth` deep: there is an
account of what has come of it, and every account of that is guarded. -/
def Guards (s : Shape) (name : String) (m : Method) (depth : Nat) (a : Arguments) (fields : Fields)
    (out : Outcome (Except CallError Value)) : Prop :=
  (∃ journal, s.Account (s.callAt depth) name a fields out journal) ∧
    ∀ journal, s.Account (s.callAt depth) name a fields out journal →
      s.Guarded (s.callAt depth) name m a out journal

end Shape

/-! ## 3. An object of the diamond -/

namespace Diamond

open Session

/-- An object of the bottom class. -/
def object : Object := ⟨0, bottom, .empty, true⟩

/-- The session after the diamond has been built and the object constructed. -/
def session : Session := ⟨⟨4, 1, [bottom.id], .empty⟩, bottom :: sides, [object]⟩

theorem object_mem : object ∈ session.objects := List.mem_singleton_self _

/-- The mark comes from the side that has no area. -/
theorem area_marked : object.cls.MarkedAlong .prerun "area" :=
  ⟨marking.own, List.mem_of_getElem? (i := 2) rfl, _, rfl, rfl⟩

theorem bottom_passes : bottom.Passes := rfl

theorem exists_reaches_object : ∃ log, initial.Reaches log session :=
  exists_reaches_first_object history List.mem_cons_self rfl rfl bottom_passes

end Diamond

/-! ## 4. Calls on objects -/

theorem Class.Passes.sound {c : Class} (h : c.Passes) : Sound c.toShape :=
  Pipeline.sound_of_ensure h

namespace Session

/-- **What is marked along the lineage of an object's class has a proxy**: the class has passed its
check, so the name is a method. -/
theorem Valid.exists_validatedMethod? {S : Session} (h : S.Valid) {o : Object} (ho : o ∈ S.objects)
    {marker : Marker} {name : String} (hmarked : o.cls.MarkedAlong marker name) :
    ∃ p, o.cls.validatedMethod? name = some p ∧ o.cls.IsProxy name p := by
  obtain ⟨hcls, -, hpasses⟩ := h.objects o ho
  have hname : name ∈ o.cls.marked marker := (h.history.mem_marked_iff hcls).mpr hmarked
  have hgathered := Shape.gathered_of_mem_marked hname
  obtain ⟨m, hm⟩ := hpasses.sound.exists_hasMethod hgathered
  obtain ⟨p, hp⟩ := Shape.exists_isProxy hm
  exact ⟨p, (h.history.hasTable hcls).validatedMethod?_eq_some_iff.mpr ⟨hgathered, hp⟩, hp⟩

/-- **No override escapes validation.**  In every session that can be reached, every name that is
marked anywhere along the lineage of an object's class stands for a method, and every call of the
name on the object is guarded, and so is every call of it that a body makes, at any depth and
whatever the fields are then. -/
theorem Reaches.calls_guarded {S : Session} {log : List (Action × List Event)}
    (hrun : initial.Reaches log S) {o : Object} (ho : o ∈ S.objects) {marker : Marker}
    {name : String} (hmarked : o.cls.MarkedAlong marker name) :
    ∃ m, o.cls.HasMethod name m ∧
      (∀ a t, o.call name a = some t → o.cls.Guards name m (Shape.callDepth - 1) a o.fields
        ⟨t.value.1, t.value.2.fields, t.events⟩) ∧
      ∀ depth a fields out, o.cls.callAt (depth + 1) name a fields = some out →
        o.cls.Guards name m depth a fields out := by
  have hvalid := hrun.valid
  obtain ⟨p, hproxy, hp⟩ := hvalid.exists_validatedMethod? ho hmarked
  have hmarks : ∀ marker, name ∈ o.cls.marked marker ↔ o.cls.MarkedAlong marker name :=
    fun _ => hvalid.history.mem_marked_iff (hvalid.objects o ho).1
  have hcallAt {depth : Nat} {a : Arguments} {fields : Fields}
      {out : Outcome (Except CallError Value)}
      (hcall : o.cls.callAt (depth + 1) name a fields = some out) :
      o.cls.Guards name p.method depth a fields out := by
    refine ⟨Shape.callAt_succ_eq_some_iff.mp hcall, fun journal haccount => ?_⟩
    exact hp.guarded hmarks (haccount.of_validatedMethod? hproxy)
  refine ⟨p.method, hp.method, fun a t hcall => ?_, fun depth a fields out => hcallAt⟩
  obtain ⟨out, hout, rfl⟩ := Option.map_eq_some_iff.mp hcall
  exact hcallAt hout

/-- In the diamond, one base marks the area and the other one has it, unmarked. -/
theorem calls_guarded_bottom : ∃ log S, (initial.Reaches log S ∧ Diamond.object ∈ S.objects ∧
    Diamond.object.cls.MarkedAlong .prerun "area") ∧
    ∃ m, Diamond.object.cls.HasMethod "area" m ∧
      (∀ a t, Diamond.object.call "area" a = some t →
        Diamond.object.cls.Guards "area" m (Shape.callDepth - 1) a Diamond.object.fields
          ⟨t.value.1, t.value.2.fields, t.events⟩) ∧
      ∀ depth a fields out, Diamond.object.cls.callAt (depth + 1) "area" a fields = some out →
        Diamond.object.cls.Guards "area" m depth a fields out := by
  obtain ⟨log, hrun⟩ := Diamond.exists_reaches_object
  exact ⟨log, Diamond.session, ⟨hrun, Diamond.object_mem, Diamond.area_marked⟩,
    hrun.calls_guarded Diamond.object_mem Diamond.area_marked⟩

/-- Such a call runs through all checkpoints, each with its record. -/
example : (Diamond.object.call "area" (.ofValues [.integer 3])).map
    (fun t => (t.value.1, t.events.length)) = some (.ok (.integer 3), 4) := rfl

end Session

end MethodGuard
