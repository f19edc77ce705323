/-
# Accounts of calls

A call gives a result, the fields as it leaves them, and its records; which bodies were run on the
way, on what and in which order, can be told from none of these.  An ACCOUNT of a call tells it: it
relates the outcome to the journal of the bodies that the call itself ran, with one rule for each
way a call can end (`ValidatedMethod.Account`, `Shape.Account`).  A call has an outcome exactly
when there is an account of it (`ValidatedMethod.call_eq_some_iff`, `Shape.callWith_eq_some_iff`),
so what holds of all accounts holds of all calls.

Calls that a body makes are calls of their own; they are in the account of the call only through
what the body's run came to.
-/
import MethodGuard.Proofs.Call.Run
import MethodGuard.Proofs.Class.Dispatch

namespace MethodGuard

/-! ## 1. Journals -/

/-- What a call runs a body for. -/
inductive Role where
  | validator
  | body
  deriving DecidableEq

/-- One run of a body: what it was run for, on what, and what came of it. -/
structure Invocation where
  role : Role
  method : Method
  bound : BoundArguments
  before : Fields
  outcome : Outcome (Except MethodError Value)

/-- The run is one of that method on an object of the class. -/
def Invocation.Ran (i : Invocation) (s : Shape) (nested : Caller) : Prop :=
  i.method.invoke s nested i.bound i.before = some i.outcome

/-! ## 2. Calls through a proxy -/

namespace ValidatedMethod

section Accounts

variable (p : ValidatedMethod) (s : Shape) (nested : Caller) (a : Arguments) (fields : Fields)

/-- The record of a type check, which only methods marked for it have. -/
def typeRecord (event : Event) : List Event := if p.typed then [event] else []

/-- **What the first checkpoint comes to.** -/
inductive InputsAccount : Outcome (Except CallError Unit) → List Invocation → Prop where
  | unmarked : p.prerun = false → InputsAccount ⟨.ok (), fields, []⟩ []
  | missing : p.prerun = true → p.validator = none →
      InputsAccount ⟨.error (.structural (.missingValidator p.className
        (validatorName p.method.name) p.method.name)), fields, []⟩ []
  | unbound {v : Validator} {e : BindError} : p.prerun = true → p.validator = some v →
      v.method.signature.bind a = .error e →
      InputsAccount ⟨.error (.bind v.qualname e), fields, []⟩ []
  | rejected {v : Validator} {bound : BoundArguments} {e : MethodError} {fields' : Fields}
      {events : List Event} : p.prerun = true → p.validator = some v →
      v.method.signature.bind a = .ok bound →
      v.method.invoke s nested bound fields = some ⟨.error e, fields', events⟩ →
      InputsAccount ⟨.error (.raised e), fields', events⟩
        [⟨.validator, v.method, bound, fields, ⟨.error e, fields', events⟩⟩]
  | accepted {v : Validator} {bound : BoundArguments} {value : Value} {fields' : Fields}
      {events : List Event} : p.prerun = true → p.validator = some v →
      v.method.signature.bind a = .ok bound →
      v.method.invoke s nested bound fields = some ⟨.ok value, fields', events⟩ →
      InputsAccount ⟨.ok (), fields', events ++ [.inputsOk p.qualname v.qualname]⟩
        [⟨.validator, v.method, bound, fields, ⟨.ok value, fields', events⟩⟩]

/-- A call that has come through to the body: its bound arguments, and the fields, the records and
the journal so far. -/
structure Admitted (bound : BoundArguments) (fields' : Fields) (events : List Event)
    (journal : List Invocation) : Prop where
  inputs : ∃ earlier, p.InputsAccount s nested a fields ⟨.ok (), fields', earlier⟩ journal ∧
    events = .calling p.qualname :: (earlier ++ p.typeRecord (.argumentTypesOk p.qualname))
  binds : p.method.signature.bind a = .ok bound
  arguments : p.typed = true →
    checkArguments p.qualname p.method.signature bound p.collectionCheck = .ok ()

/-- **What a call through the proxy comes to**, by the checkpoint that decides it. -/
inductive Account : Outcome (Except CallError Value) → List Invocation → Prop where
  | rejected {e : CallError} {fields' : Fields} {events : List Event} {journal : List Invocation} :
      p.InputsAccount s nested a fields ⟨.error e, fields', events⟩ journal →
      Account ⟨.error e, fields', .calling p.qualname :: events⟩ journal
  | unbound {e : BindError} {fields' : Fields} {events : List Event} {journal : List Invocation} :
      p.InputsAccount s nested a fields ⟨.ok (), fields', events⟩ journal →
      p.method.signature.bind a = .error e →
      Account ⟨.error (.bind p.qualname e), fields', .calling p.qualname :: events⟩ journal
  | mistyped {bound : BoundArguments} {e : CallError} {fields' : Fields} {events : List Event}
      {journal : List Invocation} :
      p.InputsAccount s nested a fields ⟨.ok (), fields', events⟩ journal →
      p.method.signature.bind a = .ok bound → p.typed = true →
      checkArguments p.qualname p.method.signature bound p.collectionCheck = .error e →
      Account ⟨.error e, fields', .calling p.qualname :: events⟩ journal
  | raised {bound : BoundArguments} {e : MethodError} {fields' fields'' : Fields}
      {events more : List Event} {journal : List Invocation} :
      p.Admitted s nested a fields bound fields' events journal →
      p.method.invoke s nested bound fields' = some ⟨.error e, fields'', more⟩ →
      Account ⟨.error (.raised e), fields'', events ++ more⟩
        (journal ++ [⟨.body, p.method, bound, fields', ⟨.error e, fields'', more⟩⟩])
  | mistypedResult {bound : BoundArguments} {value : Value} {e : CallError}
      {fields' fields'' : Fields} {events more : List Event} {journal : List Invocation} :
      p.Admitted s nested a fields bound fields' events journal →
      p.method.invoke s nested bound fields' = some ⟨.ok value, fields'', more⟩ →
      p.typed = true →
      checkReturn p.qualname p.method.signature value p.collectionCheck = .error e →
      Account ⟨.error e, fields'', events ++ more⟩
        (journal ++ [⟨.body, p.method, bound, fields', ⟨.ok value, fields'', more⟩⟩])
  | returned {bound : BoundArguments} {value : Value} {fields' fields'' : Fields}
      {events more : List Event} {journal : List Invocation} :
      p.Admitted s nested a fields bound fields' events journal →
      p.method.invoke s nested bound fields' = some ⟨.ok value, fields'', more⟩ →
      (p.typed = true →
        checkReturn p.qualname p.method.signature value p.collectionCheck = .ok ()) →
      Account ⟨.ok value, fields'', events ++ (more ++ p.typeRecord (.returnTypeOk p.qualname))⟩
        (journal ++ [⟨.body, p.method, bound, fields', ⟨.ok value, fields'', more⟩⟩])

end Accounts

variable {p : ValidatedMethod} {s : Shape} {nested : Caller} {a : Arguments} {fields : Fields}

/-- Going on after a type check, unless it failed; its record comes in between. -/
theorem typeCheckpoint_andThen_eq_some_iff {α : Type u} {check : Except CallError Unit}
    {event : Event} {next : Unit → Run (Except CallError α)} {o : Outcome (Except CallError α)} :
    ((p.typeCheckpoint check event).andThen next) fields = some o ↔
      (∃ e, p.typed = true ∧ check = .error e ∧ o = ⟨.error e, fields, []⟩) ∨
      (p.typed = true → check = .ok ()) ∧ ∃ o', next () fields = some o' ∧
        o = ⟨o'.value, o'.fields, p.typeRecord event ++ o'.events⟩ := by
  rw [typeCheckpoint, typeRecord]
  cases p.typed with
  | false =>
    simp only [Bool.false_eq_true, if_false, Run.ofExcept_andThen_eq_some_iff]
    simp [Unique.exists_iff]
  | true =>
    cases check with
    | error e =>
      simp only [if_true, Run.andThen_eq_some_iff, Run.ofExcept, Run.pure_eq_some_iff]
      simp
    | ok _ =>
      simp only [if_true, Run.andThen_eq_some_iff, Run.ofExcept, Run.pure_eq_some_iff,
        Run.log_eq_some_iff]
      simp [Unique.exists_iff]

/-- The first checkpoint has an outcome exactly when there is an account of it. -/
theorem validateInputs_eq_some_iff {o : Outcome (Except CallError Unit)} :
    p.validateInputs s nested a fields = some o ↔
      ∃ journal, p.InputsAccount s nested a fields o journal := by
  unfold validateInputs
  constructor
  · intro h
    cases hprerun : p.prerun with
    | false =>
      simp only [hprerun, Bool.false_eq_true, if_false] at h
      obtain rfl := Run.pure_eq_some_iff.mp h
      exact ⟨[], .unmarked hprerun⟩
    | true =>
      simp only [hprerun, if_true] at h
      cases hv : p.validator with
      | none =>
        rw [hv] at h
        obtain rfl := Run.pure_eq_some_iff.mp h
        exact ⟨[], .missing hprerun hv⟩
      | some v =>
        simp only [hv] at h
        rw [Run.ofExcept_andThen_eq_some_iff] at h
        rcases h with ⟨e, hbind, rfl⟩ | ⟨bound, hbind, h⟩
        · obtain ⟨e', hbind', rfl⟩ := Method.bindAs_eq_error_iff.mp hbind
          exact ⟨[], .unbound hprerun hv hbind'⟩
        · have hbind' := Method.bindAs_eq_ok_iff.mp hbind
          rcases Method.perform_andThen_eq_some_iff.mp h with
            ⟨e, fields', events, hdone, rfl⟩ | ⟨value, fields', events, o', hdone, hlog, rfl⟩
          · exact ⟨_, .rejected hprerun hv hbind' hdone⟩
          · obtain rfl := Run.log_eq_some_iff.mp hlog
            exact ⟨_, .accepted hprerun hv hbind' hdone⟩
  · rintro ⟨journal, h⟩
    cases h with
    | unmarked hprerun =>
      rw [hprerun]
      rfl
    | missing hprerun hv =>
      rw [hprerun, hv]
      rfl
    | unbound hprerun hv hbind =>
      simp only [hprerun, if_true, hv, Run.ofExcept_andThen_eq_some_iff]
      exact Or.inl ⟨_, Method.bindAs_eq_error_iff.mpr ⟨_, hbind, rfl⟩, rfl⟩
    | rejected hprerun hv hbind hdone =>
      simp only [hprerun, if_true, hv, Run.ofExcept_andThen_eq_some_iff]
      exact Or.inr ⟨_, Method.bindAs_eq_ok_iff.mpr hbind,
        Method.perform_andThen_eq_some_iff.mpr (Or.inl ⟨_, _, _, hdone, rfl⟩)⟩
    | accepted hprerun hv hbind hdone =>
      simp only [hprerun, if_true, hv, Run.ofExcept_andThen_eq_some_iff]
      exact Or.inr ⟨_, Method.bindAs_eq_ok_iff.mpr hbind,
        Method.perform_andThen_eq_some_iff.mpr (Or.inr ⟨_, _, _, _, hdone, rfl, rfl⟩)⟩

/-- The last two checkpoints: the body, and the type of its result. -/
def runBody (p : ValidatedMethod) (s : Shape) (nested : Caller) (bound : BoundArguments) :
    Run (Except CallError Value) :=
  (p.method.perform s nested bound).andThen fun result =>
    (p.validateResult result).andThen fun _ => Run.pure (.ok result)

theorem runBody_eq_some_iff {bound : BoundArguments} {o : Outcome (Except CallError Value)} :
    p.runBody s nested bound fields = some o ↔
      (∃ e fields' more, p.method.invoke s nested bound fields = some ⟨.error e, fields', more⟩ ∧
        o = ⟨.error (.raised e), fields', more⟩) ∨
      (∃ value e fields' more,
        p.method.invoke s nested bound fields = some ⟨.ok value, fields', more⟩ ∧
        p.typed = true ∧
        checkReturn p.qualname p.method.signature value p.collectionCheck = .error e ∧
        o = ⟨.error e, fields', more⟩) ∨
      ∃ value fields' more,
        p.method.invoke s nested bound fields = some ⟨.ok value, fields', more⟩ ∧
        (p.typed = true →
          checkReturn p.qualname p.method.signature value p.collectionCheck = .ok ()) ∧
        o = ⟨.ok value, fields', more ++ p.typeRecord (.returnTypeOk p.qualname)⟩ := by
  simp only [runBody, Method.perform_andThen_eq_some_iff, validateResult,
    typeCheckpoint_andThen_eq_some_iff, Run.pure_eq_some_iff]
  constructor
  · rintro (⟨e, fields', more, hdone, rfl⟩ | ⟨value, fields', more, o', hdone,
      ⟨e, htyped, hcheck, rfl⟩ | ⟨hcheck, o'', rfl, rfl⟩, rfl⟩)
    · exact Or.inl ⟨e, fields', more, hdone, rfl⟩
    · exact Or.inr (Or.inl ⟨value, e, fields', more, hdone, htyped, hcheck, by simp⟩)
    · exact Or.inr (Or.inr ⟨value, fields', more, hdone, hcheck, by simp⟩)
  · rintro (⟨e, fields', more, hdone, rfl⟩ | ⟨value, e, fields', more, hdone, htyped, hcheck, rfl⟩ |
      ⟨value, fields', more, hdone, hcheck, rfl⟩)
    · exact Or.inl ⟨e, fields', more, hdone, rfl⟩
    · exact Or.inr ⟨value, fields', more, _, hdone, Or.inl ⟨e, htyped, hcheck, rfl⟩, by simp⟩
    · exact Or.inr ⟨value, fields', more, _, hdone, Or.inr ⟨hcheck, _, rfl, rfl⟩, by simp⟩

/-- The checkpoints after the first one. -/
def afterInputs (p : ValidatedMethod) (s : Shape) (nested : Caller) (a : Arguments) :
    Run (Except CallError Value) :=
  (Run.ofExcept (p.method.bindAs p.qualname a)).andThen fun bound =>
    (p.validateArguments bound).andThen fun _ => p.runBody s nested bound

theorem call_eq_some_iff_checkpoints {out : Outcome (Except CallError Value)} :
    p.call s nested a fields = some out ↔ ∃ o,
      ((p.validateInputs s nested a).andThen fun _ => p.afterInputs s nested a) fields = some o ∧
        out = ⟨o.value, o.fields, .calling p.qualname :: o.events⟩ := by
  have hcall : p.call s nested a = (Run.log (.calling p.qualname) ()).bind fun _ =>
      (p.validateInputs s nested a).andThen fun _ => p.afterInputs s nested a := rfl
  rw [hcall, Run.bind_eq_some_iff]
  constructor
  · rintro ⟨_, o, ⟨⟩, h, rfl⟩
    exact ⟨o, h, rfl⟩
  · rintro ⟨o, h, rfl⟩
    exact ⟨_, o, rfl, h, rfl⟩

/-- What is left of a call once the validator has accepted. -/
theorem call_eq_some_of_inputs {fields' : Fields} {events : List Event} {journal : List Invocation}
    {o : Outcome (Except CallError Value)}
    (hinputs : p.InputsAccount s nested a fields ⟨.ok (), fields', events⟩ journal)
    (hrest : p.afterInputs s nested a fields' = some o) : p.call s nested a fields =
      some ⟨o.value, o.fields, .calling p.qualname :: (events ++ o.events)⟩ :=
  call_eq_some_iff_checkpoints.mpr ⟨_, Run.andThen_eq_some_iff.mpr (Or.inr
    ⟨(), fields', events, o, validateInputs_eq_some_iff.mpr ⟨journal, hinputs⟩, hrest, rfl⟩), rfl⟩

/-- What is left of a call once it has come through to the body. -/
theorem call_eq_some_of_admitted {bound : BoundArguments} {fields' : Fields} {events : List Event}
    {journal : List Invocation} {o : Outcome (Except CallError Value)}
    (h : p.Admitted s nested a fields bound fields' events journal)
    (hrest : p.runBody s nested bound fields' = some o) :
    p.call s nested a fields = some ⟨o.value, o.fields, events ++ o.events⟩ := by
  obtain ⟨⟨earlier, hinputs, rfl⟩, hbind, hcheck⟩ := h
  have hbound : p.method.bindAs p.qualname a = .ok bound := Method.bindAs_eq_ok_iff.mpr hbind
  rw [call_eq_some_of_inputs hinputs (Run.ofExcept_andThen_eq_some_iff.mpr (Or.inr
    ⟨bound, hbound, typeCheckpoint_andThen_eq_some_iff.mpr (Or.inr ⟨hcheck, o, hrest, rfl⟩)⟩))]
  simp

/-- Every call through a proxy has an account. -/
theorem exists_account_of_call {out : Outcome (Except CallError Value)}
    (hcall : p.call s nested a fields = some out) :
    ∃ journal, p.Account s nested a fields out journal := by
  obtain ⟨o, hcheckpoints, rfl⟩ := call_eq_some_iff_checkpoints.mp hcall
  rcases Run.andThen_eq_some_iff.mp hcheckpoints with
    ⟨e, fields', earlier, hinputs, rfl⟩ | ⟨_, fields', earlier, o, hinputs, hafter, rfl⟩
  · obtain ⟨journal, hinputs⟩ := validateInputs_eq_some_iff.mp hinputs
    exact ⟨journal, .rejected hinputs⟩
  obtain ⟨journal, hinputs⟩ := validateInputs_eq_some_iff.mp hinputs
  rcases Run.ofExcept_andThen_eq_some_iff.mp hafter with
    ⟨e, hbind, rfl⟩ | ⟨bound, hbind, hrest⟩
  · obtain ⟨e', hbind', rfl⟩ := Method.bindAs_eq_error_iff.mp hbind
    rw [List.append_nil]
    exact ⟨journal, .unbound hinputs hbind'⟩
  have hbind' := Method.bindAs_eq_ok_iff.mp hbind
  rcases typeCheckpoint_andThen_eq_some_iff.mp hrest with
    ⟨e, htyped, hcheck, rfl⟩ | ⟨hcheck, o, hbody, rfl⟩
  · rw [List.append_nil]
    exact ⟨journal, .mistyped hinputs hbind' htyped hcheck⟩
  have hadmitted : p.Admitted s nested a fields bound fields' _ journal :=
    ⟨⟨earlier, hinputs, rfl⟩, hbind', hcheck⟩
  have hevents : .calling p.qualname ::
      (earlier ++ (p.typeRecord (.argumentTypesOk p.qualname) ++ o.events)) =
      .calling p.qualname :: (earlier ++ p.typeRecord (.argumentTypesOk p.qualname)) ++
        o.events := by simp
  rw [hevents]
  rcases runBody_eq_some_iff.mp hbody with
    ⟨e, fields'', more, hdone, rfl⟩ | ⟨value, e, fields'', more, hdone, htyped, hresult, rfl⟩ |
    ⟨value, fields'', more, hdone, hresult, rfl⟩
  · exact ⟨_, .raised hadmitted hdone⟩
  · exact ⟨_, .mistypedResult hadmitted hdone htyped hresult⟩
  · exact ⟨_, .returned hadmitted hdone hresult⟩

/-- Every account is one of a call that takes place. -/
theorem Account.call_eq_some {out : Outcome (Except CallError Value)} {journal : List Invocation}
    (h : p.Account s nested a fields out journal) : p.call s nested a fields = some out := by
  cases h with
  | rejected hinputs =>
    exact call_eq_some_iff_checkpoints.mpr ⟨_, Run.andThen_eq_some_iff.mpr (Or.inl
      ⟨_, _, _, validateInputs_eq_some_iff.mpr ⟨journal, hinputs⟩, rfl⟩), rfl⟩
  | unbound hinputs hbind =>
    rw [call_eq_some_of_inputs hinputs (Run.ofExcept_andThen_eq_some_iff.mpr (Or.inl
      ⟨_, Method.bindAs_eq_error_iff.mpr ⟨_, hbind, rfl⟩, rfl⟩)), List.append_nil]
  | mistyped hinputs hbind htyped hcheck =>
    rw [call_eq_some_of_inputs hinputs (Run.ofExcept_andThen_eq_some_iff.mpr (Or.inr
      ⟨_, Method.bindAs_eq_ok_iff.mpr hbind, typeCheckpoint_andThen_eq_some_iff.mpr
        (Or.inl ⟨_, htyped, hcheck, rfl⟩)⟩)), List.append_nil]
  | raised hadmitted hdone =>
    exact call_eq_some_of_admitted hadmitted
      (runBody_eq_some_iff.mpr (Or.inl ⟨_, _, _, hdone, rfl⟩))
  | mistypedResult hadmitted hdone htyped hresult =>
    exact call_eq_some_of_admitted hadmitted
      (runBody_eq_some_iff.mpr (Or.inr (Or.inl ⟨_, _, _, _, hdone, htyped, hresult, rfl⟩)))
  | returned hadmitted hdone hresult =>
    exact call_eq_some_of_admitted hadmitted
      (runBody_eq_some_iff.mpr (Or.inr (Or.inr ⟨_, _, _, hdone, hresult, rfl⟩)))

/-- **A call through a proxy has an outcome exactly when there is an account of it.** -/
theorem call_eq_some_iff {out : Outcome (Except CallError Value)} :
    p.call s nested a fields = some out ↔
      ∃ journal, p.Account s nested a fields out journal :=
  ⟨exists_account_of_call, fun ⟨_, h⟩ => h.call_eq_some⟩

end ValidatedMethod

/-! ## 3. Calls by name -/

namespace Shape

/-- **What a call of a name comes to**: through the proxy if the name has one, and by what the name
stands for if not. -/
inductive Account (s : Shape) (nested : Caller) (name : String) (a : Arguments) (fields : Fields) :
    Outcome (Except CallError Value) → List Invocation → Prop where
  | validated {p : ValidatedMethod} {out : Outcome (Except CallError Value)}
      {journal : List Invocation} : s.validatedMethod? name = some p →
      p.Account s nested a fields out journal → Account s nested name a fields out journal
  | unbound {m : Method} {e : BindError} : s.validatedMethod? name = none → s.HasMethod name m →
      m.signature.bind a = .error e →
      Account s nested name a fields ⟨.error (.bind (s.qualname name) e), fields, []⟩ []
  | ran {m : Method} {bound : BoundArguments} {done : Outcome (Except MethodError Value)} :
      s.validatedMethod? name = none → s.HasMethod name m → m.signature.bind a = .ok bound →
      m.invoke s nested bound fields = some done →
      Account s nested name a fields ⟨done.value.mapError .raised, done.fields, done.events⟩
        [⟨.body, m, bound, fields, done⟩]
  | isAbstract {m : AbstractMethod} : s.validatedMethod? name = none →
      s.member? name = some (.abstract m) →
      Account s nested name a fields ⟨.error (.raised (.notImplemented
        ("'" ++ s.qualname name ++ "' is abstract"))), fields, []⟩ []
  | isAttribute {value : Value} : s.validatedMethod? name = none →
      s.member? name = some (.attribute value) →
      Account s nested name a fields ⟨.error (.notCallable s.name name), fields, []⟩ []
  | unknown : s.validatedMethod? name = none → s.member? name = none →
      Account s nested name a fields ⟨.error (.unknownMethod s.name name), fields, []⟩ []

variable {s : Shape} {nested : Caller} {name : String} {a : Arguments} {fields : Fields}
  {out : Outcome (Except CallError Value)}

theorem exists_account_of_callUnmarked (hp : s.validatedMethod? name = none)
    (hcall : s.callUnmarked nested name a fields = some out) :
    ∃ journal, s.Account nested name a fields out journal := by
  unfold callUnmarked at hcall
  rcases hmember : s.member? name with _ | m | m | value
  · rw [hmember] at hcall
    obtain rfl := Run.pure_eq_some_iff.mp hcall
    exact ⟨[], .unknown hp hmember⟩
  · simp only [hmember] at hcall
    have hmethod : s.HasMethod name m := hasMethod_iff.mpr hmember
    rcases Run.ofExcept_andThen_eq_some_iff.mp hcall with
      ⟨e, hbind, rfl⟩ | ⟨bound, hbind, hperform⟩
    · obtain ⟨e', hbind', rfl⟩ := Method.bindAs_eq_error_iff.mp hbind
      exact ⟨[], .unbound hp hmethod hbind'⟩
    · obtain ⟨done, hdone, rfl⟩ := Method.perform_eq_some_iff.mp hperform
      exact ⟨_, .ran hp hmethod (Method.bindAs_eq_ok_iff.mp hbind) hdone⟩
  · rw [hmember] at hcall
    obtain rfl := Run.pure_eq_some_iff.mp hcall
    exact ⟨[], .isAbstract hp hmember⟩
  · rw [hmember] at hcall
    obtain rfl := Run.pure_eq_some_iff.mp hcall
    exact ⟨[], .isAttribute hp hmember⟩

theorem Account.callWith_eq_some {journal : List Invocation}
    (h : s.Account nested name a fields out journal) :
    s.callWith nested name a fields = some out := by
  cases h with
  | validated hp haccount =>
    rw [callWith, hp]
    exact haccount.call_eq_some
  | unbound hp hmethod hbind =>
    rw [callWith, hp, callUnmarked, hasMethod_iff.mp hmethod]
    exact Run.ofExcept_andThen_eq_some_iff.mpr
      (Or.inl ⟨_, Method.bindAs_eq_error_iff.mpr ⟨_, hbind, rfl⟩, rfl⟩)
  | ran hp hmethod hbind hdone =>
    rw [callWith, hp, callUnmarked, hasMethod_iff.mp hmethod]
    exact Run.ofExcept_andThen_eq_some_iff.mpr (Or.inr
      ⟨_, Method.bindAs_eq_ok_iff.mpr hbind, Method.perform_eq_some_iff.mpr ⟨_, hdone, rfl⟩⟩)
  | isAbstract hp hmember =>
    rw [callWith, hp, callUnmarked, hmember]
    rfl
  | isAttribute hp hmember =>
    rw [callWith, hp, callUnmarked, hmember]
    rfl
  | unknown hp hmember =>
    rw [callWith, hp, callUnmarked, hmember]
    rfl

/-- The account of a call of a name with a proxy is one of a call through the proxy. -/
theorem Account.of_validatedMethod? {journal : List Invocation} {p : ValidatedMethod}
    (h : s.Account nested name a fields out journal) (hp : s.validatedMethod? name = some p) :
    p.Account s nested a fields out journal := by
  cases h with
  | validated hp' haccount =>
    cases hp.symm.trans hp'
    exact haccount
  | unbound hnone => cases hp.symm.trans hnone
  | ran hnone => cases hp.symm.trans hnone
  | isAbstract hnone => cases hp.symm.trans hnone
  | isAttribute hnone => cases hp.symm.trans hnone
  | unknown hnone => cases hp.symm.trans hnone

/-- **A call by name has an outcome exactly when there is an account of it.** -/
theorem callWith_eq_some_iff : s.callWith nested name a fields = some out ↔
    ∃ journal, s.Account nested name a fields out journal := by
  refine ⟨fun hcall => ?_, fun ⟨_, h⟩ => h.callWith_eq_some⟩
  cases hp : s.validatedMethod? name with
  | none =>
    rw [callWith, hp] at hcall
    exact exists_account_of_callUnmarked hp hcall
  | some p =>
    rw [callWith, hp] at hcall
    obtain ⟨journal, haccount⟩ := ValidatedMethod.call_eq_some_iff.mp hcall
    exact ⟨journal, .validated hp haccount⟩

/-- The calls that a body makes have one level less room. -/
theorem callAt_succ_eq_some_iff {depth : Nat} : s.callAt (depth + 1) name a fields = some out ↔
    ∃ journal, s.Account (s.callAt depth) name a fields out journal :=
  callWith_eq_some_iff

end Shape

end MethodGuard
