/-
# The way of a call through its checkpoints

A call through a proxy has six places where it can fail: the arguments bind to the validator, the
validator accepts them, they bind to the method, they have the declared types, the body runs, and
its result has the declared type.  `Answers` says of each of these checkpoints by itself when it
is passed, what it reports when it is not, and what it does on the way; `Course` goes through any
list of checkpoints and stops at the first that is not passed.

* `call_eq_some_iff_course`: a call has an outcome exactly when there is a course through all
  checkpoints in order that gives it.  The argument goes through the run from its end: the last two
  checkpoints, then the last four, then all six, each time as `Follows`.
* `Course.lawful`: what every course keeps to.  Each part of `Lawful` is a step lemma about one
  checkpoint (`Answers.ran_or_kept`, `Answers.records`) and an induction over the checkpoints.
-/
import MethodGuard.Proofs.Call.Account

namespace MethodGuard

/-! ## 1. Checkpoints -/

/-- What a call through a proxy has to pass. -/
inductive Checkpoint where
  | validatorBind
  | validator
  | methodBind
  | argumentTypes
  | body
  | returnType
  deriving DecidableEq

namespace Checkpoint

/-- All checkpoints, in the order a call comes to them. -/
def order : List Checkpoint :=
  [.validatorBind, .validator, .methodBind, .argumentTypes, .body, .returnType]

/-- What a checkpoint runs a body for, if it runs one. -/
def role? : Checkpoint → Option Role
  | .validator => some .validator
  | .body => some .body
  | _ => none

end Checkpoint

/-- What a proxy does on the way: it runs a body, or writes a record of its own. -/
inductive Deed where
  | ran (i : Invocation)
  | wrote (event : Event)

namespace Deed

/-- The run of a body. -/
def invocation? : Deed → Option Invocation
  | .ran i => some i
  | .wrote _ => none

/-- The proxy's own record. -/
def record? : Deed → Option Event
  | .ran _ => none
  | .wrote event => some event

/-- All records that come of the deed, those of a body included. -/
def events : Deed → List Event
  | .ran i => i.outcome.events
  | .wrote event => [event]

end Deed

/-- Where a call stands between two checkpoints. -/
structure Standing where
  /-- The fields of the object, as they are now. -/
  fields : Fields
  /-- What the proxy has done so far, in order. -/
  deeds : List Deed
  /-- What the body has given. -/
  result : Option Value

namespace Standing

/-- The bodies that were run, in order. -/
def journal (st : Standing) : List Invocation := st.deeds.filterMap Deed.invocation?

/-- The records that the proxy itself wrote. -/
def records (st : Standing) : List Event := st.deeds.filterMap Deed.record?

/-- All records, in the order they were written. -/
def events (st : Standing) : List Event := st.deeds.flatMap Deed.events

/-- The standing after the run of a body. -/
def ran (st : Standing) (i : Invocation) : Standing :=
  { st with fields := i.outcome.fields, deeds := st.deeds ++ [.ran i] }

/-- The standing after a record. -/
def wrote (st : Standing) (event : Event) : Standing :=
  { st with deeds := st.deeds ++ [.wrote event] }

/-- The standing after the body has given a value. -/
def gave (st : Standing) (value : Value) : Standing := { st with result := some value }

variable {st : Standing} {i : Invocation} {event : Event} {value : Value}

@[simp] theorem fields_ran : (st.ran i).fields = i.outcome.fields := rfl
@[simp] theorem fields_wrote : (st.wrote event).fields = st.fields := rfl
@[simp] theorem fields_gave : (st.gave value).fields = st.fields := rfl
@[simp] theorem result_ran : (st.ran i).result = st.result := rfl
@[simp] theorem result_wrote : (st.wrote event).result = st.result := rfl
@[simp] theorem result_gave : (st.gave value).result = some value := rfl
@[simp] theorem journal_gave : (st.gave value).journal = st.journal := rfl
@[simp] theorem records_gave : (st.gave value).records = st.records := rfl
@[simp] theorem events_gave : (st.gave value).events = st.events := rfl

@[simp] theorem journal_ran : (st.ran i).journal = st.journal ++ [i] := by
  simp [journal, ran, Deed.invocation?]

@[simp] theorem journal_wrote : (st.wrote event).journal = st.journal := by
  simp [journal, wrote, Deed.invocation?]

@[simp] theorem records_ran : (st.ran i).records = st.records := by
  simp [records, ran, Deed.record?]

@[simp] theorem records_wrote : (st.wrote event).records = st.records ++ [event] := by
  simp [records, wrote, Deed.record?]

@[simp] theorem events_ran : (st.ran i).events = st.events ++ i.outcome.events := by
  simp [events, ran, Deed.events]

@[simp] theorem events_wrote : (st.wrote event).events = st.events ++ [event] := by
  simp [events, wrote, Deed.events]

/-- What the caller gets of a call that has come to an end in this standing. -/
inductive Gives (st : Standing) : Except CallError Unit → Outcome (Except CallError Value) → Prop
  where
  | failed {e : CallError} : Gives st (.error e) ⟨.error e, st.fields, st.events⟩
  | returned {value : Value} : st.result = some value →
      Gives st (.ok ()) ⟨.ok value, st.fields, st.events⟩

theorem gives_error_iff {e : CallError} {o : Outcome (Except CallError Value)} :
    st.Gives (.error e) o ↔ o = ⟨.error e, st.fields, st.events⟩ := by
  constructor
  · intro h
    cases h
    rfl
  · rintro rfl
    exact .failed

theorem gives_ok_iff {o : Outcome (Except CallError Value)} : st.Gives (.ok ()) o ↔
    ∃ value, st.result = some value ∧ o = ⟨.ok value, st.fields, st.events⟩ := by
  constructor
  · intro h
    cases h with
    | returned hresult => exact ⟨_, hresult, rfl⟩
  · rintro ⟨value, hresult, rfl⟩
    exact .returned hresult

end Standing

namespace ValidatedMethod

section Courses

variable (p : ValidatedMethod) (s : Shape) (nested : Caller) (a : Arguments)

/-- Whether calls through the proxy have to pass the checkpoint. -/
def asks : Checkpoint → Bool
  | .validatorBind => p.prerun
  | .validator => p.prerun
  | .argumentTypes => p.typed
  | .returnType => p.typed
  | .methodBind => true
  | .body => true

/-- **What each checkpoint answers**, and the standing it leaves. -/
inductive Answers : Checkpoint → Standing → Except CallError Unit → Standing → Prop where
  | exempt {k : Checkpoint} {st : Standing} : p.asks k = false → Answers k st (.ok ()) st
  | validatorUnbound {v : Validator} {e : BindError} {st : Standing} : p.prerun = true →
      p.validator = some v → v.method.signature.bind a = .error e →
      Answers .validatorBind st (.error (.bind v.qualname e)) st
  | validatorBound {v : Validator} {bound : BoundArguments} {st : Standing} : p.prerun = true →
      p.validator = some v → v.method.signature.bind a = .ok bound →
      Answers .validatorBind st (.ok ()) st
  | rejected {v : Validator} {bound : BoundArguments} {e : MethodError} {fields : Fields}
      {events : List Event} {st : Standing} : p.prerun = true → p.validator = some v →
      v.method.signature.bind a = .ok bound →
      v.method.invoke s nested bound st.fields = some ⟨.error e, fields, events⟩ →
      Answers .validator st (.error (.raised e))
        (st.ran ⟨.validator, v.method, bound, st.fields, ⟨.error e, fields, events⟩⟩)
  | accepted {v : Validator} {bound : BoundArguments} {value : Value} {fields : Fields}
      {events : List Event} {st : Standing} : p.prerun = true → p.validator = some v →
      v.method.signature.bind a = .ok bound →
      v.method.invoke s nested bound st.fields = some ⟨.ok value, fields, events⟩ →
      Answers .validator st (.ok ())
        ((st.ran ⟨.validator, v.method, bound, st.fields, ⟨.ok value, fields, events⟩⟩).wrote
          (.inputsOk p.qualname v.qualname))
  | unbound {e : BindError} {st : Standing} : p.method.signature.bind a = .error e →
      Answers .methodBind st (.error (.bind p.qualname e)) st
  | bound {bound : BoundArguments} {st : Standing} : p.method.signature.bind a = .ok bound →
      Answers .methodBind st (.ok ()) st
  | mistyped {bound : BoundArguments} {e : CallError} {st : Standing} : p.typed = true →
      p.method.signature.bind a = .ok bound →
      checkArguments p.qualname p.method.signature bound p.collectionCheck = .error e →
      Answers .argumentTypes st (.error e) st
  | welltyped {bound : BoundArguments} {st : Standing} : p.typed = true →
      p.method.signature.bind a = .ok bound →
      checkArguments p.qualname p.method.signature bound p.collectionCheck = .ok () →
      Answers .argumentTypes st (.ok ()) (st.wrote (.argumentTypesOk p.qualname))
  | raised {bound : BoundArguments} {e : MethodError} {fields : Fields} {events : List Event}
      {st : Standing} : p.method.signature.bind a = .ok bound →
      p.method.invoke s nested bound st.fields = some ⟨.error e, fields, events⟩ →
      Answers .body st (.error (.raised e))
        (st.ran ⟨.body, p.method, bound, st.fields, ⟨.error e, fields, events⟩⟩)
  | returned {bound : BoundArguments} {value : Value} {fields : Fields} {events : List Event}
      {st : Standing} : p.method.signature.bind a = .ok bound →
      p.method.invoke s nested bound st.fields = some ⟨.ok value, fields, events⟩ →
      Answers .body st (.ok ())
        ((st.ran ⟨.body, p.method, bound, st.fields, ⟨.ok value, fields, events⟩⟩).gave value)
  | mistypedResult {value : Value} {e : CallError} {st : Standing} : p.typed = true →
      st.result = some value →
      checkReturn p.qualname p.method.signature value p.collectionCheck = .error e →
      Answers .returnType st (.error e) st
  | welltypedResult {value : Value} {st : Standing} : p.typed = true → st.result = some value →
      checkReturn p.qualname p.method.signature value p.collectionCheck = .ok () →
      Answers .returnType st (.ok ()) (st.wrote (.returnTypeOk p.qualname))

/-- **A way through checkpoints**: each in turn until one is not passed, whose answer decides. -/
inductive Course : List Checkpoint → Standing → Except CallError Unit → Standing → Prop where
  | passed {st : Standing} : Course [] st (.ok ()) st
  | stopped {k : Checkpoint} {rest : List Checkpoint} {e : CallError} {st st' : Standing} :
      p.Answers s nested a k st (.error e) st' → Course (k :: rest) st (.error e) st'
  | onward {k : Checkpoint} {rest : List Checkpoint} {answer : Except CallError Unit}
      {st st' st'' : Standing} : p.Answers s nested a k st (.ok ()) st' →
      Course rest st' answer st'' → Course (k :: rest) st answer st''

/-- Where a call stands before the first checkpoint. -/
def start (fields : Fields) : Standing := ⟨fields, [.wrote (.calling p.qualname)], none⟩

/-- A run, begun in a standing, comes to what the checkpoints say. -/
def Follows (run : Run (Except CallError Value)) (checkpoints : List Checkpoint) (st : Standing) :
    Prop :=
  ∀ out, (∃ o, run st.fields = some o ∧ out = ⟨o.value, o.fields, st.events ++ o.events⟩) ↔
    ∃ answer st', p.Course s nested a checkpoints st answer st' ∧ st'.Gives answer out

end Courses

variable {p : ValidatedMethod} {s : Shape} {nested : Caller} {a : Arguments} {fields : Fields}
  {k : Checkpoint} {checkpoints : List Checkpoint} {answer : Except CallError Unit}
  {st st' : Standing}

@[simp] theorem fields_start : (p.start fields).fields = fields := rfl
@[simp] theorem events_start : (p.start fields).events = [.calling p.qualname] := rfl
@[simp] theorem records_start : (p.start fields).records = [.calling p.qualname] := rfl
@[simp] theorem journal_start : (p.start fields).journal = [] := rfl
@[simp] theorem result_start : (p.start fields).result = none := rfl

/-! ## 2. Calls follow the checkpoints -/

theorem course_cons_iff {rest : List Checkpoint} : p.Course s nested a (k :: rest) st answer st' ↔
    (∃ e, answer = .error e ∧ p.Answers s nested a k st (.error e) st') ∨
      ∃ mid, p.Answers s nested a k st (.ok ()) mid ∧ p.Course s nested a rest mid answer st' := by
  constructor
  · intro h
    cases h with
    | stopped hk => exact Or.inl ⟨_, rfl, hk⟩
    | onward hk hrest => exact Or.inr ⟨_, hk, hrest⟩
  · rintro (⟨e, rfl, hk⟩ | ⟨mid, hk, hrest⟩)
    · exact .stopped hk
    · exact .onward hk hrest

theorem course_nil_iff : p.Course s nested a [] st answer st' ↔ answer = .ok () ∧ st' = st := by
  constructor
  · intro h
    cases h
    exact ⟨rfl, rfl⟩
  · rintro ⟨rfl, rfl⟩
    exact .passed

/-- The last two checkpoints. -/
theorem runBody_follows {bound : BoundArguments} (hbind : p.method.signature.bind a = .ok bound)
    (st : Standing) :
    p.Follows s nested a (p.runBody s nested bound) [.body, .returnType] st := by
  intro out
  simp only [runBody_eq_some_iff]
  constructor
  · rintro ⟨o, ⟨e, fields', more, hdone, rfl⟩ |
      ⟨value, e, fields', more, hdone, htyped, hcheck, rfl⟩ |
      ⟨value, fields', more, hdone, hcheck, rfl⟩, rfl⟩
    · exact ⟨_, _, .stopped (.raised hbind hdone), by simp [Standing.gives_error_iff]⟩
    · exact ⟨_, _, .onward (.returned hbind hdone) (.stopped (.mistypedResult htyped rfl hcheck)),
        by simp [Standing.gives_error_iff]⟩
    · cases htyped : p.typed with
      | false =>
        exact ⟨_, _, .onward (.returned hbind hdone) (.onward (.exempt htyped) .passed),
          by simp [Standing.gives_ok_iff, typeRecord, htyped]⟩
      | true =>
        exact ⟨_, _, .onward (.returned hbind hdone)
          (.onward (.welltypedResult htyped rfl (hcheck htyped)) .passed),
          by simp [Standing.gives_ok_iff, typeRecord, htyped]⟩
  · rintro ⟨answer, st', hcourse, hgives⟩
    rcases course_cons_iff.mp hcourse with ⟨e, rfl, hbody⟩ | ⟨mid, hbody, hrest⟩
    · obtain rfl := Standing.gives_error_iff.mp hgives
      cases hbody with
      | raised hbind' hdone =>
        cases hbind.symm.trans hbind'
        exact ⟨_, Or.inl ⟨_, _, _, hdone, rfl⟩, by simp⟩
    cases hbody with
    | exempt hexempt => cases hexempt
    | returned hbind' hdone =>
      cases hbind.symm.trans hbind'
      rcases course_cons_iff.mp hrest with ⟨e, rfl, hreturn⟩ | ⟨last, hreturn, hpassed⟩
      · obtain rfl := Standing.gives_error_iff.mp hgives
        cases hreturn with
        | mistypedResult htyped hresult hcheck =>
          cases hresult
          exact ⟨_, Or.inr (Or.inl ⟨_, _, _, _, hdone, htyped, hcheck, rfl⟩), by simp⟩
      obtain ⟨rfl, rfl⟩ := course_nil_iff.mp hpassed
      obtain ⟨value, hvalue, rfl⟩ := Standing.gives_ok_iff.mp hgives
      cases hreturn with
      | exempt hexempt =>
        have htyped : p.typed = false := hexempt
        cases hvalue
        exact ⟨_, Or.inr (Or.inr ⟨_, _, _, hdone, by simp [htyped], rfl⟩),
          by simp [typeRecord, htyped]⟩
      | welltypedResult htyped hresult hcheck =>
        cases hvalue
        cases hresult
        exact ⟨_, Or.inr (Or.inr ⟨_, _, _, hdone, fun _ => hcheck, rfl⟩),
          by simp [typeRecord, htyped]⟩

/-- The last four checkpoints. -/
theorem afterInputs_follows (st : Standing) : p.Follows s nested a (p.afterInputs s nested a)
    [.methodBind, .argumentTypes, .body, .returnType] st := by
  intro out
  simp only [afterInputs, Run.ofExcept_andThen_eq_some_iff, Method.bindAs_eq_error_iff,
    Method.bindAs_eq_ok_iff, validateArguments, typeCheckpoint_andThen_eq_some_iff]
  constructor
  · rintro ⟨o, ⟨-, ⟨e, hbind, rfl⟩, rfl⟩ | ⟨bound, hbind, ⟨e, htyped, hcheck, rfl⟩ |
      ⟨hcheck, o', hbody, rfl⟩⟩, rfl⟩
    · exact ⟨_, _, .stopped (.unbound hbind), by simp [Standing.gives_error_iff]⟩
    · exact ⟨_, _, .onward (.bound hbind) (.stopped (.mistyped htyped hbind hcheck)),
        by simp [Standing.gives_error_iff]⟩
    · cases htyped : p.typed with
      | false =>
        obtain ⟨answer, st', hcourse, hgives⟩ := (runBody_follows hbind st _).mp ⟨o', hbody, rfl⟩
        exact ⟨_, _, .onward (.bound hbind) (.onward (.exempt htyped) hcourse),
          by simpa [typeRecord, htyped] using hgives⟩
      | true =>
        obtain ⟨answer, st', hcourse, hgives⟩ := (runBody_follows hbind
          (st.wrote (.argumentTypesOk p.qualname)) _).mp ⟨o', hbody, rfl⟩
        exact ⟨_, _, .onward (.bound hbind)
          (.onward (.welltyped htyped hbind (hcheck htyped)) hcourse),
          by simpa [typeRecord, htyped] using hgives⟩
  · rintro ⟨answer, st', hcourse, hgives⟩
    rcases course_cons_iff.mp hcourse with ⟨e, rfl, hmethod⟩ | ⟨mid, hmethod, hrest⟩
    · obtain rfl := Standing.gives_error_iff.mp hgives
      cases hmethod with
      | unbound hbind => exact ⟨_, Or.inl ⟨_, ⟨_, hbind, rfl⟩, rfl⟩, by simp⟩
    cases hmethod with
    | exempt hexempt => cases hexempt
    | bound hbind =>
      rcases course_cons_iff.mp hrest with ⟨e, rfl, htypes⟩ | ⟨last, htypes, hbody⟩
      · obtain rfl := Standing.gives_error_iff.mp hgives
        cases htypes with
        | mistyped htyped hbind' hcheck =>
          exact ⟨_, Or.inr ⟨_, hbind', Or.inl ⟨_, htyped, hcheck, rfl⟩⟩, by simp⟩
      obtain ⟨o, hdone, rfl⟩ := (runBody_follows hbind last out).mpr ⟨_, _, hbody, hgives⟩
      cases htypes with
      | exempt hexempt =>
        have htyped : p.typed = false := hexempt
        exact ⟨_, Or.inr ⟨_, hbind, Or.inr ⟨by simp [htyped], o, hdone, rfl⟩⟩,
          by simp [typeRecord, htyped]⟩
      | welltyped htyped hbind' hcheck =>
        cases hbind.symm.trans hbind'
        exact ⟨_, Or.inr ⟨_, hbind, Or.inr ⟨fun _ => hcheck, o, hdone, rfl⟩⟩,
          by simp [typeRecord, htyped]⟩

/-- **A call comes to what its checkpoints say**, all six in order. -/
theorem call_eq_some_iff_course (hvalidator : p.prerun = true → ∃ v, p.validator = some v)
    {out : Outcome (Except CallError Value)} : p.call s nested a fields = some out ↔
      ∃ answer st, p.Course s nested a Checkpoint.order (p.start fields) answer st ∧
        st.Gives answer out := by
  simp only [call_eq_some_iff_checkpoints, Run.andThen_eq_some_iff, validateInputs_eq_some_iff]
  constructor
  · rintro ⟨o, ⟨e, fields', events, ⟨journal, hinputs⟩, rfl⟩ |
      ⟨_, fields', events, o, ⟨journal, hinputs⟩, hafter, rfl⟩, rfl⟩
    · cases hinputs with
      | missing hprerun hnone =>
        obtain ⟨v, hv⟩ := hvalidator hprerun
        cases hnone.symm.trans hv
      | unbound hprerun hv hbind =>
        exact ⟨_, _, .stopped (.validatorUnbound hprerun hv hbind),
          by simp [Standing.gives_error_iff]⟩
      | rejected hprerun hv hbind hdone =>
        exact ⟨_, _, .onward (.validatorBound hprerun hv hbind)
          (.stopped (.rejected hprerun hv hbind hdone)), by simp [Standing.gives_error_iff]⟩
    · cases hinputs with
      | unmarked hprerun =>
        obtain ⟨answer, st', hcourse, hgives⟩ :=
          (afterInputs_follows (p.start fields) _).mp ⟨o, hafter, rfl⟩
        exact ⟨_, _, .onward (.exempt hprerun) (.onward (.exempt hprerun) hcourse),
          by simpa using hgives⟩
      | @accepted v bound value _ earlier hprerun hv hbind hdone =>
        let i : Invocation := ⟨.validator, v.method, bound, fields, ⟨.ok value, fields', earlier⟩⟩
        obtain ⟨answer, st', hcourse, hgives⟩ := (afterInputs_follows
          (((p.start fields).ran i).wrote (.inputsOk p.qualname v.qualname)) _).mp ⟨o, hafter, rfl⟩
        exact ⟨_, _, .onward (.validatorBound hprerun hv hbind)
          (.onward (.accepted hprerun hv hbind hdone) hcourse), by simpa [i] using hgives⟩
  · rintro ⟨answer, st', hcourse, hgives⟩
    rcases course_cons_iff.mp hcourse with ⟨e, rfl, hbinds⟩ | ⟨mid, hbinds, hrest⟩
    · obtain rfl := Standing.gives_error_iff.mp hgives
      cases hbinds with
      | validatorUnbound hprerun hv hbind =>
        exact ⟨_, Or.inl ⟨_, _, _, ⟨_, .unbound hprerun hv hbind⟩, rfl⟩, by simp⟩
    obtain rfl : mid = p.start fields := by
      cases hbinds <;> rfl
    rcases course_cons_iff.mp hrest with ⟨e, rfl, haccepts⟩ | ⟨last, haccepts, hafter⟩
    · obtain rfl := Standing.gives_error_iff.mp hgives
      cases haccepts with
      | rejected hprerun hv hbind hdone =>
        exact ⟨_, Or.inl ⟨_, _, _, ⟨_, .rejected hprerun hv hbind hdone⟩, rfl⟩, by simp⟩
    obtain ⟨o, hdone, rfl⟩ := (afterInputs_follows last out).mpr ⟨_, _, hafter, hgives⟩
    cases haccepts with
    | exempt hexempt =>
      exact ⟨_, Or.inr ⟨(), _, _, o, ⟨_, .unmarked hexempt⟩, hdone, rfl⟩, by simp⟩
    | accepted hprerun hv hbind hinvoke =>
      exact ⟨_, Or.inr ⟨(), _, _, o, ⟨_, .accepted hprerun hv hbind hinvoke⟩, hdone, rfl⟩, by simp⟩

/-! ## 3. What every course keeps to -/

/-- The records that come of passing a checkpoint. -/
def recordsOf (p : ValidatedMethod) : Checkpoint → List Event
  | .validator =>
    if p.prerun then p.validator.toList.map fun v => .inputsOk p.qualname v.qualname else []
  | .argumentTypes => p.typeRecord (.argumentTypesOk p.qualname)
  | .returnType => p.typeRecord (.returnTypeOk p.qualname)
  | .validatorBind => []
  | .methodBind => []
  | .body => []

/-- **What the proxy writes when all goes well**: that the inputs are accepted, if it has a
validator to ask, and that arguments and result have their types, if it checks them. -/
def okRecords (p : ValidatedMethod) : List Event :=
  (if p.prerun then p.validator.toList.map fun v => .inputsOk p.qualname v.qualname else []) ++
    (if p.typed then [.argumentTypesOk p.qualname, .returnTypeOk p.qualname] else [])

theorem flatMap_recordsOf : Checkpoint.order.flatMap p.recordsOf = p.okRecords := by
  simp [Checkpoint.order, recordsOf, okRecords, typeRecord]
  cases p.typed <;> rfl

/-- Exactly the checkpoints that are passed leave their record. -/
theorem Answers.records (h : p.Answers s nested a k st answer st') :
    st'.records = st.records ++ if answer = .ok () then p.recordsOf k else [] := by
  cases h with
  | exempt hexempt => cases k <;> simp_all [asks, recordsOf, typeRecord]
  | _ => simp_all [recordsOf, typeRecord]

/-- A run of a body at a checkpoint: what it was run for and on, and what its error does. -/
structure RunsAt (p : ValidatedMethod) (s : Shape) (nested : Caller) (a : Arguments)
    (k : Checkpoint) (st : Standing) (answer : Except CallError Unit) (i : Invocation) : Prop where
  role : k.role? = some i.role
  before : i.before = st.fields
  ran : i.Ran s nested
  validator : i.role = .validator → ∃ v, p.validator = some v ∧ i.method = v.method ∧
    v.method.signature.bind a = .ok i.bound
  body : i.role = .body → i.method = p.method ∧ p.method.signature.bind a = .ok i.bound
  raised : ∀ e, i.outcome.value = .error e → answer = .error (.raised e)

/-- A checkpoint runs one body, or leaves the object alone. -/
theorem Answers.ran_or_kept (h : p.Answers s nested a k st answer st') :
    (st'.journal = st.journal ∧ st'.fields = st.fields ∧ st'.result = st.result) ∨
      ∃ i, st'.journal = st.journal ++ [i] ∧ p.RunsAt s nested a k st answer i ∧
        st'.fields = i.outcome.fields ∧ (st'.result = st.result ∨
          i.role = .body ∧ ∃ value, i.outcome.value = .ok value ∧ st'.result = some value) := by
  cases h with
  | rejected hprerun hv hbind hdone =>
    exact Or.inr ⟨_, Standing.journal_ran, ⟨rfl, rfl, hdone, fun _ => ⟨_, hv, rfl, hbind⟩,
      nofun, fun e he => by cases he; rfl⟩, rfl, Or.inl rfl⟩
  | accepted hprerun hv hbind hdone =>
    exact Or.inr ⟨_, Standing.journal_wrote.trans Standing.journal_ran,
      ⟨rfl, rfl, hdone, fun _ => ⟨_, hv, rfl, hbind⟩, nofun,
        nofun⟩, rfl, Or.inl rfl⟩
  | raised hbind hdone =>
    exact Or.inr ⟨_, Standing.journal_ran, ⟨rfl, rfl, hdone, nofun,
      fun _ => ⟨rfl, hbind⟩, fun e he => by cases he; rfl⟩, rfl, Or.inl rfl⟩
  | returned hbind hdone =>
    exact Or.inr ⟨_, Standing.journal_gave.trans Standing.journal_ran,
      ⟨rfl, rfl, hdone, nofun, fun _ => ⟨rfl, hbind⟩,
        nofun⟩, rfl, Or.inr ⟨rfl, _, rfl, rfl⟩⟩
  | _ => exact Or.inl (by simp)

/-- In one standing a checkpoint has one answer. -/
theorem Answers.unique {answer' : Except CallError Unit} {st'' : Standing}
    (h : p.Answers s nested a k st answer st') (h' : p.Answers s nested a k st answer' st'') :
    answer = answer' ∧ st' = st'' := by
  cases h <;> cases h' <;> simp_all [asks]

namespace Course

theorem unique {answer' : Except CallError Unit} {st'' : Standing}
    (h : p.Course s nested a checkpoints st answer st')
    (h' : p.Course s nested a checkpoints st answer' st'') : answer = answer' ∧ st' = st'' := by
  induction h with
  | passed =>
    cases h'
    exact ⟨rfl, rfl⟩
  | stopped hk =>
    cases h' with
    | stopped hk' => exact hk.unique hk'
    | onward hk' _ => exact nomatch (hk.unique hk').1
  | onward hk _ ih =>
    cases h' with
    | stopped hk' => exact nomatch (hk.unique hk').1
    | onward hk' hrest =>
      obtain ⟨-, rfl⟩ := hk.unique hk'
      exact ih hrest

/-- A course that ends with an error ends at the first checkpoint that is not passed. -/
theorem exists_stop {e : CallError} (h : p.Course s nested a checkpoints st (.error e) st') :
    ∃ before k after mid, checkpoints = before ++ k :: after ∧
      p.Course s nested a before st (.ok ()) mid ∧ p.Answers s nested a k mid (.error e) st' := by
  generalize hanswer : Except.error e = answer at h
  induction h with
  | passed => cases hanswer
  | stopped hk =>
    cases hanswer
    exact ⟨[], _, _, _, rfl, .passed, hk⟩
  | onward hk _ ih =>
    obtain ⟨before, k', after, mid, rfl, hbefore, hstop⟩ := ih hanswer
    exact ⟨_ :: before, k', after, mid, rfl, .onward hk hbefore, hstop⟩

/-- The proxy writes one record for each checkpoint that is passed. -/
theorem records_of_ok (h : p.Course s nested a checkpoints st (.ok ()) st') :
    st'.records = st.records ++ checkpoints.flatMap p.recordsOf := by
  generalize hanswer : Except.ok () = answer at h
  induction h with
  | passed => simp
  | stopped => cases hanswer
  | onward hk _ ih => rw [ih hanswer, hk.records, if_pos rfl, List.flatMap_cons, List.append_assoc]

/-- Each run of a body stands at a checkpoint that is come to when all before it are passed. -/
theorem mem_journal (h : p.Course s nested a checkpoints st answer st') {i : Invocation}
    (hi : i ∈ st'.journal) : i ∈ st.journal ∨ ∃ before k after mid,
      checkpoints = before ++ k :: after ∧ p.Course s nested a before st (.ok ()) mid ∧
        p.RunsAt s nested a k mid answer i := by
  induction h with
  | passed => exact Or.inl hi
  | @stopped k rest e st st' hk =>
    rcases hk.ran_or_kept with ⟨hjournal, -⟩ | ⟨j, hjournal, hj, -⟩ <;> rw [hjournal] at hi
    · exact Or.inl hi
    · rcases List.mem_append.mp hi with hi | hi
      · exact Or.inl hi
      · obtain rfl := List.mem_singleton.mp hi
        exact Or.inr ⟨[], k, rest, st, rfl, .passed, hj⟩
  | @onward k rest answer st mid st' hk _ ih =>
    rcases ih hi with hi | ⟨before, k', after, mid', rfl, hbefore, hruns⟩
    · rcases hk.ran_or_kept with ⟨hjournal, -⟩ | ⟨j, hjournal, hj, -⟩ <;> rw [hjournal] at hi
      · exact Or.inl hi
      · rcases List.mem_append.mp hi with hi | hi
        · exact Or.inl hi
        · obtain rfl := List.mem_singleton.mp hi
          refine Or.inr ⟨[], k, rest, st, rfl, .passed, { hj with raised := fun e he => ?_ }⟩
          exact nomatch hj.raised e he
    · exact Or.inr ⟨k :: before, k', after, mid', rfl, .onward hk hbefore, hruns⟩

/-- What bodies are run for follows the checkpoints. -/
theorem roles_sublist (h : p.Course s nested a checkpoints st answer st') :
    ∃ more, st'.journal = st.journal ++ more ∧
      (more.map (·.role)).Sublist (checkpoints.filterMap Checkpoint.role?) := by
  induction h with
  | passed => exact ⟨[], by simp⟩
  | @stopped k rest e st st' hk =>
    rcases hk.ran_or_kept with ⟨hjournal, -⟩ | ⟨i, hjournal, hi, -⟩
    · exact ⟨[], by simp [hjournal]⟩
    · exact ⟨[i], hjournal, by simp [hi.role]⟩
  | @onward k rest answer st mid st' hk _ ih =>
    obtain ⟨more, hmore, hroles⟩ := ih
    rcases hk.ran_or_kept with ⟨hjournal, -⟩ | ⟨i, hjournal, hi, -⟩
    · refine ⟨more, hjournal ▸ hmore, hroles.trans ?_⟩
      exact (List.sublist_cons_self k rest).filterMap _
    · refine ⟨i :: more, by rw [hmore, hjournal, List.append_assoc]; rfl, ?_⟩
      rw [List.filterMap_cons_some hi.role, List.map_cons]
      exact hroles.cons_cons _

/-- What every checkpoint keeps, whatever it answers, every course keeps. -/
theorem invariant {P : Standing → Prop}
    (hstep : ∀ {k answer st st'}, p.Answers s nested a k st answer st' → P st → P st')
    (h : p.Course s nested a checkpoints st answer st') (hst : P st) : P st' := by
  induction h with
  | passed => exact hst
  | stopped hk => exact hstep hk hst
  | onward hk _ ih => exact ih (hstep hk hst)

end Course

/-- The fields are those that the last body left. -/
theorem Answers.fields_eq {first : Fields} (h : p.Answers s nested a k st answer st')
    (hst : st.fields = ((st.journal.map (·.outcome.fields)).getLast?).getD first) :
    st'.fields = ((st'.journal.map (·.outcome.fields)).getLast?).getD first := by
  rcases h.ran_or_kept with ⟨hjournal, hfields, -⟩ | ⟨i, hjournal, -, hfields, -⟩
  · rw [hjournal, hfields, hst]
  · simp [hjournal, hfields]

/-- The result is what the body gave. -/
theorem Answers.exists_of_result (h : p.Answers s nested a k st answer st')
    (hst : ∀ value, st.result = some value →
      ∃ i ∈ st.journal, i.role = .body ∧ i.outcome.value = .ok value) :
    ∀ value, st'.result = some value →
      ∃ i ∈ st'.journal, i.role = .body ∧ i.outcome.value = .ok value := by
  intro value hvalue
  rcases h.ran_or_kept with ⟨hjournal, -, hresult⟩ |
    ⟨i, hjournal, -, -, hresult | ⟨hrole, given, hgiven, hresult⟩⟩
  · rw [hjournal]
    exact hst value (hresult ▸ hvalue)
  · obtain ⟨j, hj, hrest⟩ := hst value (hresult ▸ hvalue)
    exact ⟨j, by simp [hjournal, hj], hrest⟩
  · obtain rfl := Option.some.inj (hresult.symm.trans hvalue)
    exact ⟨i, by simp [hjournal], hrole, hgiven⟩

/-- The way from a standing to the end of the order tells how much has been written. -/
theorem Course.records (h : p.Course s nested a Checkpoint.order (p.start fields) answer st) :
    ∃ written, st.records = .calling p.qualname :: written ∧ written <+: p.okRecords ∧
      (answer = .ok () → written = p.okRecords) ∧
      (p.typed = true → written = p.okRecords → answer = .ok ()) := by
  cases answer with
  | ok =>
    refine ⟨p.okRecords, ?_, List.prefix_refl _, fun _ => rfl, fun _ _ => rfl⟩
    rw [h.records_of_ok, flatMap_recordsOf]
    rfl
  | error e =>
    obtain ⟨before, k, after, mid, horder, hbefore, hstop⟩ := h.exists_stop
    have hall : p.okRecords = before.flatMap p.recordsOf ++ (k :: after).flatMap p.recordsOf := by
      rw [← flatMap_recordsOf, horder, List.flatMap_append]
    refine ⟨before.flatMap p.recordsOf, ?_, ⟨_, hall.symm⟩, nofun, fun htyped hwritten => ?_⟩
    · simp [hstop.records, hbefore.records_of_ok]
    -- the last checkpoint is still to come, and a typed method has a record for it
    · have hlast : Checkpoint.returnType ∈ k :: after := by
        have hget := congrArg List.getLast? horder
        rw [List.getLast?_append_cons] at hget
        exact List.mem_of_getLast? hget.symm
      have hnil : (k :: after).flatMap p.recordsOf = [] := by
        rw [hall] at hwritten
        exact List.append_right_eq_self.mp hwritten.symm
      have hnone := List.flatMap_eq_nil_iff.mp hnil _ hlast
      simp [recordsOf, typeRecord, htyped] at hnone

/-- **What the way of a call through its checkpoints keeps to.** -/
structure Lawful (p : ValidatedMethod) (s : Shape) (nested : Caller) (a : Arguments)
    (fields : Fields) (answer : Except CallError Unit) (st : Standing) : Prop where
  /-- An error is that of the first checkpoint that is not passed. -/
  decided : ∀ e, answer = .error e → ∃ before k after mid, Checkpoint.order = before ++ k :: after ∧
    p.Course s nested a before (p.start fields) (.ok ()) mid ∧
      p.Answers s nested a k mid (.error e) st
  /-- Validator and body are run at most once each, the validator first. -/
  once : (st.journal.map (·.role)).Sublist [.validator, .body]
  /-- Each is run only when all checkpoints before its own are passed, on the caller's arguments
  and in the fields as they are then; and its error is the call's. -/
  earned : ∀ i ∈ st.journal, ∃ before k after mid, Checkpoint.order = before ++ k :: after ∧
    p.Course s nested a before (p.start fields) (.ok ()) mid ∧ p.RunsAt s nested a k mid answer i
  /-- The fields are left as the last of them left them. -/
  fields : st.fields = ((st.journal.map (·.outcome.fields)).getLast?).getD fields
  /-- The result is what the body gave. -/
  result : ∀ value, st.result = some value →
    ∃ i ∈ st.journal, i.role = .body ∧ i.outcome.value = .ok value
  /-- The proxy's own records are the first of those it writes when all goes well, and all of
  them when all goes well. -/
  records : ∃ written, st.records = .calling p.qualname :: written ∧ written <+: p.okRecords ∧
    (answer = .ok () → written = p.okRecords) ∧
    (p.typed = true → written = p.okRecords → answer = .ok ())

theorem Course.lawful (h : p.Course s nested a Checkpoint.order (p.start fields) answer st) :
    p.Lawful s nested a fields answer st where
  decided := fun e he => (he ▸ h).exists_stop
  once := by
    obtain ⟨more, hmore, hroles⟩ := h.roles_sublist
    rw [hmore]
    exact hroles
  earned := fun i hi => (h.mem_journal hi).resolve_left (by simp)
  fields := h.invariant Answers.fields_eq rfl
  result := h.invariant Answers.exists_of_result nofun
  records := h.records

end ValidatedMethod

end MethodGuard
