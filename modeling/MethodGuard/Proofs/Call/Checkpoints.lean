/-
# The first checkpoint that fails decides a call

What a call through a proxy comes to depends on two functions that it does not know, the validator
and the body.  `Checkpointed` says what holds whatever these do: the way of the call through its
checkpoints (`Course`) gives the outcome, there is one such way at most, it keeps to the rules
(`Lawful`), and there is one as soon as the two functions always come to an end.  Of the validator
only whether it accepts and what it leaves behind can be noticed, not the value that it gives.

Bodies are programs that act on an object.  That no function is left out thereby is
`Program.exists_run_eq`.
-/
import MethodGuard.Proofs.Call.Course

namespace MethodGuard

/-! ## 1. What calls do with the functions they run -/

namespace Run

variable {α : Type u} {β : Type v} {ε : Type w}

/-- The run comes to an end, whatever the fields are. -/
def Total (run : Run α) : Prop := ∀ fields, ∃ o, run fields = some o

theorem total_pure (value : α) : (pure value).Total := fun fields => ⟨⟨value, fields, []⟩, rfl⟩

theorem total_log (event : Event) (value : α) : (log event value).Total :=
  fun fields => ⟨⟨value, fields, [event]⟩, rfl⟩

theorem Total.bind {first : Run α} {next : α → Run β} (hfirst : first.Total)
    (hnext : ∀ value, (next value).Total) : (first.bind next).Total := by
  intro fields
  obtain ⟨o, ho⟩ := hfirst fields
  obtain ⟨o', ho'⟩ := hnext o.value o.fields
  exact ⟨_, bind_eq_some_iff.mpr ⟨o, o', ho, ho', rfl⟩⟩

theorem Total.andThen {first : Run (Except ε α)} {next : α → Run (Except ε β)}
    (hfirst : first.Total) (hnext : ∀ value, (next value).Total) :
    (first.andThen next).Total := by
  refine hfirst.bind fun result => ?_
  cases result with
  | error e => exact total_pure _
  | ok value => exact hnext value

end Run

/-- An outcome without the value that was given; errors stay. -/
def Outcome.withoutValue (o : Outcome (Except MethodError Value)) :
    Outcome (Except MethodError Unit) :=
  ⟨o.value.map fun _ => (), o.fields, o.events⟩

/-- Two methods do the same on an object of a class, but for the values they give. -/
def Method.Alike (m m' : Method) (s : Shape) (nested : Caller) : Prop :=
  ∀ bound fields, (m.invoke s nested bound fields).map Outcome.withoutValue =
    (m'.invoke s nested bound fields).map Outcome.withoutValue

namespace Method

variable {m m' : Method} {s : Shape} {nested : Caller} {bound : BoundArguments} {fields : Fields}

theorem Alike.symm (h : m.Alike m' s nested) : m'.Alike m s nested :=
  fun bound fields => (h bound fields).symm

theorem Alike.invoke_error (h : m.Alike m' s nested) {e : MethodError} {fields' : Fields}
    {events : List Event}
    (hdone : m.invoke s nested bound fields = some ⟨.error e, fields', events⟩) :
    m'.invoke s nested bound fields = some ⟨.error e, fields', events⟩ := by
  have hsame := h bound fields
  rw [hdone] at hsame
  obtain ⟨⟨e' | value, fields'', events'⟩, hdone', hout⟩ := Option.map_eq_some_iff.mp hsame.symm
  · cases hout
    exact hdone'
  · cases hout

theorem Alike.invoke_ok (h : m.Alike m' s nested) {value : Value} {fields' : Fields}
    {events : List Event}
    (hdone : m.invoke s nested bound fields = some ⟨.ok value, fields', events⟩) :
    ∃ value', m'.invoke s nested bound fields = some ⟨.ok value', fields', events⟩ := by
  have hsame := h bound fields
  rw [hdone] at hsame
  obtain ⟨⟨e' | value', fields'', events'⟩, hdone', hout⟩ := Option.map_eq_some_iff.mp hsame.symm
  · cases hout
  · cases hout
    exact ⟨value', hdone'⟩

/-- What goes on after a body without looking at its value goes on alike. -/
theorem Alike.perform_andThen {α : Type u} (h : m.Alike m' s nested)
    (next : Run (Except CallError α)) : (m.perform s nested bound).andThen (fun _ => next) =
      (m'.perform s nested bound).andThen fun _ => next := by
  have himp {m m' : Method} (h : m.Alike m' s nested) {fields : Fields}
      {o : Outcome (Except CallError α)}
      (hrun : (m.perform s nested bound).andThen (fun _ => next) fields = some o) :
      (m'.perform s nested bound).andThen (fun _ => next) fields = some o := by
    rw [perform_andThen_eq_some_iff] at hrun ⊢
    rcases hrun with ⟨e, fields', events, hdone, rfl⟩ |
      ⟨value, fields', events, o', hdone, hnext, rfl⟩
    · exact Or.inl ⟨e, fields', events, h.invoke_error hdone, rfl⟩
    · obtain ⟨value', hdone'⟩ := h.invoke_ok hdone
      exact Or.inr ⟨value', fields', events, o', hdone', hnext, rfl⟩
  funext fields
  exact Option.ext fun o => ⟨himp h, himp h.symm⟩

theorem total_perform (h : (m.invoke s nested bound).Total) : (m.perform s nested bound).Total :=
  h.bind fun _ => Run.total_pure _

end Method

namespace ValidatedMethod

variable {p : ValidatedMethod} {s : Shape} {nested : Caller}

theorem total_typeCheckpoint (check : Except CallError Unit) (event : Event) :
    (p.typeCheckpoint check event).Total := by
  unfold typeCheckpoint
  split
  · exact (Run.total_pure _).andThen fun _ => Run.total_log _ _
  · exact Run.total_pure _

theorem total_validateInputs (a : Arguments)
    (h : ∀ v, p.validator = some v → ∀ bound, (v.method.invoke s nested bound).Total) :
    (p.validateInputs s nested a).Total := by
  unfold validateInputs
  split
  · split
    · exact Run.total_pure _
    · rename_i v hv
      refine (Run.total_pure _).andThen fun bound => ?_
      exact (Method.total_perform (h v hv bound)).andThen fun _ => Run.total_log _ _
  · exact Run.total_pure _

/-- **A call ends when the functions it runs do.** -/
theorem total_call (a : Arguments)
    (hvalidator : ∀ v, p.validator = some v → ∀ bound, (v.method.invoke s nested bound).Total)
    (hmethod : ∀ bound, (p.method.invoke s nested bound).Total) :
    (p.call s nested a).Total := by
  refine (Run.total_log _ _).bind fun _ => ?_
  refine (total_validateInputs a hvalidator).andThen fun _ => ?_
  refine (Run.total_pure _).andThen fun bound => ?_
  refine (total_typeCheckpoint _ _).andThen fun _ => ?_
  refine (Method.total_perform (hmethod bound)).andThen fun result => ?_
  exact (total_typeCheckpoint _ _).andThen fun _ => Run.total_pure _

/-- **What the validator gives does not count.** -/
theorem call_of_alike {v v' : Validator} (hv : p.validator = some v)
    (hqualname : v.qualname = v'.qualname) (hsignature : v.method.signature = v'.method.signature)
    (halike : v.method.Alike v'.method s nested) (a : Arguments) :
    p.call s nested a = { p with validator := some v' }.call s nested a := by
  have hinputs : p.validateInputs s nested a =
      { p with validator := some v' }.validateInputs s nested a := by
    simp only [validateInputs, hv, Method.bindAs, hqualname, hsignature, halike.perform_andThen]
  unfold call
  rw [hinputs]
  rfl

end ValidatedMethod

/-! ## 2. Bodies are arbitrary functions

A body sees its object by name and acts on it step by step, but it may also call methods of the
object, and what those do is up to the `Caller`.  So with a caller of one's choice two bodies do
what any two functions do. -/

namespace Program

/-- Bound arguments, written as arguments of a call. -/
def pack (bound : BoundArguments) : Arguments := ⟨bound.defaulted.map .string, bound.values⟩

/-- What was packed. -/
def unpack (a : Arguments) : BoundArguments := ⟨a.keyword, a.positional.filterMap Value.string?⟩

theorem unpack_pack (bound : BoundArguments) : unpack (pack bound) = bound := by
  simp [pack, unpack, List.filterMap_map, Function.comp_def, Value.string?]

/-- The result of a call as that of a body. -/
def lower : Except CallError Value → Except MethodError Value
  | .ok value => .ok value
  | .error (.raised e) => .error e
  | .error e => .error (.other e.message)

theorem lower_mapError (result : Except MethodError Value) :
    lower (result.mapError .raised) = result := by
  cases result <;> rfl

/-- The body that leaves everything to a method of the object. -/
def delegate (name : String) : Body := fun bound =>
  .call name (pack bound) fun result => .finish (lower result)

theorem run_delegate {name : String} {s : Shape} {nested : Caller} {bound : BoundArguments}
    {f : BoundArguments → Run (Except MethodError Value)}
    (h : ∀ a, nested name a = (f (unpack a)).bind fun result =>
      Run.pure (result.mapError .raised)) : (delegate name bound).run s nested = f bound := by
  funext fields
  rw [delegate, run, h, unpack_pack]
  cases hf : f bound fields <;> simp [Run.bind, Run.pure, run, hf, lower_mapError]

/-- **Any two functions are those of two bodies.** -/
theorem exists_run_eq (f g : BoundArguments → Run (Except MethodError Value)) :
    ∃ (nested : Caller) (validate body : Body), ∀ s bound,
      (validate bound).run s nested = f bound ∧ (body bound).run s nested = g bound :=
  ⟨fun name a => ((if name = "validate" then f else g) (unpack a)).bind fun result =>
    Run.pure (result.mapError .raised), delegate "validate", delegate "body",
    fun _ _ => ⟨run_delegate fun _ => rfl, run_delegate fun _ => rfl⟩⟩

end Program

/-! ## 3. The whole -/

namespace ValidatedMethod

/-- **How a call goes through its checkpoints.** -/
structure Checkpointed (p : ValidatedMethod) (s : Shape) (nested : Caller) (a : Arguments)
    (fields : Fields) : Prop where
  /-- The outcome of a call is that of the way through the checkpoints in order. -/
  outcome : ∀ out, p.call s nested a fields = some out ↔ ∃ answer st,
    p.Course s nested a Checkpoint.order (p.start fields) answer st ∧ st.Gives answer out
  /-- There is at most one such way. -/
  unique : ∀ answer st answer' st',
    p.Course s nested a Checkpoint.order (p.start fields) answer st →
    p.Course s nested a Checkpoint.order (p.start fields) answer' st' → answer = answer' ∧ st = st'
  /-- It keeps to the rules. -/
  lawful : ∀ answer st, p.Course s nested a Checkpoint.order (p.start fields) answer st →
    p.Lawful s nested a fields answer st
  /-- There is an outcome when validator and body always come to an end. -/
  total : (∀ v, p.validator = some v → ∀ bound, (v.method.invoke s nested bound).Total) →
    (∀ bound, (p.method.invoke s nested bound).Total) → ∃ out, p.call s nested a fields = some out
  /-- The value that the validator gives has no influence. -/
  validatorValue : ∀ v v', p.validator = some v → v.qualname = v'.qualname →
    v.method.signature = v'.method.signature → v.method.Alike v'.method s nested →
    { p with validator := some v' }.call s nested a fields = p.call s nested a fields

/-- **The first checkpoint that fails decides a call.**  This is so for every proxy that has its
validator when it is marked for one, on every object and whatever validator and body do. -/
theorem call_checkpointed (p : ValidatedMethod) (s : Shape) (nested : Caller) (a : Arguments)
    (fields : Fields) (hvalidator : p.prerun = true → ∃ v, p.validator = some v) :
    p.Checkpointed s nested a fields where
  outcome := fun _ => call_eq_some_iff_course hvalidator
  unique := fun _ _ _ _ h h' => h.unique h'
  lawful := fun _ _ h => h.lawful
  total := fun hv hm => total_call a hv hm fields
  validatorValue := fun _ _ hv hqualname hsignature halike =>
    congrFun (call_of_alike hv hqualname hsignature halike a).symm fields

end ValidatedMethod

namespace Diamond

/-- A proxy of the area that is marked for everything. -/
def areaProxy : ValidatedMethod :=
  ⟨"Shape", "Shape.area", area, true, some ⟨"Side.validate_area", validateArea⟩, true, .allItems⟩

/-- Its calls go through all six checkpoints. -/
theorem areaProxy_checkpointed :
    (areaProxy.prerun = true → ∃ v, areaProxy.validator = some v) ∧
    areaProxy.Checkpointed bottom.toShape bottom.call (.ofValues [.integer 3]) .empty :=
  ⟨fun _ => ⟨_, rfl⟩, areaProxy.call_checkpointed _ _ _ _ fun _ => ⟨_, rfl⟩⟩

/-- A side that is no integer gets past the validator, which accepts everything, and no further. -/
example : (areaProxy.call bottom.toShape bottom.call (.ofValues [.boolean true]) .empty).map
    (fun o => o.events.length) = some 2 := rfl

end Diamond

end MethodGuard
