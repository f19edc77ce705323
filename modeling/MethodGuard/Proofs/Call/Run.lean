/-
# What a run that gave an outcome did

A `Run` is put together from smaller ones.  Each way of putting runs together has one lemma that
takes the outcome of the whole apart into outcomes of the pieces; nothing else needs to look
inside.  Going on after a possible error (`andThen_eq_some_iff`) is the one with two sides: either
the first piece gave an error and that was all, or the second piece began where the first ended.
-/
import MethodGuard.Call.Run

namespace MethodGuard

section Errors

variable {ε : Type u} {ε' : Type v} {α : Type w} {x : Except ε α} {f : ε → ε'}

/-- Errors reported differently leave the results as they are. -/
theorem mapError_eq_ok_iff {a : α} : x.mapError f = .ok a ↔ x = .ok a := by
  cases x with
  | error e => exact ⟨nofun, nofun⟩
  | ok b =>
    constructor <;>
    · intro h
      cases h
      rfl

theorem mapError_eq_error_iff {e' : ε'} :
    x.mapError f = .error e' ↔ ∃ e, x = .error e ∧ e' = f e := by
  cases x with
  | error e =>
    constructor
    · intro h
      cases h
      exact ⟨e, rfl, rfl⟩
    · rintro ⟨_, h, rfl⟩
      cases h
      rfl
  | ok b => exact ⟨nofun, nofun⟩

end Errors

namespace Run

variable {α : Type u} {β : Type v} {ε : Type w}

theorem pure_eq_some_iff {value : α} {fields : Fields} {o : Outcome α} :
    pure value fields = some o ↔ o = ⟨value, fields, []⟩ := by
  rw [pure, Option.some.injEq, eq_comm]

theorem log_eq_some_iff {event : Event} {value : α} {fields : Fields} {o : Outcome α} :
    log event value fields = some o ↔ o = ⟨value, fields, [event]⟩ := by
  rw [log, Option.some.injEq, eq_comm]

theorem bind_eq_some_iff {first : Run α} {next : α → Run β} {fields : Fields} {o : Outcome β} :
    bind first next fields = some o ↔ ∃ o₁ o₂, first fields = some o₁ ∧
      next o₁.value o₁.fields = some o₂ ∧ o = ⟨o₂.value, o₂.fields, o₁.events ++ o₂.events⟩ := by
  unfold bind
  cases hfirst : first fields with
  | none => simp
  | some o₁ => cases hnext : next o₁.value o₁.fields <;> simp [hnext, eq_comm]

/-- **Going on after a possible error.** -/
theorem andThen_eq_some_iff {first : Run (Except ε α)} {next : α → Run (Except ε β)}
    {fields : Fields} {o : Outcome (Except ε β)} :
    andThen first next fields = some o ↔
      (∃ e fields' events, first fields = some ⟨.error e, fields', events⟩ ∧
        o = ⟨.error e, fields', events⟩) ∨
      ∃ a fields' events o', first fields = some ⟨.ok a, fields', events⟩ ∧
        next a fields' = some o' ∧ o = ⟨o'.value, o'.fields, events ++ o'.events⟩ := by
  rw [andThen, bind_eq_some_iff]
  constructor
  · rintro ⟨⟨value | value, fields', events⟩, o', hfirst, hnext, rfl⟩
    · obtain rfl := pure_eq_some_iff.mp hnext
      exact Or.inl ⟨value, fields', events, hfirst, by rw [List.append_nil]⟩
    · exact Or.inr ⟨value, fields', events, o', hfirst, hnext, rfl⟩
  · rintro (⟨e, fields', events, hfirst, rfl⟩ | ⟨a, fields', events, o', hfirst, hnext, rfl⟩)
    · exact ⟨_, _, hfirst, rfl, by rw [List.append_nil]⟩
    · exact ⟨_, o', hfirst, hnext, rfl⟩

/-- What is decided without acting leaves the fields and emits nothing. -/
theorem ofExcept_andThen_eq_some_iff {result : Except ε α} {next : α → Run (Except ε β)}
    {fields : Fields} {o : Outcome (Except ε β)} :
    andThen (ofExcept result) next fields = some o ↔
      (∃ e, result = .error e ∧ o = ⟨.error e, fields, []⟩) ∨
      ∃ a, result = .ok a ∧ next a fields = some o := by
  rw [andThen_eq_some_iff]
  constructor
  · rintro (⟨e, fields', events, hfirst, rfl⟩ | ⟨a, fields', events, o', hfirst, hnext, rfl⟩)
    · cases hfirst
      exact Or.inl ⟨e, rfl, rfl⟩
    · cases hfirst
      exact Or.inr ⟨a, rfl, hnext⟩
  · rintro (⟨e, rfl, rfl⟩ | ⟨a, rfl, hnext⟩)
    · exact Or.inl ⟨e, fields, [], rfl, rfl⟩
    · exact Or.inr ⟨a, fields, [], o, rfl, hnext, rfl⟩

end Run

/-- What a body raises is what the call raises, and what it gives is what the call gives. -/
theorem Method.perform_eq_some_iff {m : Method} {s : Shape} {nested : Caller}
    {bound : BoundArguments} {fields : Fields} {o : Outcome (Except CallError Value)} :
    m.perform s nested bound fields = some o ↔ ∃ done, m.invoke s nested bound fields = some done ∧
      o = ⟨done.value.mapError .raised, done.fields, done.events⟩ := by
  rw [Method.perform, Run.bind_eq_some_iff]
  constructor
  · rintro ⟨done, o', hdone, hpure, rfl⟩
    obtain rfl := Run.pure_eq_some_iff.mp hpure
    exact ⟨done, hdone, by rw [List.append_nil]⟩
  · rintro ⟨done, hdone, rfl⟩
    exact ⟨done, _, hdone, rfl, by rw [List.append_nil]⟩

/-- **Going on after a body**, unless it raised an error. -/
theorem Method.perform_andThen_eq_some_iff {α : Type u} {m : Method} {s : Shape} {nested : Caller}
    {bound : BoundArguments} {next : Value → Run (Except CallError α)} {fields : Fields}
    {o : Outcome (Except CallError α)} :
    ((m.perform s nested bound).andThen next) fields = some o ↔
      (∃ e fields' events, m.invoke s nested bound fields = some ⟨.error e, fields', events⟩ ∧
        o = ⟨.error (.raised e), fields', events⟩) ∨
      ∃ value fields' events o',
        m.invoke s nested bound fields = some ⟨.ok value, fields', events⟩ ∧
        next value fields' = some o' ∧ o = ⟨o'.value, o'.fields, events ++ o'.events⟩ := by
  simp only [Run.andThen_eq_some_iff, Method.perform_eq_some_iff]
  constructor
  · rintro (⟨e, fields', events, ⟨⟨e' | value, fields'', events'⟩, hdone, hsame⟩, rfl⟩ |
      ⟨value, fields', events, o', ⟨⟨e' | value', fields'', events'⟩, hdone, hsame⟩, hnext, rfl⟩)
    · cases hsame
      exact Or.inl ⟨_, _, _, hdone, rfl⟩
    · cases hsame
    · cases hsame
    · cases hsame
      exact Or.inr ⟨_, _, _, o', hdone, hnext, rfl⟩
  · rintro (⟨e, fields', events, hdone, rfl⟩ | ⟨value, fields', events, o', hdone, hnext, rfl⟩)
    · exact Or.inl ⟨.raised e, fields', events, ⟨_, hdone, rfl⟩, rfl⟩
    · exact Or.inr ⟨value, fields', events, o', ⟨_, hdone, rfl⟩, hnext, rfl⟩

theorem Method.bindAs_eq_ok_iff {m : Method} {qualname : String} {a : Arguments}
    {bound : BoundArguments} : m.bindAs qualname a = .ok bound ↔ m.signature.bind a = .ok bound :=
  mapError_eq_ok_iff

theorem Method.bindAs_eq_error_iff {m : Method} {qualname : String} {a : Arguments}
    {e : CallError} : m.bindAs qualname a = .error e ↔
      ∃ e', m.signature.bind a = .error e' ∧ e = .bind qualname e' :=
  mapError_eq_error_iff

end MethodGuard
