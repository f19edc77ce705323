/-
# Clients that construct at the same time

A class's structural check runs behind a lock, its initializer does not: while one client's
initializer is under way, others can be admitted, build classes or run reports.  A `Session` makes
constructing an object one step; here it is two turns, `request` up to the end of the check and
`initializer` after it, with any turns of other clients in between (`Clients.Step`).  Constructing
in one step is taking both turns at once (`World.instantiate?_eq_request`), so the runs of a session
are runs of clients as well (`Session.Reaches.exists_runs`).

A stage that belongs to a class statement can answer differently each time, since what it looks at
need not be in the class.  So a run comes with the answers of all stages at each of its turns, and
a class is admitted as the class whose stages answer like that (`Class.answering`).
-/
import MethodGuard.Proofs.Structure.SelfCheck
import MethodGuard.Proofs.World.Session

namespace MethodGuard

/-! ## 1. Stages whose answers change -/

/-- What the stages answer about classes at some moment. -/
abbrev Answers := Stage → Shape → Traced (Except (List StructureError) Unit)

/-- The answers of stages that depend on nothing but the class. -/
def Answers.fixed : Answers := fun stage => stage.check.run

namespace Class

/-- The class, its stages answering as given. -/
def answering (c : Class) (answers : Answers) : Class :=
  { c with stages := c.stages.map fun stage =>
      { stage with check := { stage.check with run := answers stage } } }

/-- The class's structural check, its stages answering as given. -/
def selfCheck (c : Class) (answers : Answers) : Traced (Except StructureError Unit) :=
  (c.answering answers).pipeline.ensure c.toShape

/-- The class's own answers are the fixed ones. -/
theorem answering_eq_self {c : Class} {answers : Answers}
    (h : ∀ stage ∈ c.stages, answers stage = stage.check.run) : c.answering answers = c := by
  have hstages : c.stages.map (fun stage =>
      { stage with check := { stage.check with run := answers stage } }) = c.stages := by
    refine (List.map_congr_left fun stage hstage => ?_).trans (List.map_id _)
    rw [h stage hstage]
    rfl
  rw [answering, hstages]

theorem answering_fixed (c : Class) : c.answering .fixed = c := answering_eq_self fun _ _ => rfl

/-- The check of a class whose stages answer as they always do. -/
theorem selfCheck_eq_of_fixed {c : Class} {answers : Answers}
    (h : ∀ stage ∈ c.stages, answers stage = stage.check.run) :
    c.selfCheck answers = c.pipeline.ensure c.toShape := by
  rw [selfCheck, answering_eq_self h]

end Class

/-! ## 2. Getting past the check -/

namespace World

variable {w : World} {c : Class} {a : Arguments} {answers : Answers}

/-- What constructing an object comes to before the initializer. -/
def request (w : World) (c : Class) : Reply (Except InstantiateError Unit) :=
  if c.isAbstract then ⟨.error (.abstract c.name c.abstractNames), [], w⟩
  else (w.ensureChecked c).map fun result => result.mapError .structural

/-- **Constructing an object is being admitted and then running the initializer.** -/
theorem instantiate?_eq_request (w : World) (c : Class) (a : Arguments) : w.instantiate? c a =
    match (w.request c).value with
    | .error e => some ⟨.error e, (w.request c).events, (w.request c).world⟩
    | .ok () => ((w.request c).world.runInitializer? c a).map fun r =>
      { r with events := (w.request c).events ++ r.events } := by
  unfold instantiate? request
  cases c.isAbstract with
  | true => rfl
  | false =>
    simp only [Bool.false_eq_true, if_false, Reply.map]
    cases (w.ensureChecked c).value <;> rfl

theorem request_of_isAbstract (h : c.isAbstract = true) : w.request (c.answering answers) =
    ⟨.error (.abstract c.name c.abstractNames), [], w⟩ :=
  if_pos h

/-- A class that is not abstract is admitted when it passes its check or has passed it. -/
theorem request_of_concrete (h : c.isAbstract = false) : w.request (c.answering answers) =
    (w.ensureChecked (c.answering answers)).map fun result => result.mapError .structural := by
  have hconcrete : ¬ (c.answering answers).isAbstract = true :=
    fun habstract => Bool.false_ne_true (h.symm.trans habstract)
  rw [request, if_neg hconcrete]

theorem request_of_isChecked (habstract : c.isAbstract = false) (h : w.isChecked c = true) :
    w.request (c.answering answers) = ⟨.ok (), [], w⟩ := by
  have hcheck : w.ensureChecked (c.answering answers) = ⟨.ok (), [], w⟩ :=
    ensureChecked_of_isChecked h
  rw [request_of_concrete habstract, hcheck]
  rfl

theorem request_of_passes (habstract : c.isAbstract = false) (h : w.isChecked c = false)
    (hpasses : (c.selfCheck answers).value = .ok ()) : w.request (c.answering answers) =
      ⟨.ok (), (c.selfCheck answers).events, { w with checked := c.id :: w.checked }⟩ := by
  have hcheck : w.ensureChecked (c.answering answers) =
      ⟨.ok (), (c.selfCheck answers).events, { w with checked := c.id :: w.checked }⟩ :=
    ensureChecked_of_passes h hpasses
  rw [request_of_concrete habstract, hcheck]
  rfl

theorem request_of_error {e : StructureError} (habstract : c.isAbstract = false)
    (h : w.isChecked c = false) (herror : (c.selfCheck answers).value = .error e) :
    w.request (c.answering answers) =
      ⟨.error (.structural e), (c.selfCheck answers).events, w⟩ := by
  have hcheck : w.ensureChecked (c.answering answers) =
      ⟨.error e, (c.selfCheck answers).events, w⟩ :=
    ensureChecked_of_error h herror
  rw [request_of_concrete habstract, hcheck]
  rfl

end World

/-- **What being admitted comes to.**  `marked` says that the class has passed its check before. -/
inductive Admission (answers : Answers) (c : Class) (marked : Prop) :
    Except InstantiateError Unit → List Event → Prop where
  /-- Abstract classes are turned away, and nothing is run. -/
  | isAbstract : c.isAbstract = true →
      Admission answers c marked (.error (.abstract c.name c.abstractNames)) []
  /-- The check of a class that has passed it is not run again. -/
  | held : c.isAbstract = false → marked → Admission answers c marked (.ok ()) []
  /-- A check that has not been passed before is run, and passed. -/
  | passed : c.isAbstract = false → ¬ marked → (c.selfCheck answers).value = .ok () →
      Admission answers c marked (.ok ()) (c.selfCheck answers).events
  /-- A check that has not been passed before is run, and failed. -/
  | failed {e : StructureError} : c.isAbstract = false → ¬ marked →
      (c.selfCheck answers).value = .error e →
      Admission answers c marked (.error (.structural e)) (c.selfCheck answers).events

theorem Admission.congr {answers : Answers} {c : Class} {marked marked' : Prop}
    {answer : Except InstantiateError Unit} {events : List Event} (hmarked : marked ↔ marked')
    (h : Admission answers c marked answer events) : Admission answers c marked' answer events :=
  propext hmarked ▸ h

theorem World.admission (w : World) (c : Class) (answers : Answers) :
    Admission answers c (w.isChecked c = true) (w.request (c.answering answers)).value
      (w.request (c.answering answers)).events := by
  cases habstract : c.isAbstract with
  | true =>
    rw [request_of_isAbstract habstract]
    exact .isAbstract habstract
  | false =>
    cases hchecked : w.isChecked c with
    | true =>
      rw [request_of_isChecked habstract hchecked]
      exact .held habstract rfl
    | false =>
      cases hcheck : (c.selfCheck answers).value with
      | ok _ =>
        rw [request_of_passes habstract hchecked hcheck]
        exact .passed habstract Bool.false_ne_true hcheck
      | error e =>
        rw [request_of_error habstract hchecked hcheck]
        exact .failed habstract Bool.false_ne_true hcheck

/-! ## 3. Turns and runs -/

/-- A session, and the constructions whose initializers have not been run yet. -/
structure Clients extends Session where
  underWay : List (Class × Arguments)

/-- What happens in one turn. -/
inductive Turn where
  /-- A client sets out to construct an object and is answered whether it may. -/
  | request (c : Class) (a : Arguments) (answer : Except InstantiateError Unit)
  /-- The initializer of a construction under way is run. -/
  | initializer (c : Class) (a : Arguments)
  /-- A client sets out to construct an object of a name that is not registered. -/
  | unknown (name : String)
  /-- Anything else that is done in a session. -/
  | act (action : Action)

/-- The turns that were taken, each with its records. -/
abbrev Log := List (Turn × List Event)

/-- Whether the action is to construct an object. -/
def Action.constructs : Action → Bool
  | .instantiate _ _ => true
  | .instantiateNamed _ _ => true
  | _ => false

namespace Clients

/-- Nothing built and nothing under way. -/
def initial : Clients := ⟨.initial, []⟩

/-- The class is one that a client holds or can find by name. -/
def Knows (K : Clients) (c : Class) : Prop :=
  c ∈ K.classes ∨ ∃ name, K.world.registry.find? name = some c

/-- The clients after one of them was answered. -/
def answered (K : Clients) (c : Class) (a : Arguments) (r : Reply (Except InstantiateError Unit)) :
    Clients :=
  ⟨{ K.toSession with world := r.world }, match r.value with
    | .ok () => (c, a) :: K.underWay
    | .error _ => K.underWay⟩

/-- **One turn**, with its records, at a moment when the stages answer as given. -/
inductive Step (answers : Answers) (K : Clients) : Turn → List Event → Clients → Prop where
  | request {c : Class} {a : Arguments} : K.Knows c →
      Step answers K (.request c a (K.world.request (c.answering answers)).value)
        (K.world.request (c.answering answers)).events
        (K.answered c a (K.world.request (c.answering answers)))
  | initializer {c : Class} {a : Arguments} {before after : List (Class × Arguments)}
      {r : Reply (Except InstantiateError Object)} : K.underWay = before ++ (c, a) :: after →
      K.world.runInitializer? c a = some r →
      Step answers K (.initializer c a) r.events ⟨K.constructed r, before ++ after⟩
  | unknown {name : String} : K.world.registry.find? name = none →
      Step answers K (.unknown name) [] K
  | act {action : Action} {events : List Event} {S : Session} : action.constructs = false →
      Session.Step K.toSession action events S → Step answers K (.act action) events ⟨S, K.underWay⟩

/-- **Runs of clients.**  `answers` says how the stages answer at each turn. -/
inductive Runs (answers : Nat → Answers) : Log → Clients → Prop where
  | start : Runs answers [] initial
  | step {log : Log} {K K' : Clients} {turn : Turn} {events : List Event} : Runs answers log K →
      Step (answers log.length) K turn events K' → Runs answers (log ++ [(turn, events)]) K'

end Clients

/-! ## 4. Sessions as clients -/

namespace Session

/-- How a failure is reported does not matter to the session. -/
theorem constructed_map_mapError {ε ε' : Type u} (S : Session) (r : Reply (Except ε Object))
    (f : ε → ε') : S.constructed (r.map fun result => result.mapError f) = S.constructed r := by
  obtain ⟨value, events, world⟩ := r
  cases value <;> rfl

/-- Constructing an object in one step takes one turn or two. -/
theorem exists_runs_of_instantiate? {log : Log} {S : Session} {c : Class} {a : Arguments}
    {r : Reply (Except InstantiateError Object)}
    (hrun : Clients.Runs (fun _ => .fixed) log ⟨S, []⟩) (hc : Clients.Knows ⟨S, []⟩ c)
    (h : S.world.instantiate? c a = some r) :
    ∃ log, Clients.Runs (fun _ => .fixed) log ⟨S.constructed r, []⟩ := by
  have hrequest := hrun.step (.request (a := a) hc)
  rw [c.answering_fixed] at hrequest
  rw [World.instantiate?_eq_request] at h
  cases hvalue : (S.world.request c).value with
  | error e =>
    simp only [hvalue, Option.some.injEq] at h
    subst h
    simp only [Clients.answered, hvalue] at hrequest
    exact ⟨_, hrequest⟩
  | ok _ =>
    simp only [hvalue] at h
    obtain ⟨done, hdone, rfl⟩ := Option.map_eq_some_iff.mp h
    simp only [Clients.answered, hvalue] at hrequest
    have honly : [(c, a)] = [] ++ (c, a) :: [] := rfl
    have hlast := hrequest.step (.initializer honly hdone)
    exact ⟨_, hlast⟩

/-- **What a session reaches, clients reach** that construct one object at a time. -/
theorem Reaches.exists_runs {S : Session} {actions : List (Action × List Event)}
    (h : initial.Reaches actions S) : ∃ log, Clients.Runs (fun _ => .fixed) log ⟨S, []⟩ := by
  induction h with
  | start => exact ⟨[], .start⟩
  | @step actions S S' action events _ hstep ih =>
    obtain ⟨log, hrun⟩ := ih
    cases hact : action.constructs with
    | false => exact ⟨_, hrun.step (.act hact hstep)⟩
    | true =>
      cases hstep with
      | instantiate hc hr => exact exists_runs_of_instantiate? hrun (Or.inl hc) hr
      | @instantiateNamed name a r hr =>
        obtain ⟨hunknown, rfl⟩ | ⟨c, r, hfound, hconstructed, rfl⟩ :=
          World.instantiateNamed?_cases hr
        · exact ⟨_, hrun.step (.unknown hunknown)⟩
        · rw [constructed_map_mapError]
          exact exists_runs_of_instantiate? hrun (Or.inr ⟨name, hfound⟩) hconstructed
      | _ => exact absurd hact Bool.false_ne_true

end Session

end MethodGuard
