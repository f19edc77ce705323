/-
# What one turn changes

A turn of a client marks a class exactly when that class's check is run and passed in it
(`Clients.Step.mem_checked_iff`), and it keeps the state sound (`Clients.Sound.step`): what is
under way and what has been constructed belongs to marked classes that are not abstract.  Reports,
checks asked for by hand, calls, building and registering mark nothing (`Session.Step.untouched`).

`SelfChecked` is a fact about a turn and its records alone, so that it can be told from the log of
a run afterwards.
-/
import MethodGuard.Proofs.World.Clients

namespace MethodGuard

/-! ## 1. What a check leaves in the records -/

/-- Whether the record says that a class passed its check. -/
def Event.isMethodsOk : Event → Bool
  | .methodsOk _ => true
  | _ => false

namespace Pipeline

variable {s : Shape} {checks : Pipeline}

/-- A check that is passed says so. -/
theorem methodsOk_mem_events (h : (ensure s checks).value = .ok ()) :
    .methodsOk s.name ∈ (ensure s checks).events := by
  induction checks with
  | nil => exact List.mem_singleton_self _
  | cons check rest ih =>
    rw [ensure] at h ⊢
    cases hfound : problems (check.run s).value with
    | nil =>
      simp only [hfound] at h ⊢
      exact List.mem_append_right _ (ih h)
    | cons e errors =>
      simp only [hfound] at h
      cases h

/-- When the stages do not say so themselves, it is said once, and only of a check passed. -/
theorem filter_isMethodsOk_events
    (hquiet : ∀ check ∈ checks, ∀ event ∈ (check.run s).events, event.isMethodsOk = false) :
    (ensure s checks).events.filter Event.isMethodsOk =
      match (ensure s checks).value with
      | .ok () => [.methodsOk s.name]
      | .error _ => [] := by
  induction checks with
  | nil => rfl
  | cons check rest ih =>
    have hhead : (check.run s).events.filter Event.isMethodsOk = [] :=
      List.filter_eq_nil_iff.mpr fun event hevent =>
        Bool.eq_false_iff.mp (hquiet check List.mem_cons_self event hevent)
    rw [ensure]
    cases hfound : problems (check.run s).value with
    | nil =>
      have hrest := ih fun check hcheck => hquiet check (List.mem_cons_of_mem _ hcheck)
      simpa only [Traced.after, List.filter_append, hhead, List.nil_append] using hrest
    | cons e errors => simpa only using hhead

end Pipeline

/-- The stages of a class never say themselves that a class passed its check. -/
def Answers.Quiet (answers : Answers) (c : Class) : Prop :=
  ∀ stage ∈ c.stages, ∀ event ∈ (answers stage c.toShape).events, event.isMethodsOk = false

theorem Class.filter_isMethodsOk_selfCheck {c : Class} {answers : Answers}
    (hquiet : answers.Quiet c) : (c.selfCheck answers).events.filter Event.isMethodsOk =
      match (c.selfCheck answers).value with
      | .ok () => [.methodsOk c.name]
      | .error _ => [] := by
  refine Pipeline.filter_isMethodsOk_events fun check hcheck event hevent => ?_
  rcases List.mem_append.mp hcheck with hstandard | hown
  · -- the standard checks leave no records
    have hnone : (check.run c.toShape).events = [] := by
      simp only [Check.standard, List.mem_cons, List.not_mem_nil, or_false] at hstandard
      rcases hstandard with rfl | rfl | rfl <;> rfl
    exact absurd (hnone ▸ hevent) List.not_mem_nil
  · simp only [answering, List.map_map, List.mem_map, Function.comp_apply] at hown
    obtain ⟨stage, hstage, rfl⟩ := hown
    exact hquiet stage hstage event hevent

/-! ## 2. A turn at which a class passes -/

/-- In a turn at which the stages answer as given, the class's check was run and passed. -/
structure SelfChecked (answers : Answers) (c : Class) (entry : Turn × List Event) : Prop where
  admitted : ∃ a, entry = (.request c a (.ok ()), (c.selfCheck answers).events)
  concrete : c.isAbstract = false
  passes : (c.selfCheck answers).value = .ok ()

section Turn

variable {answers : Answers} {c x : Class} {events : List Event}

theorem selfChecked_request_iff {a : Arguments} {answer : Except InstantiateError Unit} :
    SelfChecked answers x (.request c a answer, events) ↔ x = c ∧ c.isAbstract = false ∧
      answer = .ok () ∧ (c.selfCheck answers).value = .ok () ∧
      events = (c.selfCheck answers).events := by
  constructor
  · rintro ⟨⟨a', hentry⟩, hconcrete, hpasses⟩
    obtain ⟨hturn, rfl⟩ := Prod.mk.inj hentry
    cases hturn
    exact ⟨rfl, hconcrete, rfl, hpasses, rfl⟩
  · rintro ⟨rfl, hconcrete, rfl, hpasses, rfl⟩
    exact ⟨⟨a, rfl⟩, hconcrete, hpasses⟩

/-- A check that is passed leaves a record. -/
theorem not_selfChecked_of_nil {turn : Turn} : ¬ SelfChecked answers x (turn, []) := by
  rintro ⟨⟨a, hentry⟩, -, hpasses⟩
  have hnil : (x.selfCheck answers).events = [] := (Prod.mk.inj hentry).2.symm
  have hmem : Event.methodsOk x.name ∈ (x.selfCheck answers).events :=
    Pipeline.methodsOk_mem_events hpasses
  exact absurd (hnil ▸ hmem) List.not_mem_nil

end Turn

/-! ## 3. Admissions -/

namespace World

variable {w : World} {c : Class} {answers : Answers}

/-- Being admitted marks a class exactly when its check is run and passed, and no other class. -/
theorem mem_checked_request_iff (a : Arguments) {id : ClassId} :
    id ∈ (w.request (c.answering answers)).world.checked ↔ id ∈ w.checked ∨
      ∃ x, x.id = id ∧ SelfChecked answers x (.request c a (w.request (c.answering answers)).value,
        (w.request (c.answering answers)).events) := by
  cases habstract : c.isAbstract with
  | true =>
    rw [request_of_isAbstract habstract, or_iff_left]
    rintro ⟨x, -, hx⟩
    exact not_selfChecked_of_nil hx
  | false =>
    cases hchecked : w.isChecked c with
    | true =>
      rw [request_of_isChecked habstract hchecked, or_iff_left]
      rintro ⟨x, -, hx⟩
      exact not_selfChecked_of_nil hx
    | false =>
      cases hcheck : (c.selfCheck answers).value with
      | ok _ =>
        rw [request_of_passes habstract hchecked hcheck]
        simp [selfChecked_request_iff, habstract, hcheck, or_comm, eq_comm]
      | error e =>
        rw [request_of_error habstract hchecked hcheck]
        simp [selfChecked_request_iff]

/-- Being admitted changes nothing in the world but the marks. -/
theorem request_world (w : World) (c : Class) :
    (w.request c).world = { w with checked := (w.request c).world.checked } := by
  unfold request
  cases c.isAbstract with
  | true => rfl
  | false =>
    simp only [Bool.false_eq_true, if_false, Reply.map, ensureChecked]
    cases w.isChecked c with
    | true => rfl
    | false => cases (c.pipeline.ensure c.toShape).value <;> rfl

/-- Who is admitted is not abstract and marked from then on. -/
theorem isChecked_of_request (h : (w.request (c.answering answers)).value = .ok ()) :
    c.isAbstract = false ∧ (w.request (c.answering answers)).world.isChecked c = true := by
  have hadmission := w.admission c answers
  rw [h] at hadmission
  rw [isChecked_iff]
  generalize hevents : (w.request (c.answering answers)).events = events at hadmission
  cases hadmission with
  | held habstract hmarked =>
    exact ⟨habstract, (mem_checked_request_iff .empty).mpr (Or.inl (isChecked_iff.mp hmarked))⟩
  | passed habstract _ hpasses =>
    refine ⟨habstract, (mem_checked_request_iff .empty).mpr (Or.inr ⟨c, rfl, ?_⟩)⟩
    exact selfChecked_request_iff.mpr ⟨rfl, habstract, h, hpasses, hevents⟩

end World

/-! ## 4. Other actions -/

namespace Session

/-- What one thing that is done in a session leaves of it when no object is constructed. -/
structure Untouched (S S' : Session) : Prop where
  classes : ∀ c ∈ S.classes, c ∈ S'.classes
  checked : S'.world.checked = S.world.checked
  objects : ∀ o ∈ S'.objects, ∃ o' ∈ S.objects, o.cls = o'.cls ∧ o.selfValidated = o'.selfValidated

variable {S S' : Session} {action : Action} {events : List Event}

theorem untouched_update {o o' : Object} (ho : o ∈ S.objects) (hcls : o'.cls = o.cls)
    (hvalidated : o'.selfValidated = o.selfValidated) : S.Untouched (S.update o') := by
  refine ⟨fun c hc => hc, rfl, fun x hx => ?_⟩
  obtain ⟨y, hy, rfl⟩ := List.mem_map.mp hx
  split
  · exact ⟨o, ho, hcls, hvalidated⟩
  · exact ⟨y, hy, rfl, rfl⟩

/-- **Whatever else is done in a session marks no class** and constructs no object. -/
theorem Step.untouched (hstep : S.Step action events S') (hact : action.constructs = false) :
    S.Untouched S' := by
  have hsame : ∀ o ∈ S.objects, ∃ o' ∈ S.objects, o.cls = o'.cls ∧
      o.selfValidated = o'.selfValidated := fun o ho => ⟨o, ho, rfl, rfl⟩
  cases hstep with
  | define hbases =>
    refine ⟨fun c hc => List.mem_append_right _ hc, ?_, hsame⟩
    rw [World.define_world]
  | call ho hcall =>
    obtain ⟨done, -, rfl⟩ := Option.map_eq_some_iff.mp hcall
    exact untouched_update ho rfl rfl
  | assign ho => exact untouched_update ho rfl rfl
  | ensure | report | reportNamed | register | unregister => exact ⟨fun c hc => hc, rfl, hsame⟩
  | instantiate | instantiateNamed => cases hact

end Session

/-! ## 5. All turns -/

namespace Clients

variable {answers : Answers} {K K' : Clients} {turn : Turn} {events : List Event} {c : Class}

/-- **A turn marks a class exactly when that class's check is run and passed in it.** -/
theorem Step.mem_checked_iff (hstep : Step answers K turn events K') {id : ClassId} :
    id ∈ K'.world.checked ↔ id ∈ K.world.checked ∨
      ∃ x, x.id = id ∧ SelfChecked answers x (turn, events) := by
  cases hstep with
  | request => exact World.mem_checked_request_iff _
  | initializer _ hr =>
    rw [or_iff_left]
    · exact iff_of_eq (congrArg (id ∈ ·.checked) (World.runInitializer?_spec hr).1)
    · rintro ⟨x, -, ⟨a, hentry⟩, -, -⟩
      cases hentry
  | unknown =>
    rw [or_iff_left]
    rintro ⟨x, -, hx⟩
    exact not_selfChecked_of_nil hx
  | act hact hstep =>
    rw [or_iff_left]
    · rw [(hstep.untouched hact).checked]
    · rintro ⟨x, -, ⟨a, hentry⟩, -, -⟩
      cases hentry

/-- What every turn keeps of the state: constructions are under way, and objects are there, of
marked classes only that are not abstract. -/
structure Sound (K : Clients) : Prop where
  founded : K.toSession.Founded
  underWay : ∀ p ∈ K.underWay, p.1 ∈ K.classes ∧ p.1.isAbstract = false ∧ p.1.id ∈ K.world.checked
  objects : ∀ o ∈ K.objects, o.cls ∈ K.classes ∧ o.cls.isAbstract = false ∧
    o.cls.id ∈ K.world.checked ∧ o.selfValidated = true

theorem sound_initial : initial.Sound where
  founded := Session.founded_initial
  underWay := fun _ hp => nomatch hp
  objects := fun _ ho => nomatch ho

/-- A class that a client can get hold of is one that was built. -/
theorem Sound.mem_of_knows (h : K.Sound) (hc : K.Knows c) : c ∈ K.classes := by
  rcases hc with hc | ⟨name, hname⟩
  · exact hc
  · exact h.founded.mem_of_find? hname

theorem Sound.request (h : K.Sound) {a : Arguments} (hc : K.Knows c) :
    (K.answered c a (K.world.request (c.answering answers))).Sound := by
  have hworld := K.world.request_world (c.answering answers)
  have hmarked : ∀ id ∈ K.world.checked,
      id ∈ (K.world.request (c.answering answers)).world.checked :=
    fun id hid => (World.mem_checked_request_iff a).mpr (Or.inl hid)
  have hold : ∀ p ∈ K.underWay, p.1 ∈ K.classes ∧ p.1.isAbstract = false ∧
      p.1.id ∈ (K.world.request (c.answering answers)).world.checked := by
    intro p hp
    obtain ⟨hcls, habstract, hid⟩ := h.underWay p hp
    exact ⟨hcls, habstract, hmarked _ hid⟩
  have hbuilt := congrArg World.built hworld
  have hregistry := congrArg World.registry hworld
  refine ⟨h.founded.inWorld hbuilt hregistry _, fun p hp => ?_, fun o ho => ?_⟩
  · cases hvalue : (K.world.request (c.answering answers)).value with
    | error e =>
      simp only [answered, hvalue] at hp
      exact hold p hp
    | ok _ =>
      simp only [answered, hvalue] at hp
      rcases List.mem_cons.mp hp with rfl | hp
      · obtain ⟨habstract, hchecked⟩ := World.isChecked_of_request hvalue
        exact ⟨h.mem_of_knows hc, habstract, World.isChecked_iff.mp hchecked⟩
      · exact hold p hp
  · obtain ⟨hcls, habstract, hid, hvalidated⟩ := h.objects o ho
    exact ⟨hcls, habstract, hmarked _ hid, hvalidated⟩

theorem Sound.initializer (h : K.Sound) {a : Arguments} {before after : List (Class × Arguments)}
    {r : Reply (Except InstantiateError Object)} (hunder : K.underWay = before ++ (c, a) :: after)
    (hr : K.world.runInitializer? c a = some r) :
    Sound ⟨K.constructed r, before ++ after⟩ := by
  obtain ⟨hworld, hvalue⟩ := World.runInitializer?_spec hr
  have hchecked : r.world.checked = K.world.checked := by rw [hworld]
  have hbuilt := congrArg World.built hworld
  have hregistry := congrArg World.registry hworld
  refine ⟨h.founded.inWorld hbuilt hregistry _, fun p hp => ?_, fun o ho => ?_⟩
  · have hp' : p ∈ K.underWay := by
      rw [hunder]
      rcases List.mem_append.mp hp with hp | hp
      · exact List.mem_append_left _ hp
      · exact List.mem_append_right _ (List.mem_cons_of_mem _ hp)
    exact hchecked ▸ h.underWay p hp'
  · rcases List.mem_append.mp ho with hnew | hold
    · have hmem : (c, a) ∈ K.underWay := hunder ▸ List.mem_append_right _ List.mem_cons_self
      obtain ⟨hcls, habstract, hid⟩ := h.underWay _ hmem
      obtain ⟨e, he⟩ | ⟨e, he⟩ | ⟨fields, hobject⟩ := hvalue
      · simp [he, Except.toOption] at hnew
      · simp [he, Except.toOption] at hnew
      · simp only [hobject, Except.toOption, Option.toList_some, List.mem_singleton] at hnew
        subst hnew
        exact ⟨hcls, habstract, hchecked ▸ hid, rfl⟩
    · exact hchecked ▸ h.objects o hold

theorem Sound.act (h : K.Sound) {action : Action} {S : Session} (hact : action.constructs = false)
    (hstep : Session.Step K.toSession action events S) : Sound ⟨S, K.underWay⟩ := by
  have hkept := hstep.untouched hact
  refine ⟨hstep.founded h.founded, fun p hp => ?_, fun o ho => ?_⟩
  · obtain ⟨hcls, habstract, hid⟩ := h.underWay p hp
    exact ⟨hkept.classes _ hcls, habstract, hkept.checked ▸ hid⟩
  · obtain ⟨o', ho', hsame, hvalidated⟩ := hkept.objects o ho
    obtain ⟨hcls, habstract, hid, hvalid⟩ := h.objects o' ho'
    rw [← hsame] at hcls habstract hid
    exact ⟨hkept.classes _ hcls, habstract, hkept.checked ▸ hid, hvalidated.trans hvalid⟩

/-- **Every turn keeps the state sound.** -/
theorem Sound.step (h : K.Sound) (hstep : Step answers K turn events K') : K'.Sound := by
  cases hstep with
  | request hc => exact h.request hc
  | initializer hunder hr => exact h.initializer hunder hr
  | unknown => exact h
  | act hact haction => exact h.act hact haction

theorem Step.classes_subset (hstep : Step answers K turn events K') : ∀ x ∈ K.classes,
    x ∈ K'.classes := by
  cases hstep with
  | act hact haction => exact (haction.untouched hact).classes
  | request | initializer | unknown => exact fun x hx => hx

end Clients

end MethodGuard
