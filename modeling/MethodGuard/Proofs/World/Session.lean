/-
# Sessions

A session is the world together with the classes and objects that clients hold.  What clients can
do to it is an `Action`, one step each; `Reaches` is any number of steps in any order, with the
records of each.  Since a step leaves nothing half done, these are also all the ways in which the
actions of several clients can be interleaved.

Everything that is said of all reachable states goes through one invariant, `Session.Valid`: the
classes are those of a build history (`Founded`, which is all that clients sharing a session need
of it), a class counts as checked only if it passes its check, and objects are those of classes
that are not abstract and pass their check.  Each step keeps it (`Step.valid`), so every run does
(`Reaches.valid`).
-/
import MethodGuard.Proofs.Call.Run
import MethodGuard.Proofs.Class.History
import MethodGuard.Proofs.OrderedMap
import MethodGuard.Proofs.World.Construction

namespace MethodGuard

/-- One more element is the last one, whichever way the list is cut. -/
theorem append_singleton_eq_append_cons_iff {α : Type u} {list before after : List α} {x y : α} :
    list ++ [x] = before ++ y :: after ↔ (after = [] ∧ list = before ∧ x = y) ∨
      ∃ after', after = after' ++ [x] ∧ list = before ++ y :: after' := by
  constructor
  · intro h
    rcases List.eq_nil_or_concat after with rfl | ⟨after', z, rfl⟩
    · obtain ⟨hlist, hx⟩ := List.append_inj' h rfl
      exact Or.inl ⟨rfl, hlist, List.singleton_inj.mp hx⟩
    · rw [List.concat_eq_append, ← List.cons_append, ← List.append_assoc] at h
      obtain ⟨hlist, hx⟩ := List.append_inj' h rfl
      obtain rfl := List.singleton_inj.mp hx
      exact Or.inr ⟨after', List.concat_eq_append, hlist⟩
  · rintro (⟨rfl, rfl, rfl⟩ | ⟨after', rfl, rfl⟩)
    · rfl
    · rw [List.append_assoc, List.cons_append]

/-- Building changes nothing in the world but the number of classes built. -/
theorem World.define_world (w : World) (d : Definition) :
    (w.define d).world = { w with built := (w.define d).world.built } := by
  unfold World.define
  cases Class.define w.built d <;> rfl

/-! ## 1. Steps and runs -/

/-- The world, and what clients hold of it. -/
structure Session where
  world : World
  classes : List Class
  objects : List Object

/-- What a client can do. -/
inductive Action where
  | define (d : Definition)
  | instantiate (c : Class) (a : Arguments)
  | instantiateNamed (name : String) (a : Arguments)
  | call (o : Object) (name : String) (a : Arguments)
  | assign (o : Object) (field : String) (value : Value)
  | ensure (checks : Pipeline) (c : Class)
  | report (checks : Pipeline) (c : Class)
  | reportNamed (name : String)
  | register (c : Class)
  | unregister (name : String)

namespace Session

/-- Nothing built and nothing constructed. -/
def initial : Session := ⟨.initial, [], []⟩

/-- The session with an object in its new state. -/
def update (S : Session) (o : Object) : Session :=
  { S with objects := S.objects.map fun x => if x.id = o.id then o else x }

/-- The session in another world, with what has come of an attempt to construct an object. -/
def constructed {ε : Type u} (S : Session) (r : Reply (Except ε Object)) : Session :=
  ⟨r.world, S.classes, r.value.toOption.toList ++ S.objects⟩

/-- **One step of a session**, with its records.  A step that fails is a step too. -/
inductive Step (S : Session) : Action → List Event → Session → Prop where
  | define {d : Definition} : (∀ b ∈ d.bases, b ∈ S.classes) →
      Step S (.define d) (S.world.define d).events
        ⟨(S.world.define d).world, (S.world.define d).value.toOption.toList ++ S.classes, S.objects⟩
  | instantiate {c : Class} {a : Arguments} {r : Reply (Except InstantiateError Object)} :
      c ∈ S.classes → S.world.instantiate? c a = some r →
      Step S (.instantiate c a) r.events (S.constructed r)
  | instantiateNamed {name : String} {a : Arguments} {r : Reply (Except EngineError Object)} :
      S.world.instantiateNamed? name a = some r →
      Step S (.instantiateNamed name a) r.events (S.constructed r)
  | call {o : Object} {name : String} {a : Arguments}
      {t : Traced (Except CallError Value × Object)} : o ∈ S.objects → o.call name a = some t →
      Step S (.call o name a) t.events (S.update t.value.2)
  | assign {o : Object} {field : String} {value : Value} : o ∈ S.objects →
      Step S (.assign o field value) [] (S.update (o.set field value))
  | ensure {checks : Pipeline} {c : Class} : c ∈ S.classes →
      Step S (.ensure checks c) (checks.ensure c.toShape).events S
  | report {checks : Pipeline} {c : Class} : c ∈ S.classes →
      Step S (.report checks c) (checks.report c.toShape).events S
  | reportNamed {name : String} :
      Step S (.reportNamed name) (S.world.reportNamed name).events S
  | register {c : Class} : c ∈ S.classes →
      Step S (.register c) (S.world.register c).events
        { S with world := (S.world.register c).world }
  | unregister {name : String} :
      Step S (.unregister name) (S.world.unregister name).events
        { S with world := (S.world.unregister name).world }

/-- **Runs** from a session to another: the actions in order, each with its records. -/
inductive Reaches (S : Session) : List (Action × List Event) → Session → Prop where
  | start : Reaches S [] S
  | step {log : List (Action × List Event)} {S' S'' : Session} {action : Action}
      {events : List Event} : Reaches S log S' → Step S' action events S'' →
      Reaches S (log ++ [(action, events)]) S''

/-- What every step keeps, every run keeps. -/
theorem Reaches.invariant {P : Session → Prop}
    (hstep : ∀ {S action events S'}, P S → Step S action events S' → P S') {S S' : Session}
    {log : List (Action × List Event)} (hrun : Reaches S log S') (h : P S) : P S' := by
  induction hrun with
  | start => exact h
  | step _ hlast ih => exact hstep ih hlast

/-! ## 2. What a session rests on -/

/-- What a session rests on: its classes are those of a build history, counted by the world, and
registered classes are among them. -/
structure Founded (S : Session) : Prop where
  history : History S.classes
  built : S.world.built = S.classes.length
  registered : ∀ entry ∈ S.world.registry.classes.entries, entry.2 ∈ S.classes

theorem founded_initial : initial.Founded where
  history := .start
  built := rfl
  registered := fun _ hentry => nomatch hentry

namespace Founded

variable {S : Session}

/-- A class that is found by its name was built. -/
theorem mem_of_find? (h : S.Founded) {name : String} {c : Class}
    (hfound : S.world.registry.find? name = some c) : c ∈ S.classes :=
  h.registered _ (OrderedMap.mem_entries_of_find? hfound)

/-- Only the count and the registry of the world matter, and no objects. -/
theorem inWorld (h : S.Founded) {w : World} (hbuilt : w.built = S.world.built)
    (hregistry : w.registry = S.world.registry) (objects : List Object) :
    Founded ⟨w, S.classes, objects⟩ where
  history := h.history
  built := hbuilt.trans h.built
  registered := fun entry hentry => h.registered entry (hregistry ▸ hentry)

theorem define (h : S.Founded) {d : Definition} (hbases : ∀ b ∈ d.bases, b ∈ S.classes) :
    Founded ⟨(S.world.define d).world, (S.world.define d).value.toOption.toList ++ S.classes,
      S.objects⟩ := by
  unfold World.define
  rw [h.built]
  cases hdefine : Class.define S.classes.length d with
  | error e => exact h
  | ok c =>
    refine ⟨h.history.build hbases hdefine, rfl, fun entry hentry => ?_⟩
    exact List.mem_cons_of_mem c (h.registered entry hentry)

theorem constructed (h : S.Founded) {ε : Type u} {c : Class} {a : Arguments}
    {r : Reply (Except InstantiateError Object)} (hr : S.world.instantiate? c a = some r)
    {r' : Reply (Except ε Object)} (hworld : r'.world = r.world) : (S.constructed r').Founded := by
  obtain ⟨hbuilt, hregistry, -⟩ := (World.instantiate?_eq_some_iff.mp hr).spec
  rw [← hworld] at hbuilt hregistry
  exact h.inWorld hbuilt hregistry _

theorem register (h : S.Founded) {c : Class} (hc : c ∈ S.classes) :
    Founded { S with world := (S.world.register c).world } := by
  refine ⟨h.history, h.built, fun entry hentry => ?_⟩
  rcases OrderedMap.mem_entries_insert hentry with rfl | hold
  · exact hc
  · exact h.registered entry hold

theorem unregister (h : S.Founded) (name : String) :
    Founded { S with world := (S.world.unregister name).world } where
  history := h.history
  built := h.built
  registered := fun entry hentry => h.registered entry (List.mem_filter.mp hentry).1

end Founded

/-- **Every step keeps what a session rests on.** -/
theorem Step.founded {S S' : Session} {action : Action} {events : List Event} (h : S.Founded)
    (hstep : Step S action events S') : S'.Founded := by
  cases hstep with
  | define hbases => exact h.define hbases
  | instantiate _ hr => exact h.constructed hr rfl
  | instantiateNamed hr =>
    obtain ⟨-, rfl⟩ | ⟨c, r, -, hconstructed, rfl⟩ := World.instantiateNamed?_cases hr
    · exact h
    · exact h.constructed hconstructed rfl
  | call | assign => exact h.inWorld rfl rfl _
  | ensure | report | reportNamed => exact h
  | register hc => exact h.register hc
  | unregister => exact h.unregister _

/-! ## 3. The invariant -/

/-- **What holds of every session that can be reached.** -/
structure Valid (S : Session) : Prop extends Founded S where
  checked : ∀ id ∈ S.world.checked, ∃ c ∈ S.classes, c.id = id ∧ c.Passes
  objects : ∀ o ∈ S.objects, o.cls ∈ S.classes ∧ o.cls.isAbstract = false ∧ o.cls.Passes

theorem valid_initial : initial.Valid where
  toFounded := founded_initial
  checked := fun _ hid => nomatch hid
  objects := fun _ ho => nomatch ho

namespace Valid

variable {S : Session}

/-- A class that counts as checked passes its check. -/
theorem passes_of_checked (h : S.Valid) {c : Class} (hc : c ∈ S.classes)
    (hid : c.id ∈ S.world.checked) : c.Passes := by
  obtain ⟨c', hc', hsame, hpasses⟩ := h.checked c.id hid
  exact h.history.eq_of_id_eq hc' hc hsame ▸ hpasses

theorem define (h : S.Valid) {d : Definition} (hbases : ∀ b ∈ d.bases, b ∈ S.classes) :
    Valid ⟨(S.world.define d).world, (S.world.define d).value.toOption.toList ++ S.classes,
      S.objects⟩ := by
  refine ⟨h.toFounded.define hbases, fun id hid => ?_, fun o ho => ?_⟩
  · rw [World.define_world] at hid
    obtain ⟨c, hc, hrest⟩ := h.checked id hid
    exact ⟨c, List.mem_append_right _ hc, hrest⟩
  · obtain ⟨hcls, hrest⟩ := h.objects o ho
    exact ⟨List.mem_append_right _ hcls, hrest⟩

/-- Constructing an object of a class keeps the invariant, whatever comes of it and however that is
reported. -/
theorem constructed (h : S.Valid) {ε : Type u} {c : Class} {a : Arguments} (hc : c ∈ S.classes)
    {r : Reply (Except InstantiateError Object)} (hr : S.world.instantiate? c a = some r)
    {r' : Reply (Except ε Object)} (hworld : r'.world = r.world)
    (hvalue : ∀ o, r'.value = .ok o → r.value = .ok o) : (S.constructed r').Valid := by
  obtain ⟨-, -, hchecked, hobject⟩ := (World.instantiate?_eq_some_iff.mp hr).spec
  rw [← hworld] at hchecked
  refine ⟨h.toFounded.constructed hr hworld, fun id hid => ?_, fun o ho => ?_⟩
  · rcases hchecked id hid with hid | ⟨rfl, hpasses⟩
    · exact h.checked id hid
    · exact ⟨c, hc, rfl, hpasses⟩
  · rcases List.mem_append.mp ho with hnew | hold
    · have hnew' : r'.value = .ok o := by
        cases hresult : r'.value <;> simp_all [Except.toOption]
      obtain ⟨rfl, habstract, hpasses⟩ := hobject o (hvalue o hnew')
      exact ⟨hc, habstract, hpasses.elim (h.passes_of_checked hc) id⟩
    · exact h.objects o hold

theorem constructedNamed (h : S.Valid) {name : String} {a : Arguments}
    {r : Reply (Except EngineError Object)} (hr : S.world.instantiateNamed? name a = some r) :
    (S.constructed r).Valid := by
  obtain ⟨-, rfl⟩ | ⟨c, r, hfound, hconstructed, rfl⟩ := World.instantiateNamed?_cases hr
  · exact h
  · exact h.constructed (h.mem_of_find? hfound) hconstructed rfl
      fun o ho => mapError_eq_ok_iff.mp ho

/-- An object in a new state is still one of its class. -/
theorem update (h : S.Valid) {o o' : Object} (ho : o ∈ S.objects) (hcls : o'.cls = o.cls) :
    (S.update o').Valid := by
  refine ⟨h.toFounded.inWorld rfl rfl _, h.checked, fun x hx => ?_⟩
  obtain ⟨y, hy, rfl⟩ := List.mem_map.mp hx
  split
  · exact hcls ▸ h.objects o ho
  · exact h.objects y hy

theorem register (h : S.Valid) {c : Class} (hc : c ∈ S.classes) :
    Valid { S with world := (S.world.register c).world } :=
  ⟨h.toFounded.register hc, h.checked, h.objects⟩

theorem unregister (h : S.Valid) (name : String) :
    Valid { S with world := (S.world.unregister name).world } :=
  ⟨h.toFounded.unregister name, h.checked, h.objects⟩

end Valid

theorem cls_of_call {o : Object} {name : String} {a : Arguments}
    {t : Traced (Except CallError Value × Object)} (h : o.call name a = some t) :
    t.value.2.cls = o.cls := by
  obtain ⟨done, -, rfl⟩ := Option.map_eq_some_iff.mp h
  rfl

/-- **Every step keeps the invariant.** -/
theorem Step.valid {S S' : Session} {action : Action} {events : List Event} (h : S.Valid)
    (hstep : Step S action events S') : S'.Valid := by
  cases hstep with
  | define hbases => exact h.define hbases
  | instantiate hc hr => exact h.constructed hc hr rfl fun _ ho => ho
  | instantiateNamed hr => exact h.constructedNamed hr
  | call ho hcall => exact h.update ho (cls_of_call hcall)
  | assign ho => exact h.update ho rfl
  | ensure => exact h
  | report => exact h
  | reportNamed => exact h
  | register hc => exact h.register hc
  | unregister => exact h.unregister _

/-- **The invariant holds after every run.** -/
theorem Reaches.valid {S : Session} {log : List (Action × List Event)}
    (hrun : initial.Reaches log S) : S.Valid :=
  hrun.invariant Step.valid valid_initial

/-! ## 4. Runs that build -/

/-- The session in which the classes of a history have been built and nothing else has been
done. -/
def building (classes : List Class) : Session := ⟨⟨classes.length, 0, [], .empty⟩, classes, []⟩

/-- Building a class is a step of a session that has only built. -/
theorem step_building {classes : List Class} {d : Definition} {c : Class}
    (hbases : ∀ b ∈ d.bases, b ∈ classes) (hdefine : Class.define classes.length d = .ok c) :
    Step (building classes) (.define d) [c.builtEvent] (building (c :: classes)) := by
  have hreply : (building classes).world.define d =
      ⟨.ok c, [c.builtEvent], (building (c :: classes)).world⟩ := by
    simp only [World.define, building, hdefine]
    rfl
  have hstep : Step (building classes) (.define d) _ _ := .define hbases
  rw [hreply] at hstep
  exact hstep

/-- **Every build history is that of a run.** -/
theorem exists_reaches_building {classes : List Class} (h : History classes) :
    ∃ log, initial.Reaches log (building classes) := by
  induction h with
  | start => exact ⟨[], .start⟩
  | build _ hbases hdefine ih =>
    obtain ⟨log, hrun⟩ := ih
    exact ⟨_, hrun.step (step_building hbases hdefine)⟩

/-- **After building, any class without initializer that passes its check can have an object.** -/
theorem exists_reaches_first_object {classes : List Class} {c : Class} (h : History classes)
    (hc : c ∈ classes) (habstract : c.isAbstract = false) (hinit : c.initializer = none)
    (hpasses : c.Passes) : ∃ log, initial.Reaches log
      ⟨⟨classes.length, 1, [c.id], .empty⟩, classes, [⟨0, c, .empty, true⟩]⟩ := by
  obtain ⟨log, hrun⟩ := exists_reaches_building h
  have hobject : World.runInitializer? ⟨classes.length, 0, [c.id], .empty⟩ c .empty =
      some ⟨.ok ⟨0, c, .empty, true⟩, [], ⟨classes.length, 1, [c.id], .empty⟩⟩ := by
    rw [World.runInitializer?, hinit]
    rfl
  have hfirst : World.Construction (building classes).world c .empty _ :=
    .first habstract rfl hpasses hobject
  have hreached := hrun.step (.instantiate hc (World.instantiate?_eq_some_iff.mpr hfirst))
  exact ⟨_, hreached⟩

end Session

end MethodGuard
