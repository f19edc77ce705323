/-
# What constructing an object comes to

`World.instantiate?` goes through up to three phases: abstract classes are turned away, the class's
structural check is run unless it has passed before, and the initializer is run.  `Construction`
has one rule for each way through them, with all that each way needs, and is the same as the
function (`World.instantiate?_eq_some_iff`).
-/
import MethodGuard.World.Basic

namespace MethodGuard

/-- The class passes its own structural check. -/
def Class.Passes (c : Class) : Prop := (c.pipeline.ensure c.toShape).value = .ok ()

namespace World

variable {w : World} {c : Class} {a : Arguments}

theorem isChecked_iff : w.isChecked c = true ↔ c.id ∈ w.checked := by
  simp [isChecked]

/-! ## 1. The initializer -/

/-- Whatever comes of it, running the initializer uses up one identity and changes nothing else in
the world; an object that comes of it is a new one of the class. -/
theorem runInitializer?_spec {r : Reply (Except InstantiateError Object)}
    (h : w.runInitializer? c a = some r) : r.world = { w with begun := w.begun + 1 } ∧
      ((∃ e, r.value = .error (.bind c.name e)) ∨ (∃ e, r.value = .error (.init e)) ∨
        ∃ fields, r.value = .ok ⟨w.begun, c, fields, true⟩) := by
  simp only [runInitializer?] at h
  cases hinit : c.initializer with
  | none =>
    rw [hinit] at h
    cases hbind : Signature.empty.bind a with
    | error e =>
      rw [hbind] at h
      cases h
      exact ⟨rfl, Or.inl ⟨e, rfl⟩⟩
    | ok bound =>
      rw [hbind] at h
      cases h
      exact ⟨rfl, Or.inr (Or.inr ⟨.empty, rfl⟩)⟩
  | some init =>
    simp only [hinit] at h
    cases hbind : init.signature.bind a with
    | error e =>
      simp only [hbind] at h
      cases h
      exact ⟨rfl, Or.inl ⟨e, rfl⟩⟩
    | ok bound =>
      simp only [hbind, Object.perform, Option.map_map, Option.map_eq_some_iff,
        Function.comp_apply] at h
      obtain ⟨⟨e | value, fields, events⟩, -, rfl⟩ := h
      · exact ⟨rfl, Or.inr (Or.inl ⟨e, rfl⟩)⟩
      · exact ⟨rfl, Or.inr (Or.inr ⟨fields, rfl⟩)⟩

/-- An object that comes of an initializer is one of the class. -/
theorem cls_of_runInitializer? {r : Reply (Except InstantiateError Object)}
    (h : w.runInitializer? c a = some r) {o : Object} (ho : r.value = .ok o) : o.cls = c := by
  rcases (runInitializer?_spec h).2 with ⟨e, he⟩ | ⟨e, he⟩ | ⟨fields, hobject⟩
  · cases he.symm.trans ho
  · cases he.symm.trans ho
  · cases hobject.symm.trans ho
    rfl

/-! ## 2. All phases -/

/-- **The ways of constructing an object.** -/
inductive Construction (w : World) (c : Class) (a : Arguments) :
    Reply (Except InstantiateError Object) → Prop where
  | isAbstract : c.isAbstract = true →
      Construction w c a ⟨.error (.abstract c.name c.abstractNames), [], w⟩
  | unsound {e : StructureError} : c.isAbstract = false → w.isChecked c = false →
      (c.pipeline.ensure c.toShape).value = .error e →
      Construction w c a ⟨.error (.structural e), (c.pipeline.ensure c.toShape).events, w⟩
  | first {r : Reply (Except InstantiateError Object)} : c.isAbstract = false →
      w.isChecked c = false → c.Passes →
      World.runInitializer? { w with checked := c.id :: w.checked } c a = some r →
      Construction w c a ⟨r.value, (c.pipeline.ensure c.toShape).events ++ r.events, r.world⟩
  | again {r : Reply (Except InstantiateError Object)} : c.isAbstract = false →
      w.isChecked c = true → w.runInitializer? c a = some r → Construction w c a r

theorem ensureChecked_of_isChecked (h : w.isChecked c = true) :
    w.ensureChecked c = ⟨.ok (), [], w⟩ := by
  rw [ensureChecked, if_pos h]

theorem ensureChecked_of_error {e : StructureError} (h : w.isChecked c = false)
    (herror : (c.pipeline.ensure c.toShape).value = .error e) :
    w.ensureChecked c = ⟨.error e, (c.pipeline.ensure c.toShape).events, w⟩ := by
  simp only [ensureChecked, h, Bool.false_eq_true, if_false, herror]

theorem ensureChecked_of_passes (h : w.isChecked c = false) (hpasses : c.Passes) :
    w.ensureChecked c = ⟨.ok (), (c.pipeline.ensure c.toShape).events,
      { w with checked := c.id :: w.checked }⟩ := by
  unfold Class.Passes at hpasses
  simp only [ensureChecked, h, Bool.false_eq_true, if_false, hpasses]

theorem construction_of_instantiate? {r : Reply (Except InstantiateError Object)}
    (h : w.instantiate? c a = some r) : Construction w c a r := by
  unfold instantiate? at h
  cases habstract : c.isAbstract with
  | true =>
    simp only [habstract, if_true] at h
    cases h
    exact .isAbstract habstract
  | false =>
    simp only [habstract, Bool.false_eq_true, if_false] at h
    cases hchecked : w.isChecked c with
    | true =>
      simp only [ensureChecked_of_isChecked hchecked, List.nil_append] at h
      obtain ⟨r', hr, rfl⟩ := Option.map_eq_some_iff.mp h
      exact .again habstract hchecked hr
    | false =>
      cases hensure : (c.pipeline.ensure c.toShape).value with
      | error e =>
        simp only [ensureChecked_of_error hchecked hensure] at h
        cases h
        exact .unsound habstract hchecked hensure
      | ok _ =>
        simp only [ensureChecked_of_passes hchecked hensure] at h
        obtain ⟨r', hr, rfl⟩ := Option.map_eq_some_iff.mp h
        exact .first habstract hchecked hensure hr

/-- Constructing an object is going one of these ways. -/
theorem instantiate?_eq_some_iff {r : Reply (Except InstantiateError Object)} :
    w.instantiate? c a = some r ↔ Construction w c a r := by
  refine ⟨construction_of_instantiate?, fun h => ?_⟩
  cases h with
  | isAbstract habstract => rw [instantiate?, if_pos habstract]
  | unsound habstract hchecked hensure =>
    simp [instantiate?, habstract, ensureChecked_of_error hchecked hensure]
  | first habstract hchecked hpasses hr =>
    simp [instantiate?, habstract, ensureChecked_of_passes hchecked hpasses, hr]
  | again habstract hchecked hr =>
    simp [instantiate?, habstract, ensureChecked_of_isChecked hchecked, hr]

/-- **What constructing an object leaves of the world**, and what the object is. -/
theorem Construction.spec {r : Reply (Except InstantiateError Object)}
    (h : Construction w c a r) : r.world.built = w.built ∧ r.world.registry = w.registry ∧
      (∀ id ∈ r.world.checked, id ∈ w.checked ∨ id = c.id ∧ c.Passes) ∧
      ∀ o, r.value = .ok o → o.cls = c ∧ c.isAbstract = false ∧ (c.id ∈ w.checked ∨ c.Passes) := by
  cases h with
  | isAbstract => exact ⟨rfl, rfl, fun id hid => Or.inl hid, fun o ho => nomatch ho⟩
  | unsound => exact ⟨rfl, rfl, fun id hid => Or.inl hid, fun o ho => nomatch ho⟩
  | @first r habstract hchecked hpasses hr =>
    rw [(runInitializer?_spec hr).1]
    refine ⟨rfl, rfl, fun id hid => ?_, fun o ho => ?_⟩
    · rcases List.mem_cons.mp hid with rfl | hid
      · exact Or.inr ⟨rfl, hpasses⟩
      · exact Or.inl hid
    · exact ⟨cls_of_runInitializer? hr ho, habstract, Or.inr hpasses⟩
  | again habstract hchecked hr =>
    rw [(runInitializer?_spec hr).1]
    refine ⟨rfl, rfl, fun id hid => Or.inl hid, fun o ho => ?_⟩
    exact ⟨cls_of_runInitializer? hr ho, habstract, Or.inl (isChecked_iff.mp hchecked)⟩

/-- Constructing by name is constructing an object of the class of that name; without one, nothing
happens. -/
theorem instantiateNamed?_cases {name : String} {r : Reply (Except EngineError Object)}
    (h : w.instantiateNamed? name a = some r) :
    (w.registry.find? name = none ∧ r = ⟨.error (.unknownClass name), [], w⟩) ∨
      ∃ c r', w.registry.find? name = some c ∧ w.instantiate? c a = some r' ∧
        r = r'.map fun result => result.mapError .instantiate := by
  unfold instantiateNamed? at h
  cases hfound : w.registry.find? name with
  | none =>
    rw [hfound] at h
    cases h
    exact Or.inl ⟨rfl, rfl⟩
  | some c =>
    simp only [hfound] at h
    obtain ⟨r', hr', rfl⟩ := Option.map_eq_some_iff.mp h
    exact Or.inr ⟨c, r', rfl, hr', rfl⟩

end World

end MethodGuard
