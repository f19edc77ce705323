/-
# The registry is a map of names

Registering a class puts it in the place of the class of its name or else last, and unregistering a
name leaves the others where they are.  What a registry holds after any number of such actions, on
any classes, can be told from the actions: a name stands for the class registered under it last, if
the name has not been taken out since (`StandsFor`), and the names are in the order in which they
came in (`EnteredAt`), which each of them has done once (`EnteredAt.unique`).

`MapsNames` says so of a registry and of everything that can be asked of it by name, and holds
whatever has been done (`mapsNames_after`).
-/
import Mathlib.Data.List.Induction
import MethodGuard.Proofs.World.Registration

namespace MethodGuard

namespace Registry

variable {actions : List Action} {name : String} {c : Class} {i j : Nat}

/-! ## 1. What a name stands for -/

/-- **The class that a name stands for**: the one registered under it last, and the name has not
been taken out since. -/
def StandsFor (actions : List Action) (name : String) (c : Class) : Prop :=
  Registered actions c ∧ c.name = name

/-- A name under which a class was registered stands for one, unless it is taken out: each further
registration only puts another class in the place. -/
theorem exists_standsFor (before : List Action) {after : List Action}
    (hkept : .unregister c.name ∉ after) :
    ∃ other, StandsFor (before ++ .register c :: after) c.name other := by
  induction after using List.reverseRecOn with
  | nil => exact ⟨c, ⟨before, [], rfl, by simp⟩, rfl⟩
  | append_singleton after action ih =>
    rw [List.mem_append, List.mem_singleton, not_or] at hkept
    obtain ⟨other, hother, hname⟩ := ih hkept.1
    rw [← List.cons_append, ← List.append_assoc]
    by_cases htouched : action.Touches c.name
    · cases action with
      | register next => exact ⟨next, registered_concat_iff.mpr (.inl rfl), htouched⟩
      | unregister taken => exact absurd (congrArg Action.unregister htouched.symm) hkept.2
      | _ => exact htouched.elim
    · rw [← hname] at htouched
      exact ⟨other, registered_concat_iff.mpr (.inr ⟨hother, htouched⟩), hname⟩

/-! ## 2. When a name came in -/

/-- A name that has come in and has not been taken out does not come in again. -/
theorem EnteredAt.not_lt (h : EnteredAt actions name i) (h' : EnteredAt actions name j) :
    ¬ i < j := by
  intro hlt
  obtain ⟨before, c, after, rfl, rfl, rfl, -, hkept⟩ := h
  obtain ⟨before', c', after', hcut, rfl, -, hnew, -⟩ := h'
  -- the later place is past the earlier one, and the name stands for a class up to there
  obtain ⟨between, rfl, hrest⟩ : ∃ between, before' = before ++ .register c :: between ∧
      after = between ++ .register c' :: after' := by
    rcases List.append_eq_append_iff.mp hcut with ⟨rest, rfl, hrest⟩ | ⟨rest, rfl, -⟩
    · cases rest with
      | nil => simp at hlt
      | cons action between =>
        obtain ⟨rfl, hafter⟩ := List.cons.inj hrest
        exact ⟨between, rfl, hafter⟩
    · rw [List.length_append] at hlt
      omega
  have hbetween : Action.unregister c.name ∉ between := fun hmem =>
    hkept (hrest ▸ List.mem_append_left _ hmem)
  obtain ⟨other, hother, hname⟩ := exists_standsFor before hbetween
  exact hnew other hother hname

theorem EnteredAt.unique (h : EnteredAt actions name i) (h' : EnteredAt actions name j) : i = j :=
  Nat.le_antisymm (Nat.le_of_not_lt (h'.not_lt h)) (Nat.le_of_not_lt (h.not_lt h'))

/-! ## 3. What a registry says of names -/

/-- **A registry is the map of names that the actions led to.** -/
structure MapsNames (r : Registry) (actions : List Action) : Prop where
  /-- Every class is under its own name. -/
  keyed : ∀ entry ∈ r.classes.entries, entry.2.name = entry.1
  /-- No name is there twice. -/
  nodup : r.names.Nodup
  /-- The names that are there are those that stand for a class. -/
  mem_names_iff : ∀ name, name ∈ r.names ↔ ∃ c, StandsFor actions name c
  /-- Each of them came in once, -/
  entered : ∀ name ∈ r.names, ∃! i, EnteredAt actions name i
  /-- and they are in the order in which they came in. -/
  ordered : r.names.Pairwise fun a b =>
    ∃ i j, EnteredAt actions a i ∧ EnteredAt actions b j ∧ i < j
  size_eq : r.size = r.names.length
  /-- A class of a known name takes the place of the other one, and a new name goes last. -/
  names_register : ∀ c : Class,
    (r.register c).names = if c.name ∈ r.names then r.names else r.names ++ [c.name]
  /-- The names that are left stay in their order. -/
  names_unregister : ∀ name, (r.unregister name).names = r.names.filter fun other => other ≠ name
  /-- A look-up finds the class that the name stands for, -/
  find?_iff : ∀ name c, r.find? name = some c ↔ StandsFor actions name c
  contains_iff : ∀ name, r.contains name = true ↔ ∃ c, StandsFor actions name c
  /-- and unregistering tells whether there is one. -/
  unregister_iff : ∀ (w : World) (name : String), w.registry = r →
    ((w.unregister name).value = true ↔ ∃ c, StandsFor actions name c)
  /-- Objects constructed by name are those of the class that the name stands for. -/
  instantiate : ∀ (w : World) (name : String) (a : Arguments), w.registry = r →
    (∀ c, StandsFor actions name c → w.instantiateNamed? name a =
      (w.instantiate? c a).map fun reply => reply.map fun result => result.mapError .instantiate) ∧
    ((¬ ∃ c, StandsFor actions name c) →
      w.instantiateNamed? name a = some ⟨.error (.unknownClass name), [], w⟩)
  /-- A report by name is that of the class that the name stands for. -/
  report : ∀ (w : World) (name : String), w.registry = r →
    (∀ c, StandsFor actions name c →
      w.reportNamed name = (c.pipeline.report c.toShape).map .ok) ∧
    ((¬ ∃ c, StandsFor actions name c) →
      w.reportNamed name = .pure (.error (.unknownClass name)))

namespace Tracks

variable {r : Registry} (h : r.Tracks actions)
include h

theorem find?_eq_none_iff : r.find? name = none ↔ ¬ ∃ c, StandsFor actions name c := by
  rw [← Option.not_isSome_iff_eq_none, Option.isSome_iff_exists]
  exact not_congr (exists_congr (h.registered name))

theorem contains_iff : r.contains name = true ↔ ∃ c, StandsFor actions name c :=
  OrderedMap.contains_iff.trans h.mem_names_iff

theorem mapsNames : r.MapsNames actions where
  keyed := fun _ hentry => (h.mem_entries_iff.mp hentry).2
  nodup := h.nodup
  mem_names_iff := fun _ => h.mem_names_iff
  entered := fun name hname => by
    obtain ⟨i, hi⟩ := h.entered name hname
    exact ⟨i, hi, fun _ hj => hj.unique hi⟩
  ordered := h.ordered
  size_eq := by rw [size, names, OrderedMap.size, OrderedMap.keys, List.length_map]
  names_register := fun c => OrderedMap.keys_insert _ _ _
  names_unregister := fun name => by
    rw [Registry.unregister, names, OrderedMap.keys_erase]
    simp only [names, ne_eq, decide_not, beq_eq_decide]
  find?_iff := h.registered
  contains_iff := fun _ => h.contains_iff
  unregister_iff := fun w name hw => by
    rw [World.unregister, hw]
    exact h.contains_iff
  instantiate := fun w name a hw => by
    constructor
    · intro c hc
      simp only [World.instantiateNamed?, hw, (h.registered name c).mpr hc]
    · intro hnone
      simp only [World.instantiateNamed?, hw, h.find?_eq_none_iff.mpr hnone]
  report := fun w name hw => by
    constructor
    · intro c hc
      simp only [World.reportNamed, hw, (h.registered name c).mpr hc]
    · intro hnone
      simp only [World.reportNamed, hw, h.find?_eq_none_iff.mpr hnone]

end Tracks

/-- Actions, whatever they are, keep the registry in step. -/
theorem tracks_foldl_after (actions : List Action) :
    (actions.foldl Registry.after .empty).Tracks actions := by
  induction actions using List.reverseRecOn with
  | nil => exact tracks_empty
  | append_singleton actions action ih =>
    rw [List.foldl_append, List.foldl_cons, List.foldl_nil]
    exact ih.after action

/-- **The registry is a map of names, whatever has been done**: after any actions on any classes,
and so in every session that can be reached, whatever else has been done there. -/
theorem mapsNames_after :
    (∀ actions : List Action, (actions.foldl Registry.after .empty).MapsNames actions) ∧
    ∀ (S : Session) (log : List (Action × List Event)), Session.initial.Reaches log S →
      S.world.registry.MapsNames (log.map Prod.fst) :=
  ⟨fun actions => (tracks_foldl_after actions).mapsNames, fun _ _ hrun => hrun.tracks.mapsNames⟩

/-- The diamond, where two classes of one name have been registered. -/
theorem mapsNames_after_diamond : ∃ log, Session.initial.Reaches log Diamond.registered ∧
    Diamond.registered.world.registry.MapsNames (log.map Prod.fst) := by
  obtain ⟨log, hrun⟩ := Diamond.exists_reaches_registered
  exact ⟨log, hrun, mapsNames_after.2 _ log hrun⟩

/-- A name that comes in again after it was taken out goes last. -/
example : ([.register Diamond.plain, .register Diamond.bottom, .register Diamond.marking,
    .unregister "Side", .register Diamond.plain].foldl Registry.after .empty).names =
      ["Shape", "Side"] := rfl

end Registry

end MethodGuard
