/-
# What the registry says of a run

The registry keeps one class under each name: the one registered last.  Registering a name again
puts the new class in the old one's place, so the order of the registry is that in which its names
came in, which is not always that in which its classes were registered.

`Registered` and `EnteredAt` say both in terms of the actions of a run alone, and `Tracks` says that a
registry agrees with them; every action keeps it (`Tracks.after`).  Of the list of subclasses it
follows what it holds and in which order (`Session.Reaches.subclasses_reported`).  Old and new classes
may share a name, and the new one need not derive from what the old one derived from: that the list
does not mix them up rests on each class being registered under its own name.
-/
import MethodGuard.Proofs.Class.Subclass
import MethodGuard.Proofs.World.Session

namespace MethodGuard

open Relation

/-! ## 1. What is done to a name -/

/-- The action registers a class of the name, or takes the name out. -/
def Action.Touches (name : String) : Action → Prop
  | .register c => c.name = name
  | .unregister other => other = name
  | _ => False

namespace Registry

section Actions

variable {actions : List Action} {action : Action} {name : String} {c : Class} {i : Nat}

/-- **The class is registered**: it has been, and nothing has been done to its name since. -/
def Registered (actions : List Action) (c : Class) : Prop :=
  ∃ before after, actions = before ++ .register c :: after ∧
    ∀ action ∈ after, ¬ action.Touches c.name

/-- **The name came in with action `i`**: a class was registered under it, when there was none, and
the name has not been taken out since. -/
def EnteredAt (actions : List Action) (name : String) (i : Nat) : Prop :=
  ∃ before c after, actions = before ++ .register c :: after ∧ before.length = i ∧ c.name = name ∧
    (∀ other, Registered before other → other.name ≠ name) ∧ .unregister name ∉ after

/-- A further action registers the class, or leaves it registered. -/
theorem registered_concat_iff : Registered (actions ++ [action]) c ↔
    action = .register c ∨ Registered actions c ∧ ¬ action.Touches c.name := by
  simp only [Registered, append_singleton_eq_append_cons_iff]
  constructor
  · rintro ⟨before, after, ⟨-, -, hlast⟩ | ⟨after', rfl, hcut⟩, hafter⟩
    · exact Or.inl hlast
    · obtain ⟨hkept, hlast⟩ := List.forall_mem_append.mp hafter
      exact Or.inr ⟨⟨before, after', hcut, hkept⟩, hlast action (List.mem_singleton_self _)⟩
  · rintro (rfl | ⟨⟨before, after, hcut, hafter⟩, hlast⟩)
    · exact ⟨actions, [], Or.inl ⟨rfl, rfl, rfl⟩, by simp⟩
    · refine ⟨before, after ++ [action], Or.inr ⟨after, rfl, hcut⟩, ?_⟩
      exact List.forall_mem_append.mpr ⟨hafter, List.forall_mem_singleton.mpr hlast⟩

/-- What has come in stays where it is, unless it is taken out. -/
theorem EnteredAt.concat (h : EnteredAt actions name i) (haction : action ≠ .unregister name) :
    EnteredAt (actions ++ [action]) name i := by
  obtain ⟨before, c, after, rfl, hlength, hname, hnew, hafter⟩ := h
  refine ⟨before, c, after ++ [action], by simp, hlength, hname, hnew, fun hmem => ?_⟩
  rcases List.mem_append.mp hmem with hmem | hmem
  · exact hafter hmem
  · exact haction (List.mem_singleton.mp hmem).symm

/-- A name that is not there comes in with the next registration. -/
theorem enteredAt_length (h : ∀ other, Registered actions other → other.name ≠ c.name) :
    EnteredAt (actions ++ [.register c]) c.name actions.length :=
  ⟨actions, c, [], rfl, rfl, rfl, h, List.not_mem_nil⟩

theorem EnteredAt.lt_length (h : EnteredAt actions name i) : i < actions.length := by
  obtain ⟨before, c, after, rfl, rfl, -⟩ := h
  simp

end Actions

/-! ## 2. Registries and the actions that led to them -/

/-- The registry after an action. -/
def after (r : Registry) : Action → Registry
  | .register c => r.register c
  | .unregister name => r.unregister name
  | _ => r

/-- **What the registry has to do with the actions that led to it.** -/
structure Tracks (r : Registry) (actions : List Action) : Prop where
  nodup : r.names.Nodup
  /-- A look-up finds what is registered. -/
  registered : ∀ name c, r.find? name = some c ↔ Registered actions c ∧ c.name = name
  entered : ∀ name ∈ r.names, ∃ i, EnteredAt actions name i
  /-- Names are listed in the order in which they came in. -/
  ordered : r.names.Pairwise fun a b =>
    ∃ i j, EnteredAt actions a i ∧ EnteredAt actions b j ∧ i < j

namespace Tracks

variable {r : Registry} {actions : List Action} {name : String} {c : Class}

theorem mem_names_iff (h : r.Tracks actions) :
    name ∈ r.names ↔ ∃ c, Registered actions c ∧ c.name = name := by
  have hfound : (r.find? name).isSome = true ↔ name ∈ r.names := OrderedMap.find?_isSome_iff _ _
  rw [← hfound, Option.isSome_iff_exists]
  exact exists_congr (h.registered name)

/-- Actions that take none of the names out leave their order as it is. -/
theorem order_concat (h : r.Tracks actions) {names : List String} (hnames : names.Sublist r.names)
    {action : Action} (haction : ∀ name ∈ names, action ≠ .unregister name) :
    (∀ name ∈ names, ∃ i, EnteredAt (actions ++ [action]) name i) ∧
      names.Pairwise fun a b => ∃ i j, EnteredAt (actions ++ [action]) a i ∧
        EnteredAt (actions ++ [action]) b j ∧ i < j := by
  refine ⟨fun name hname => ?_, (h.ordered.sublist hnames).imp_of_mem fun {a b} ha hb hab => ?_⟩
  · obtain ⟨i, hi⟩ := h.entered name (hnames.subset hname)
    exact ⟨i, hi.concat (haction name hname)⟩
  · obtain ⟨i, j, hi, hj, hlt⟩ := hab
    exact ⟨i, j, hi.concat (haction a ha), hj.concat (haction b hb), hlt⟩

theorem register (h : r.Tracks actions) (c : Class) :
    (r.register c).Tracks (actions ++ [.register c]) := by
  have hkept : ∀ name ∈ r.names, Action.register c ≠ .unregister name := fun _ _ => nofun
  obtain ⟨hentered, hordered⟩ := h.order_concat (List.Sublist.refl _) hkept
  have hnames : (r.register c).names = if c.name ∈ r.names then r.names else r.names ++ [c.name] :=
    OrderedMap.keys_insert _ _ _
  have hregistered (name : String) (other : Class) : (r.register c).find? name = some other ↔
      Registered (actions ++ [.register c]) other ∧ other.name = name := by
    have hfound : (r.register c).find? name = if name = c.name then some c else r.find? name :=
      OrderedMap.find?_insert _ _ _ _
    rw [hfound, registered_concat_iff]
    by_cases hname : name = c.name
    · rw [if_pos hname, Option.some.injEq]
      constructor
      · rintro rfl
        exact ⟨Or.inl rfl, hname.symm⟩
      · rintro ⟨hsame | ⟨-, hnot⟩, hother⟩
        · exact Action.register.inj hsame
        · exact absurd (hname.symm.trans hother.symm) hnot
    · rw [if_neg hname, h.registered]
      constructor
      · rintro ⟨hother, rfl⟩
        exact ⟨Or.inr ⟨hother, Ne.symm hname⟩, rfl⟩
      · rintro ⟨hsame | ⟨hother, -⟩, rfl⟩
        · exact absurd (congrArg (·.name) (Action.register.inj hsame)).symm hname
        · exact ⟨hother, rfl⟩
  by_cases hknown : c.name ∈ r.names
  · rw [if_pos hknown] at hnames
    exact ⟨hnames ▸ h.nodup, hregistered, hnames ▸ hentered, hnames ▸ hordered⟩
  · rw [if_neg hknown] at hnames
    have hnew : EnteredAt (actions ++ [.register c]) c.name actions.length :=
      enteredAt_length fun other hother hname => hknown (h.mem_names_iff.mpr ⟨other, hother, hname⟩)
    refine ⟨OrderedMap.nodup_keys_insert h.nodup _ _, hregistered, ?_, ?_⟩
    · rw [hnames]
      exact List.forall_mem_append.mpr ⟨hentered, List.forall_mem_singleton.mpr ⟨_, hnew⟩⟩
    · rw [hnames, List.pairwise_append]
      refine ⟨hordered, List.pairwise_singleton _ _, fun a ha b hb => ?_⟩
      obtain rfl := List.mem_singleton.mp hb
      obtain ⟨i, hi⟩ := h.entered a ha
      exact ⟨i, actions.length, hi.concat nofun, hnew, hi.lt_length⟩

theorem unregister (h : r.Tracks actions) (name : String) :
    (r.unregister name).Tracks (actions ++ [.unregister name]) := by
  have hnames : (r.unregister name).names = r.names.filter fun other => !(other == name) :=
    OrderedMap.keys_erase _ _
  have hothers : ∀ other ∈ r.names.filter fun other => !(other == name),
      Action.unregister name ≠ .unregister other := by
    intro other hother hsame
    obtain rfl := Action.unregister.inj hsame
    simp at hother
  obtain ⟨hentered, hordered⟩ := h.order_concat List.filter_sublist hothers
  refine ⟨OrderedMap.nodup_keys_erase h.nodup _, fun other c => ?_, hnames ▸ hentered,
    hnames ▸ hordered⟩
  have hfound : (r.unregister name).find? other = if other = name then none else r.find? other :=
    OrderedMap.find?_erase _ _ _
  rw [hfound, registered_concat_iff]
  by_cases hother : other = name
  · rw [if_pos hother]
    refine iff_of_false nofun ?_
    rintro ⟨hsame | ⟨-, hnot⟩, hname⟩
    · cases hsame
    · exact hnot (hother.symm.trans hname.symm)
  · rw [if_neg hother, h.registered]
    constructor
    · rintro ⟨hc, rfl⟩
      exact ⟨Or.inr ⟨hc, Ne.symm hother⟩, rfl⟩
    · rintro ⟨hsame | ⟨hc, -⟩, hname⟩
      · cases hsame
      · exact ⟨hc, hname⟩

/-- Actions that touch no name change nothing. -/
theorem idle (h : r.Tracks actions) {action : Action} (haction : ∀ name, ¬ action.Touches name) :
    r.Tracks (actions ++ [action]) := by
  have hkept : ∀ name, action ≠ .unregister name := by
    rintro name rfl
    exact haction name rfl
  obtain ⟨hentered, hordered⟩ := h.order_concat (List.Sublist.refl _) fun name _ => hkept name
  refine ⟨h.nodup, fun name c => ?_, hentered, hordered⟩
  rw [h.registered, registered_concat_iff]
  refine and_congr_left fun _ => ⟨fun hc => Or.inr ⟨hc, haction _⟩, ?_⟩
  rintro (rfl | ⟨hc, -⟩)
  · exact absurd rfl (haction c.name)
  · exact hc

/-- **Every action keeps it.** -/
theorem after (h : r.Tracks actions) (action : Action) :
    (r.after action).Tracks (actions ++ [action]) := by
  cases action with
  | register c => exact h.register c
  | unregister name => exact h.unregister name
  | _ => exact h.idle fun _ => id

/-- The registered classes, each under its own name. -/
theorem mem_entries_iff (h : r.Tracks actions) :
    (name, c) ∈ r.classes.entries ↔ Registered actions c ∧ c.name = name :=
  (OrderedMap.find?_eq_some_iff_mem h.nodup).symm.trans (h.registered name c)

theorem mem_toList_iff (h : r.Tracks actions) : c ∈ r.toList ↔ Registered actions c := by
  rw [toList, OrderedMap.values, List.mem_map]
  constructor
  · rintro ⟨⟨name, _⟩, hentry, rfl⟩
    exact (h.mem_entries_iff.mp hentry).1
  · exact fun hc => ⟨(c.name, c), h.mem_entries_iff.mpr ⟨hc, rfl⟩, rfl⟩

theorem map_name_toList (h : r.Tracks actions) : r.toList.map (·.name) = r.names := by
  rw [toList, OrderedMap.values, names, OrderedMap.keys, List.map_map]
  exact List.map_congr_left fun entry hentry => (h.mem_entries_iff.mp hentry).2

end Tracks

theorem tracks_empty : empty.Tracks [] where
  nodup := List.nodup_nil
  registered := fun name c => by
    refine iff_of_false nofun ?_
    rintro ⟨⟨before, after, hcut, -⟩, -⟩
    cases before <;> cases hcut
  entered := nofun
  ordered := .nil

end Registry

/-! ## 3. Registries of sessions -/

namespace Session

open Registry

variable {S S' : Session} {action : Action} {events : List Event} {log : List (Action × List Event)}

/-- **A step does to the registry what its action says**, and nothing else. -/
theorem Step.registry_eq (hstep : Step S action events S') :
    S'.world.registry = S.world.registry.after action := by
  cases hstep with
  | define =>
    rw [World.define_world]
    rfl
  | instantiate _ hr => exact (World.instantiate?_eq_some_iff.mp hr).spec.2.1
  | instantiateNamed hr =>
    obtain ⟨-, rfl⟩ | ⟨c, r, -, hconstructed, rfl⟩ := World.instantiateNamed?_cases hr
    · rfl
    · exact (World.instantiate?_eq_some_iff.mp hconstructed).spec.2.1
  | _ => rfl

/-- **The registry agrees with the actions of the run**, whatever these were. -/
theorem Reaches.tracks (hrun : initial.Reaches log S) :
    S.world.registry.Tracks (log.map Prod.fst) := by
  induction hrun with
  | start => exact tracks_empty
  | step _ hlast ih =>
    rw [hlast.registry_eq, List.map_append]
    exact ih.after _

end Session

/-! ## 4. The list of subclasses -/

namespace Registry

/-- **What the list of subclasses of a name should be**, in terms of the actions of a run and of the
direct-base steps among the classes that were built.  `base` is the class of the name. -/
structure ListsSubclasses (r : Registry) (actions : List Action) (classes : List Class)
    (name : String) (base : Class) : Prop where
  /-- The class of the name is the one registered under it. -/
  base_registered : Registered actions base ∧ base.name = name
  /-- The list holds the registered classes below that class, itself not included. -/
  mem_iff : ∀ c, c ∈ r.subclassesOf name ↔
    Registered actions c ∧ c ≠ base ∧ ReflTransGen (DirectBase classes) c base
  /-- No class is listed twice. -/
  once : ((r.subclassesOf name).map (·.id)).Nodup
  /-- They are listed in the order in which their names came in. -/
  ordered : (r.subclassesOf name).Pairwise fun x y =>
    ∃ i j, EnteredAt actions x.name i ∧ EnteredAt actions y.name j ∧ i < j
  /-- The subclasses of a listed class are listed. -/
  nested : ∀ x ∈ r.subclassesOf name, ∀ y ∈ r.subclassesOf x.name, y ∈ r.subclassesOf name

variable {r : Registry} {actions : List Action} {classes : List Class} {name : String}
  {base c : Class}

theorem subclassesOf_eq (hbase : r.find? name = some base) : r.subclassesOf name =
    r.toList.filter fun c => !(c.id == base.id) && c.isSubclassOf base.toShape := by
  rw [subclassesOf, hbase]

namespace Tracks

section History

variable (h : r.Tracks actions) (hhistory : History classes)
  (hbuilt : ∀ c, Registered actions c → c ∈ classes)
include h hhistory hbuilt

theorem mem_subclassesOf_iff (hbase : r.find? name = some base) : c ∈ r.subclassesOf name ↔
    Registered actions c ∧ c ≠ base ∧ ReflTransGen (DirectBase classes) c base := by
  obtain ⟨hregistered, -⟩ := (h.registered name base).mp hbase
  rw [subclassesOf_eq hbase, List.mem_filter, h.mem_toList_iff]
  refine and_congr_right fun hc => ?_
  have hid : c.id = base.id ↔ c = base :=
    ⟨hhistory.eq_of_id_eq (hbuilt c hc) (hbuilt base hregistered), fun hsame => hsame ▸ rfl⟩
  have horder := hhistory.isSubclassOf_iff (hbuilt c hc) (hbuilt base hregistered)
  rw [Bool.and_eq_true, Bool.not_eq_true', beq_eq_false_iff_ne, Ne, hid, horder]

/-- **What is below a listed class is below the class of the name**, and is not that class: two
classes that derive from each other are one. -/
theorem subclassesOf_subset (hbase : r.find? name = some base) {x y : Class}
    (hx : x ∈ r.subclassesOf name) (hy : y ∈ r.subclassesOf x.name) : y ∈ r.subclassesOf name := by
  obtain ⟨hregistered, hne, hbelow⟩ :=
    (h.mem_subclassesOf_iff hhistory hbuilt hbase).mp hx
  have hown : r.find? x.name = some x := (h.registered x.name x).mpr ⟨hregistered, rfl⟩
  obtain ⟨hy, -, hyx⟩ := (h.mem_subclassesOf_iff hhistory hbuilt hown).mp hy
  refine (h.mem_subclassesOf_iff hhistory hbuilt hbase).mpr ⟨hy, ?_, hyx.trans hbelow⟩
  rintro rfl
  exact hne (hhistory.eq_of_reflTransGen hbelow hyx)

/-- **The list of subclasses is what it should be.** -/
theorem listsSubclasses (hbase : r.find? name = some base) :
    r.ListsSubclasses actions classes name base := by
  have hsublist : (r.subclassesOf name).Sublist r.toList := by
    rw [subclassesOf_eq hbase]
    exact List.filter_sublist
  have hnames : (r.toList.map (·.name)).Nodup := h.map_name_toList ▸ h.nodup
  have hordered : (r.toList.map (·.name)).Pairwise fun a b =>
      ∃ i j, EnteredAt actions a i ∧ EnteredAt actions b j ∧ i < j := h.map_name_toList ▸ h.ordered
  refine {
    base_registered := (h.registered name base).mp hbase
    mem_iff := fun c => h.mem_subclassesOf_iff hhistory hbuilt hbase
    once := ?_
    ordered := (List.pairwise_map.mp hordered).sublist hsublist
    nested := fun x hx y hy => h.subclassesOf_subset hhistory hbuilt hbase hx hy }
  refine List.Nodup.sublist (hsublist.map _) ?_
  refine List.Nodup.map_on (fun x hx y hy hid => ?_) (hnames.of_map _)
  exact hhistory.eq_of_id_eq (hbuilt x (h.mem_toList_iff.mp hx)) (hbuilt y (h.mem_toList_iff.mp hy))
    hid

end History

end Tracks

end Registry

/-! ## 5. A registered diamond -/

namespace Diamond

/-- The session after the diamond has been built and three of its classes have been registered: one
side, the bottom, and then the other side, which takes the first one's place. -/
def registered : Session :=
  ⟨⟨4, 0, [], ⟨⟨[("Side", marking), ("Shape", bottom)]⟩⟩⟩, bottom :: sides, []⟩

theorem exists_reaches_registered : ∃ log, Session.initial.Reaches log registered := by
  obtain ⟨log, hrun⟩ := Session.exists_reaches_building history
  have hplain : plain ∈ bottom :: sides := List.mem_of_getElem? (i := 2) rfl
  have hbottom : bottom ∈ bottom :: sides := List.mem_cons_self
  have hmarking : marking ∈ bottom :: sides := List.mem_of_getElem? (i := 1) rfl
  have hregistered :=
    ((hrun.step (.register hplain)).step (.register hbottom)).step (.register hmarking)
  exact ⟨_, hregistered⟩

end Diamond

/-! ## 6. Sessions -/

namespace Session

open Registry

/-- **The subclass relation is a partial order, and the registry reports it.**  In every session that
can be reached, a class derives from those that direct-base steps lead to, an object is an instance
of the classes that its class derives from, and the subclasses that are listed for a registered name
are the registered classes below the class of the name, each once, in the order in which their names
came in. -/
theorem Reaches.subclasses_reported {S : Session} {log : List (Action × List Event)}
    (hrun : initial.Reaches log S) :
    SubclassOrder S.classes ∧
    (∀ o ∈ S.objects, ∀ c ∈ S.classes,
      o.isInstanceOf c = true ↔ ReflTransGen (DirectBase S.classes) o.cls c) ∧
    ∀ name base, S.world.registry.find? name = some base →
      S.world.registry.ListsSubclasses (log.map Prod.fst) S.classes name base := by
  have hvalid := hrun.valid
  have htracks := hrun.tracks
  have hbuilt : ∀ c, Registered (log.map Prod.fst) c → c ∈ S.classes := fun c hc =>
    hvalid.registered (c.name, c) (htracks.mem_entries_iff.mpr ⟨hc, rfl⟩)
  refine ⟨hvalid.history.subclassOrder, fun o ho c hc => ?_, fun name base hbase => ?_⟩
  · exact hvalid.history.isSubclassOf_iff (hvalid.objects o ho).1 hc
  · exact htracks.listsSubclasses hvalid.history hbuilt hbase

/-- In the diamond the side that is registered last stands where the other one stood. -/
theorem subclasses_reported_diamond : ∃ log, initial.Reaches log Diamond.registered ∧
    SubclassOrder Diamond.registered.classes ∧
    (∀ o ∈ Diamond.registered.objects, ∀ c ∈ Diamond.registered.classes, o.isInstanceOf c = true ↔
      ReflTransGen (DirectBase Diamond.registered.classes) o.cls c) ∧
    ∀ name base, Diamond.registered.world.registry.find? name = some base →
      Diamond.registered.world.registry.ListsSubclasses (log.map Prod.fst)
        Diamond.registered.classes name base := by
  obtain ⟨log, hrun⟩ := Diamond.exists_reaches_registered
  exact ⟨log, hrun, hrun.subclasses_reported⟩

/-- The bottom derives from it. -/
example : (Diamond.registered.world.registry.subclassesOf "Side").map (·.name) = ["Shape"] := rfl

end Session

end MethodGuard
