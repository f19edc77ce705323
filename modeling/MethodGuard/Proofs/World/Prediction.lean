/-
# What a report says of constructing objects

A report goes through all checks of a class, constructing an object stops at the first problem, and
a class that has passed before is not checked again at all.  A report taken at any moment of any
run foretells nevertheless what constructing an object comes to (`Prediction`): whether it is turned
away as abstract, refused for a structural problem and for which one, or gets to the initializer.

For a single run of the checks this is `Pipeline.Agrees`, by induction on the checks.  For a class
that counts as checked it is the invariant of runs: such a class has passed its check at some turn,
and where its stages answer the same every time it would pass now.
-/
import MethodGuard.Proofs.Call.Guarded
import MethodGuard.Proofs.World.OneTimeCheck

namespace MethodGuard

namespace Pipeline

/-! ## 1. Stopping and collecting -/

/-- **The two ways of running checks agree on a class**: one succeeds exactly when the other finds
nothing, and fails with the first problem that the other finds. -/
structure Agrees (checks : Pipeline) (s : Shape) : Prop where
  ok_iff : (checks.ensure s).value = .ok () ↔ (checks.report s).value.findings = []
  error_iff : ∀ e, (checks.ensure s).value = .error e ↔
    (checks.report s).value.findings.head?.map Prod.snd = some e

variable {s : Shape}

theorem ensure_eq_error_iff {checks : Pipeline} {e : StructureError} :
    (ensure s checks).value = .error e ↔ (findings s checks).value.head?.map Prod.snd = some e := by
  induction checks with
  | nil => simp [ensure, findings, Traced.pure]
  | cons check rest ih =>
    rw [findings_cons, ensure]
    cases hfound : problems (check.run s).value with
    | nil => simpa [Traced.after] using ih
    | cons e' errors => simp

theorem agrees (checks : Pipeline) (s : Shape) : checks.Agrees s :=
  ⟨ensure_eq_ok_iff, fun _ => ensure_eq_error_iff⟩

end Pipeline

/-! ## 2. What constructing comes to -/

theorem Report.canInstantiate_iff {R : Report} :
    R.canInstantiate = true ↔ R.abstractNames = [] ∧ R.findings = [] := by
  simp [canInstantiate, success, and_comm]

theorem Shape.isAbstract_iff {s : Shape} : s.isAbstract = true ↔ s.abstractNames ≠ [] := by
  simp [isAbstract]

namespace World

/-- Constructing an object comes to an error. -/
def FailsWith (w : World) (c : Class) (a : Arguments) (e : InstantiateError) : Prop :=
  ∃ events w', w.instantiate? c a = some ⟨.error e, events, w'⟩

/-- Constructing an object gets to the initializer: the class is admitted, and the rest is what the
initializer comes to in the world after that. -/
def ReachesInitializer (w : World) (c : Class) (a : Arguments) : Prop :=
  (w.request c).value = .ok () ∧ w.instantiate? c a =
    ((w.request c).world.runInitializer? c a).map fun r =>
      { r with events := (w.request c).events ++ r.events }

variable {w : World} {c : Class} {a : Arguments}

theorem FailsWith.unique {e e' : InstantiateError} (h : w.FailsWith c a e)
    (h' : w.FailsWith c a e') : e = e' := by
  obtain ⟨events, w₁, h⟩ := h
  obtain ⟨events', w₂, h'⟩ := h'
  rw [h] at h'
  cases h'
  rfl

/-- What an initializer fails with is its own. -/
theorem ReachesInitializer.failsWith (h : w.ReachesInitializer c a) {e : InstantiateError}
    (he : w.FailsWith c a e) : (∃ cause, e = .bind c.name cause) ∨ ∃ cause, e = .init cause := by
  obtain ⟨-, h⟩ := h
  obtain ⟨events, w', he⟩ := he
  rw [h] at he
  obtain ⟨r, hr, hreply⟩ := Option.map_eq_some_iff.mp he
  have hvalue : r.value = .error e := congrArg Reply.value hreply
  rcases (runInitializer?_spec hr).2 with ⟨cause, hcause⟩ | ⟨cause, hcause⟩ | ⟨fields, hobject⟩
  · exact Or.inl ⟨cause, Except.error.inj (hvalue.symm.trans hcause)⟩
  · exact Or.inr ⟨cause, Except.error.inj (hvalue.symm.trans hcause)⟩
  · cases hvalue.symm.trans hobject

/-- Who gets to the initializer is refused for neither reason. -/
theorem ReachesInitializer.not_refused (h : w.ReachesInitializer c a) :
    (∀ name names, ¬ w.FailsWith c a (.abstract name names)) ∧
      ∀ e, ¬ w.FailsWith c a (.structural e) := by
  constructor
  · intro name names he
    rcases h.failsWith he with ⟨cause, hcause⟩ | ⟨cause, hcause⟩ <;> cases hcause
  · intro e he
    rcases h.failsWith he with ⟨cause, hcause⟩ | ⟨cause, hcause⟩ <;> cases hcause

theorem failsWith_of_isAbstract (h : c.isAbstract = true) :
    w.FailsWith c a (.abstract c.name c.abstractNames) :=
  ⟨[], w, instantiate?_eq_some_iff.mpr (.isAbstract h)⟩

theorem failsWith_of_error {e : StructureError} (habstract : c.isAbstract = false)
    (hchecked : w.isChecked c = false) (he : (c.pipeline.ensure c.toShape).value = .error e) :
    w.FailsWith c a (.structural e) :=
  ⟨_, w, instantiate?_eq_some_iff.mpr (.unsound habstract hchecked he)⟩

/-- A class that passes its check is initialized, and so is one that has passed it. -/
theorem reachesInitializer_of_passes (habstract : c.isAbstract = false) (hpasses : c.Passes) :
    w.ReachesInitializer c a := by
  have hconcrete : ¬ c.isAbstract = true := fun h => Bool.false_ne_true (habstract.symm.trans h)
  have hrequest : (w.request c).value = .ok () := by
    rw [request, if_neg hconcrete]
    cases hchecked : w.isChecked c with
    | true =>
      rw [ensureChecked_of_isChecked hchecked]
      rfl
    | false =>
      rw [ensureChecked_of_passes hchecked hpasses]
      rfl
  refine ⟨hrequest, ?_⟩
  rw [instantiate?_eq_request]
  simp only [hrequest]

/-! ## 3. What a report foretells -/

/-- **What a report foretells of constructing an object.** -/
structure Prediction (w : World) (c : Class) (a : Arguments) (R : Report) : Prop where
  /-- It is turned away as abstract exactly when the report lists abstract methods, and with the
  same list. -/
  abstract_iff : ∀ name names, w.FailsWith c a (.abstract name names) ↔
    R.abstractNames ≠ [] ∧ name = c.name ∧ names = R.abstractNames
  /-- It is refused for a structural problem exactly when the report lists problems but no abstract
  methods, and for the first of them. -/
  structural_iff : ∀ e, w.FailsWith c a (.structural e) ↔
    R.abstractNames = [] ∧ R.findings.head?.map Prod.snd = some e
  /-- It gets to the initializer exactly when the report says that it can be. -/
  initializer_iff : w.ReachesInitializer c a ↔ R.canInstantiate = true
  /-- It gets to the initializer exactly when it comes to neither of the two refusals. -/
  otherwise : w.ReachesInitializer c a ↔
    (∀ name names, ¬ w.FailsWith c a (.abstract name names)) ∧
      ∀ e, ¬ w.FailsWith c a (.structural e)

/-- The three ways that constructing an object can go, told from a report. -/
inductive Foretold (w : World) (c : Class) (a : Arguments) (R : Report) : Prop where
  | isAbstract : R.abstractNames ≠ [] → w.FailsWith c a (.abstract c.name R.abstractNames) →
      Foretold w c a R
  | unsound {e : StructureError} : R.abstractNames = [] →
      R.findings.head?.map Prod.snd = some e → w.FailsWith c a (.structural e) → Foretold w c a R
  | sound : R.abstractNames = [] → R.findings = [] → w.ReachesInitializer c a → Foretold w c a R

/-- A class that counts as checked only if it passes goes the way that its report tells. -/
theorem foretold (hchecked : w.isChecked c = true → c.Passes) :
    Foretold w c a (c.pipeline.report c.toShape).value := by
  have hagrees := c.pipeline.agrees c.toShape
  cases habstract : c.isAbstract with
  | true =>
    exact .isAbstract (Shape.isAbstract_iff.mp habstract) (failsWith_of_isAbstract habstract)
  | false =>
    have hnames : (c.pipeline.report c.toShape).value.abstractNames = [] := by
      refine Decidable.byContradiction fun hne => ?_
      exact Bool.false_ne_true (habstract.symm.trans (Shape.isAbstract_iff.mpr hne))
    cases hensure : (c.pipeline.ensure c.toShape).value with
    | ok _ =>
      exact .sound hnames (hagrees.ok_iff.mp hensure)
        (reachesInitializer_of_passes habstract hensure)
    | error e =>
      have hunmarked : w.isChecked c = false := by
        refine Bool.eq_false_iff.mpr fun hmarked => ?_
        cases hensure.symm.trans (hchecked hmarked)
      exact .unsound hnames ((hagrees.error_iff e).mp hensure)
        (failsWith_of_error habstract hunmarked hensure)

/-- The three ways exclude each other. -/
theorem Foretold.prediction {R : Report} (h : Foretold w c a R) : Prediction w c a R := by
  cases h with
  | isAbstract hnames hfails =>
    have hnot : ¬ w.ReachesInitializer c a := fun hreaches => hreaches.not_refused.1 _ _ hfails
    refine ⟨fun name names => ⟨fun h => ?_, fun h => ?_⟩, fun e => ⟨fun h => ?_, fun h => ?_⟩,
      ⟨fun h => ?_, fun h => ?_⟩, ⟨fun h => ?_, fun h => ?_⟩⟩
    · cases h.unique hfails
      exact ⟨hnames, rfl, rfl⟩
    · obtain ⟨-, rfl, rfl⟩ := h
      exact hfails
    · cases h.unique hfails
    · exact absurd h.1 hnames
    · exact absurd h hnot
    · exact absurd (Report.canInstantiate_iff.mp h).1 hnames
    · exact absurd h hnot
    · exact absurd hfails (h.1 _ _)
  | unsound hnames hhead hfails =>
    have hnot : ¬ w.ReachesInitializer c a := fun hreaches => hreaches.not_refused.2 _ hfails
    refine ⟨fun name names => ⟨fun h => ?_, fun h => ?_⟩, fun e => ⟨fun h => ?_, fun h => ?_⟩,
      ⟨fun h => ?_, fun h => ?_⟩, ⟨fun h => ?_, fun h => ?_⟩⟩
    · cases h.unique hfails
    · exact absurd hnames h.1
    · cases h.unique hfails
      exact ⟨hnames, hhead⟩
    · cases hhead.symm.trans h.2
      exact hfails
    · exact absurd h hnot
    · rw [(Report.canInstantiate_iff.mp h).2] at hhead
      cases hhead
    · exact absurd h hnot
    · exact absurd hfails (h.2 _)
  | sound hnames hnone hreaches =>
    obtain ⟨habstract, hstructural⟩ := hreaches.not_refused
    refine ⟨fun name names => ⟨fun h => ?_, fun h => ?_⟩, fun e => ⟨fun h => ?_, fun h => ?_⟩,
      ⟨fun _ => ?_, fun _ => hreaches⟩, ⟨fun _ => hreaches.not_refused, fun _ => hreaches⟩⟩
    · exact absurd h (habstract name names)
    · exact absurd hnames h.1
    · exact absurd h (hstructural e)
    · rw [hnone] at h
      cases h.2
    · exact Report.canInstantiate_iff.mpr ⟨hnames, hnone⟩

end World

/-! ## 4. Reports in runs -/

namespace Clients

variable {answers : Nat → Answers} {log : Log} {K : Clients} {c : Class}

/-- Where the stages of a class answer the same every time, a marked class passes its check now. -/
theorem Valid.passes_of_isChecked (h : Valid answers log K) (hc : c ∈ K.classes)
    (hfixed : ∀ t, ∀ stage ∈ c.stages, answers t stage = stage.check.run)
    (hmarked : K.world.isChecked c = true) : c.Passes := by
  obtain ⟨t, entry, -, hpassed⟩ := (h.isChecked_iff hc).mp hmarked
  have hpasses := hpassed.passes
  rwa [Class.selfCheck_eq_of_fixed (hfixed t)] at hpasses

/-- **A report foretells construction.**  In every state that clients reach, the report on a class
whose stages always answer the same tells what constructing an object of it comes to, whatever the
arguments and whether or not the class counts as checked; and any checks at all, run on any class
in the two ways, agree. -/
theorem Runs.report_foretells (hrun : Runs answers log K) (hc : c ∈ K.classes)
    (hfixed : ∀ t, ∀ stage ∈ c.stages, answers t stage = stage.check.run) :
    (∀ a, World.Prediction K.world c a (c.pipeline.report c.toShape).value) ∧
      ∀ (checks : Pipeline) (s : Shape), checks.Agrees s :=
  ⟨fun _ => (World.foretold (hrun.valid.passes_of_isChecked hc hfixed)).prediction,
    fun checks s => checks.agrees s⟩

end Clients

namespace Diamond

open Clients

/-- The bottom of the diamond, after it has been checked. -/
theorem bottom_foretold : ∃ log K, (Runs (fun _ => .fixed) log K ∧ bottom ∈ K.classes ∧
    (∀ t, ∀ stage ∈ bottom.stages, (fun _ : Nat => Answers.fixed) t stage = stage.check.run)) ∧
    K.world.isChecked bottom = true ∧
    (∀ a, World.Prediction K.world bottom a (bottom.pipeline.report bottom.toShape).value) ∧
      ∀ (checks : Pipeline) (s : Shape), checks.Agrees s := by
  obtain ⟨actions, hreaches⟩ := exists_reaches_object
  obtain ⟨log, hrun⟩ := hreaches.exists_runs
  have hfixed : ∀ t, ∀ stage ∈ bottom.stages,
      (fun _ : Nat => Answers.fixed) t stage = stage.check.run := fun _ _ _ => rfl
  exact ⟨log, ⟨session, []⟩, ⟨hrun, List.mem_cons_self, hfixed⟩, rfl,
    hrun.report_foretells List.mem_cons_self hfixed⟩

end Diamond

end MethodGuard
