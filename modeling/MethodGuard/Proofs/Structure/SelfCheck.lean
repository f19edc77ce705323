/-
# What the structural self-check finds

The standard checks walk three sets of names that may overlap in any way, and the third leaves out
what the second has looked at.  `SelfCheckFinds s errors` says which problems there are to find in
a class and in which order, name by name and without the walk; the report of the standard checks
lists exactly those (`selfCheckFinds_iff`, `standard_findings`).

Nothing falls between the checks: the report is empty exactly when the class is `Sound`, that is,
every required or marked name is a method and every name marked for a validator has one that
keeps the contract (`problems_eq_nil_iff`).  Passing a pipeline is the same as an empty
report of it (`ensure_eq_ok_iff`), so a class that passes its own pipeline is sound.
-/
import Mathlib.Data.List.Forall2
import MethodGuard.Structure.Pipeline
import MethodGuard.Proofs.Text.ByteOrder

namespace MethodGuard

/-! ## 1. Problems of single names -/

namespace Shape

/-- The name stands for a method with a body. -/
def HasMethod (s : Shape) (name : String) (m : Method) : Prop :=
  ∃ owner, s.resolve? name = some ⟨.method m, owner⟩

/-- **What is wrong with a name that must be a method.** -/
inductive MethodProblem (s : Shape) (name : String) : StructureError → Prop where
  | absent : s.resolve? name = none → MethodProblem s name (.missingMethod s.name name)
  | isAbstract {m : AbstractMethod} {owner : String} :
      s.resolve? name = some ⟨.abstract m, owner⟩ →
      MethodProblem s name (.missingMethod s.name name)
  | isAttribute {value : Value} {owner : String} :
      s.resolve? name = some ⟨.attribute value, owner⟩ →
      MethodProblem s name (.notCallable s.name name)

/-- **What is wrong with the validator of a name**, looked for as `validate_<name>`. -/
inductive ValidatorProblem (s : Shape) (name : String) : StructureError → Prop where
  | absent : s.resolve? (validatorName name) = none →
      ValidatorProblem s name (.missingValidator s.name (validatorName name) name)
  | isAbstract {m : AbstractMethod} {owner : String} :
      s.resolve? (validatorName name) = some ⟨.abstract m, owner⟩ →
      ValidatorProblem s name (.missingValidator s.name (validatorName name) name)
  | isAttribute {value : Value} {owner : String} :
      s.resolve? (validatorName name) = some ⟨.attribute value, owner⟩ →
      ValidatorProblem s name (.notCallable s.name (validatorName name))

/-- Two parameters are declared alike; their defaults are compared as values. -/
structure AlikeParameters (p q : Parameter) : Prop where
  name : p.name = q.name
  declared : p.declared = q.declared
  kind : p.kind = q.kind
  fallback : (p.fallback = none ∧ q.fallback = none) ∨
    ∃ v w, p.fallback = some v ∧ q.fallback = some w ∧ v.equal w = true

/-- A validator declares the parameters of the method it guards, one by one. -/
def SameParameters (validator method : Method) : Prop :=
  List.Forall₂ AlikeParameters validator.signature.parameters method.signature.parameters

/-- **What is wrong with the contract of a validator** and the method it guards: the parameters,
or else the declared result. -/
inductive ContractProblem (name : String) (m v : Method) : StructureError → Prop where
  | parameters : ¬ SameParameters v m →
      ContractProblem name m v (.signatureMismatch (validatorName name) name)
  | returns {spec : TypeSpec} : SameParameters v m → v.signature.returns = some spec →
      spec ≠ .none →
      ContractProblem name m v (.validatorReturn (validatorName name) spec.displayName)
  | unannotated : SameParameters v m → v.signature.returns = none →
      ContractProblem name m v (.validatorReturn (validatorName name) "no annotation")

/-- **What is wrong with a name marked for a validator**: the method, or else the validator, or
else, under strict options, their contract. -/
inductive PrerunProblem (s : Shape) (name : String) : StructureError → Prop where
  | method {e : StructureError} : MethodProblem s name e → PrerunProblem s name e
  | validator {m : Method} {e : StructureError} : s.HasMethod name m → ValidatorProblem s name e →
      PrerunProblem s name e
  | contract {m v : Method} {e : StructureError} : s.HasMethod name m →
      s.HasMethod (validatorName name) v → s.options.strictValidators = true →
      ContractProblem name m v e → PrerunProblem s name e

end Shape

/-! ## 2. Problems of all names -/

/-- The elements related to those of a list, at most one to each, in the order of the list. -/
inductive Listed {α : Type u} {β : Type v} (R : α → β → Prop) : List α → List β → Prop where
  | nil : Listed R [] []
  | none {a : α} {as : List α} {bs : List β} : (∀ b, ¬ R a b) → Listed R as bs →
      Listed R (a :: as) bs
  | some {a : α} {b : β} {as : List α} {bs : List β} : R a b → Listed R as bs →
      Listed R (a :: as) (b :: bs)

theorem listed_iff_filterMap {α : Type u} {β : Type v} {R : α → β → Prop} {f : α → Option β}
    (hf : ∀ a b, f a = some b ↔ R a b) {as : List α} {bs : List β} :
    Listed R as bs ↔ bs = as.filterMap f := by
  constructor
  · intro h
    induction h with
    | nil => rfl
    | @none a as bs hnone _ ih =>
      have ha : f a = none := Option.eq_none_iff_forall_ne_some.mpr fun b hb =>
        hnone b ((hf a b).mp hb)
      rw [List.filterMap_cons_none ha, ih]
    | @some a b as bs hb _ ih => rw [List.filterMap_cons_some ((hf a b).mpr hb), ih]
  · rintro rfl
    induction as with
    | nil => exact .nil
    | cons a as ih =>
      cases ha : f a with
      | none =>
        rw [List.filterMap_cons_none ha]
        refine .none (fun b hb => ?_) ih
        rw [(hf a b).mpr hb] at ha
        cases ha
      | some b =>
        rw [List.filterMap_cons_some ha]
        exact .some ((hf a b).mp ha) ih

/-- **The problems of a class, in order**: those of required names, those of names marked for a
validator, and those of names marked for type checks only. -/
def SelfCheckFinds (s : Shape) (errors : List StructureError) : Prop :=
  ∃ required prerun typed, errors = required ++ prerun ++ typed ∧
    Listed s.MethodProblem s.required required ∧
    Listed s.PrerunProblem s.prerun.names prerun ∧
    Listed s.MethodProblem (s.typed.names.filter fun name => decide (name ∉ s.prerun.names)) typed

/-- **A class without structural problems.** -/
structure Sound (s : Shape) : Prop where
  required : ∀ name ∈ s.required, ∃ m, s.HasMethod name m
  prerun : ∀ name ∈ s.prerun, ∃ m v, s.HasMethod name m ∧ s.HasMethod (validatorName name) v ∧
    (s.options.strictValidators = true →
      Shape.SameParameters v m ∧ v.signature.returns = some .none)
  typed : ∀ name ∈ s.typed, ∃ m, s.HasMethod name m

/-- In a sound class every gathered name stands for a method. -/
theorem Sound.exists_hasMethod {s : Shape} (h : Sound s) {name : String}
    (hname : name ∈ s.prerun ∨ name ∈ s.typed) : ∃ m, s.HasMethod name m := by
  rcases hname with hprerun | htyped
  · obtain ⟨m, -, hm, -⟩ := h.prerun name hprerun
    exact ⟨m, hm⟩
  · exact h.typed name htyped

/-! ## 3. The checks find the problems -/

namespace Shape

variable {s : Shape} {name : String}

theorem hasMethod_iff {m : Method} : s.HasMethod name m ↔ s.member? name = some (.method m) := by
  rw [HasMethod, member?, Option.map_eq_some_iff]
  constructor
  · rintro ⟨owner, h⟩
    exact ⟨_, h, rfl⟩
  · rintro ⟨⟨member, owner⟩, h, rfl⟩
    exact ⟨owner, h⟩

theorem HasMethod.unique {m m' : Method} (h : s.HasMethod name m) (h' : s.HasMethod name m') :
    m = m' := by
  rw [hasMethod_iff] at h h'
  rw [h] at h'
  cases h'
  rfl

theorem requireMethod_eq_ok_iff {m : Method} :
    s.requireMethod name = .ok m ↔ s.HasMethod name m := by
  rw [hasMethod_iff, requireMethod]
  split <;> simp_all

theorem requireMethod_eq_error_iff {e : StructureError} :
    s.requireMethod name = .error e ↔ s.MethodProblem name e := by
  constructor
  · intro h
    unfold requireMethod member? at h
    rcases hr : s.resolve? name with _ | ⟨m | m | value, owner⟩ <;> rw [hr] at h <;> cases h
    · exact .absent hr
    · exact .isAbstract hr
    · exact .isAttribute hr
  · rintro (hr | hr | hr) <;> simp [requireMethod, member?, hr]

theorem requireValidator_eq_ok_iff {v : Method} :
    s.requireValidator name = .ok v ↔ s.HasMethod (validatorName name) v := by
  rw [hasMethod_iff, requireValidator]
  split <;> simp_all

theorem requireValidator_eq_error_iff {e : StructureError} :
    s.requireValidator name = .error e ↔ s.ValidatorProblem name e := by
  constructor
  · intro h
    unfold requireValidator member? at h
    rcases hr : s.resolve? (validatorName name) with _ | ⟨m | m | value, owner⟩ <;>
      rw [hr] at h <;> cases h
    · exact .absent hr
    · exact .isAbstract hr
    · exact .isAttribute hr
  · rintro (hr | hr | hr) <;> simp [requireValidator, member?, hr]

theorem alikeParameters_iff {p q : Parameter} : p.equal q = true ↔ AlikeParameters p q := by
  have hfallback : Value.equalOption p.fallback q.fallback = true ↔
      (p.fallback = none ∧ q.fallback = none) ∨
        ∃ v w, p.fallback = some v ∧ q.fallback = some w ∧ v.equal w = true := by
    cases p.fallback <;> cases q.fallback <;> simp [Value.equalOption]
  simp only [Parameter.equal, Bool.and_eq_true, beq_iff_eq, hfallback]
  exact ⟨fun ⟨⟨⟨h1, h2⟩, h3⟩, h4⟩ => ⟨h1, h2, h3, h4⟩, fun ⟨h1, h2, h3, h4⟩ => ⟨⟨⟨h1, h2⟩, h3⟩, h4⟩⟩

theorem equalParameters_iff {ps qs : List Parameter} :
    Signature.equalParameters ps qs = true ↔ List.Forall₂ AlikeParameters ps qs := by
  induction ps generalizing qs with
  | nil => cases qs <;> simp [Signature.equalParameters]
  | cons p ps ih =>
    cases qs with
    | nil => simp [Signature.equalParameters]
    | cons q qs => simp [Signature.equalParameters, alikeParameters_iff, ih]

theorem sameParameters_iff {v m : Method} :
    v.signature.sameParameters m.signature = true ↔ SameParameters v m :=
  equalParameters_iff

theorem requireContract_eq_ok_iff {m v : Method} :
    requireContract name m v = .ok () ↔ SameParameters v m ∧ v.signature.returns = some .none := by
  rw [requireContract, ← sameParameters_iff]
  cases v.signature.sameParameters m.signature with
  | false => simp
  | true => by_cases hreturns : v.signature.returns = some .none <;> simp [hreturns]

theorem requireContract_eq_error_iff {m v : Method} {e : StructureError} :
    requireContract name m v = .error e ↔ ContractProblem name m v e := by
  constructor
  · intro h
    unfold requireContract at h
    cases hsame : v.signature.sameParameters m.signature with
    | false =>
      rw [hsame] at h
      cases h
      exact .parameters (by rw [← sameParameters_iff, hsame]; simp)
    | true =>
      rw [hsame] at h
      rcases hfound : v.signature.returns with _ | spec <;> rw [hfound] at h
      · cases h
        exact .unannotated (sameParameters_iff.mp hsame) hfound
      · by_cases hspec : spec = .none
        · simp [hspec] at h
        · simp only [Bool.not_true, Bool.false_eq_true, Option.some.injEq, hspec, if_false] at h
          cases h
          exact .returns (sameParameters_iff.mp hsame) hfound hspec
  · intro h
    unfold requireContract
    cases h with
    | parameters hsame =>
      rw [← sameParameters_iff, Bool.not_eq_true] at hsame
      simp [hsame]
    | returns hsame hfound hspec => simp [sameParameters_iff.mpr hsame, hfound, hspec, returnName]
    | unannotated hsame hfound => simp [sameParameters_iff.mpr hsame, hfound, returnName]

/-- The walk through the requirements of a marked name reports its problem. -/
theorem requirePrerun_eq_error_iff {e : StructureError} :
    s.requirePrerun name = .error e ↔ s.PrerunProblem name e := by
  constructor
  · intro h
    unfold requirePrerun at h
    cases hm : s.requireMethod name with
    | error e' =>
      rw [hm] at h
      cases h
      exact .method (requireMethod_eq_error_iff.mp hm)
    | ok m =>
      rw [hm] at h
      cases hv : s.requireValidator name with
      | error e' =>
        rw [hv] at h
        cases h
        exact .validator (requireMethod_eq_ok_iff.mp hm) (requireValidator_eq_error_iff.mp hv)
      | ok v =>
        rw [hv] at h
        cases hstrict : s.options.strictValidators with
        | false => simp [hstrict] at h
        | true =>
          simp only [hstrict, if_true] at h
          exact .contract (requireMethod_eq_ok_iff.mp hm) (requireValidator_eq_ok_iff.mp hv)
            hstrict (requireContract_eq_error_iff.mp h)
  · intro h
    unfold requirePrerun
    cases h with
    | method hproblem => rw [requireMethod_eq_error_iff.mpr hproblem]
    | validator hmethod hproblem =>
      rw [requireMethod_eq_ok_iff.mpr hmethod, requireValidator_eq_error_iff.mpr hproblem]
    | contract hmethod hvalidator hstrict hproblem =>
      rw [requireMethod_eq_ok_iff.mpr hmethod, requireValidator_eq_ok_iff.mpr hvalidator]
      simp only [hstrict, if_true]
      exact requireContract_eq_error_iff.mpr hproblem

theorem requirePrerun_eq_ok_iff :
    s.requirePrerun name = .ok () ↔ ∃ m v, s.HasMethod name m ∧
      s.HasMethod (validatorName name) v ∧ (s.options.strictValidators = true →
        SameParameters v m ∧ v.signature.returns = some .none) := by
  have hmethod (m : Method) : s.HasMethod name m ↔ s.requireMethod name = .ok m :=
    requireMethod_eq_ok_iff.symm
  have hvalidator (v : Method) : s.HasMethod (validatorName name) v ↔
      s.requireValidator name = .ok v := requireValidator_eq_ok_iff.symm
  have hcontract (m v : Method) : SameParameters v m ∧ v.signature.returns = some .none ↔
      requireContract name m v = .ok () := requireContract_eq_ok_iff.symm
  unfold requirePrerun
  simp only [hmethod, hvalidator, hcontract]
  cases s.requireMethod name with
  | error e => simp
  | ok m =>
    cases s.requireValidator name with
    | error e => simp
    | ok v => cases s.options.strictValidators <;> simp

/-! ## 4. All names, and all checks -/

theorem problem?_eq_some_iff {α : Type u} {r : Except StructureError α} {e : StructureError} :
    problem? r = some e ↔ r = .error e := by
  cases r <;> simp [problem?]

theorem problem?_eq_none_iff {α : Type u} {r : Except StructureError α} :
    problem? r = none ↔ ∃ a, r = .ok a := by
  cases r <;> simp [problem?]

theorem listed_required_iff {errors : List StructureError} :
    Listed s.MethodProblem s.required errors ↔ errors = s.requiredProblems :=
  listed_iff_filterMap fun _ _ => problem?_eq_some_iff.trans requireMethod_eq_error_iff

theorem listed_prerun_iff {errors : List StructureError} :
    Listed s.PrerunProblem s.prerun.names errors ↔ errors = s.prerunProblems :=
  listed_iff_filterMap fun _ _ => problem?_eq_some_iff.trans requirePrerun_eq_error_iff

theorem typedProblems_eq : s.typedProblems =
    (s.typed.names.filter fun name => decide (name ∉ s.prerun.names)).filterMap fun name =>
      problem? (s.requireMethod name) := by
  simp [typedProblems, NameSet.contains]

theorem listed_typed_iff {errors : List StructureError} :
    Listed s.MethodProblem (s.typed.names.filter fun name => decide (name ∉ s.prerun.names))
      errors ↔ errors = s.typedProblems := by
  rw [typedProblems_eq]
  exact listed_iff_filterMap fun _ _ => problem?_eq_some_iff.trans requireMethod_eq_error_iff

/-- What there is to find is what the three walks find. -/
theorem selfCheckFinds_iff {errors : List StructureError} : SelfCheckFinds s errors ↔
    errors = s.requiredProblems ++ s.prerunProblems ++ s.typedProblems := by
  simp only [SelfCheckFinds, listed_required_iff, listed_prerun_iff, listed_typed_iff]
  constructor
  · rintro ⟨_, _, _, rfl, rfl, rfl, rfl⟩
    rfl
  · rintro rfl
    exact ⟨_, _, _, rfl, rfl, rfl, rfl⟩

/-- Nothing is found exactly in sound classes: a name that the third walk leaves out has been
looked at by the second. -/
theorem problems_eq_nil_iff :
    s.requiredProblems ++ s.prerunProblems ++ s.typedProblems = [] ↔ Sound s := by
  have hmethod (name : String) : problem? (s.requireMethod name) = none ↔
      ∃ m, s.HasMethod name m := by
    simp only [problem?_eq_none_iff, requireMethod_eq_ok_iff]
  have hprerun (name : String) : problem? (s.requirePrerun name) = none ↔
      s.requirePrerun name = .ok () := by
    rw [problem?_eq_none_iff]
    exact ⟨fun ⟨_, h⟩ => h, fun h => ⟨(), h⟩⟩
  rw [typedProblems_eq, requiredProblems, prerunProblems]
  simp only [List.append_eq_nil_iff, List.filterMap_eq_nil_iff, List.mem_filter,
    decide_eq_true_eq, hmethod, hprerun, requirePrerun_eq_ok_iff]
  constructor
  · rintro ⟨⟨hreq, hpre⟩, htyped⟩
    refine ⟨hreq, hpre, fun name hname => ?_⟩
    by_cases hboth : name ∈ s.prerun.names
    · obtain ⟨m, -, hm, -⟩ := hpre name hboth
      exact ⟨m, hm⟩
    · exact htyped name ⟨hname, hboth⟩
  · rintro ⟨hreq, hpre, htyped⟩
    exact ⟨⟨hreq, hpre⟩, fun name hname => htyped name hname.1⟩

end Shape

/-! ## 5. Pipelines -/

namespace Pipeline

variable {s : Shape}

theorem findings_cons (check : Check) (rest : Pipeline) :
    (findings s (check :: rest)).value =
      (problems (check.run s).value).map (fun e => (check.name, e)) ++
        (findings s rest).value := rfl

theorem findings_append (first second : Pipeline) :
    (findings s (first ++ second)).value =
      (findings s first).value ++ (findings s second).value := by
  induction first with
  | nil => rfl
  | cons check rest ih => rw [List.cons_append, findings_cons, findings_cons, ih, List.append_assoc]

/-- Stopping at the first problem and collecting all problems agree on whether there is one. -/
theorem ensure_eq_ok_iff {checks : Pipeline} :
    (ensure s checks).value = .ok () ↔ (findings s checks).value = [] := by
  induction checks with
  | nil => simp [ensure, findings, Traced.pure]
  | cons check rest ih =>
    rw [findings_cons, ensure]
    cases hfound : problems (check.run s).value with
    | nil => simpa [Traced.after] using ih
    | cons e errors => simp

theorem problems_ofProblems (name : String) (list : Shape → List StructureError) :
    problems ((Check.ofProblems name list).run s).value = list s := by
  simp only [Check.ofProblems, Traced.pure]
  cases list s <;> rfl

theorem standard_findings : ((findings s Check.standard).value).map Prod.snd =
    s.requiredProblems ++ s.prerunProblems ++ s.typedProblems := by
  simp only [Check.standard, findings_cons, Check.requiredMethods, Check.prerunValidators,
    Check.typeValidatedMethods, problems_ofProblems]
  simp [findings, Traced.pure, Function.comp_def]

/-- A class that passes its own checks is sound, whatever further checks it has. -/
theorem sound_of_ensure {more : Pipeline} (h : (ensure s (Check.standard ++ more)).value = .ok ()) :
    Sound s := by
  rw [ensure_eq_ok_iff, findings_append, List.append_eq_nil_iff] at h
  rw [← Shape.problems_eq_nil_iff, ← standard_findings, h.1]
  rfl

/-- **The self-check is sound and complete.**  The report of the standard checks lists exactly the
problems there are, in order, names with the same sort of problem in byte order; and it is empty
exactly for sound classes. -/
theorem standard_report_exact (s : Shape) :
    (∀ errors, (report Check.standard s).value.findings.map Prod.snd = errors ↔
      SelfCheckFinds s errors) ∧
    (s.prerun.names.Pairwise (fun a b => ByteOrder.utf8 a < ByteOrder.utf8 b) ∧
      s.typed.names.Pairwise fun a b => ByteOrder.utf8 a < ByteOrder.utf8 b) ∧
    ((report Check.standard s).value.findings = [] ↔ Sound s) := by
  refine ⟨fun errors => ?_, ⟨s.prerun.names_byteOrder, s.typed.names_byteOrder⟩, ?_⟩
  · rw [Shape.selfCheckFinds_iff, ← standard_findings]
    exact eq_comm
  · rw [← Shape.problems_eq_nil_iff, ← standard_findings, List.map_eq_nil_iff]
    rfl

end Pipeline

end MethodGuard
