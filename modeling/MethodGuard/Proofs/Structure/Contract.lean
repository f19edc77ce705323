/-
# Validators that copy the parameters of their method

Under strict options a validator has to declare the parameters of the method it guards, and to
return nothing.  One would think that a validator whose parameters are a copy of the method's meets
this, and it does, with one exception: defaults are compared as values, and a value with a number in
it that is not one differs from its copy.  Then, and only then, the check finds the signatures
different (`Pipeline.report_of_copied_parameters`), and the class has no objects, although nothing is
wrong with it (`exists_refused_copy`).
-/
import MethodGuard.Proofs.Structure.SelfCheck
import MethodGuard.Proofs.Value.Equality
import MethodGuard.Proofs.World.Session

namespace MethodGuard

/-! ## 1. Problems of one name -/

/-- **The problem is one of the name**: it is about the method, the validator, or what the two
declare. -/
inductive StructureError.Concerns (name : String) : StructureError → Prop where
  | method (className : String) : Concerns name (.missingMethod className name)
  | methodSort (className : String) : Concerns name (.notCallable className name)
  | validator (className validator : String) :
      Concerns name (.missingValidator className validator name)
  | validatorSort (className : String) : Concerns name (.notCallable className (validatorName name))
  | parameters (validator : String) : Concerns name (.signatureMismatch validator name)
  | returns (found : String) : Concerns name (.validatorReturn (validatorName name) found)

theorem validatorName_inj {name name' : String} :
    validatorName name = validatorName name' ↔ name = name' := by
  rw [validatorName, validatorName, String.append_right_inj]

namespace Shape

variable {s : Shape} {name other : String} {m v : Method} {e : StructureError}

/-- What is wrong with any name as a method is nothing that concerns a method and its validator. -/
theorem MethodProblem.not_concerns (h : s.MethodProblem other e) (hm : s.HasMethod name m)
    (hv : s.HasMethod (validatorName name) v) : ¬ e.Concerns name := by
  obtain ⟨_, hm⟩ := hm
  obtain ⟨_, hv⟩ := hv
  intro hconcerns
  cases h with
  | absent hnone =>
    cases hconcerns
    cases hnone.symm.trans hm
  | isAbstract habstract =>
    cases hconcerns
    cases habstract.symm.trans hm
  | isAttribute hattribute =>
    cases hconcerns with
    | methodSort => cases hattribute.symm.trans hm
    | validatorSort => cases hattribute.symm.trans hv

/-- Nor is what is wrong with the validator of any name. -/
theorem ValidatorProblem.not_concerns (h : s.ValidatorProblem other e) (hm : s.HasMethod name m)
    (hv : s.HasMethod (validatorName name) v) : ¬ e.Concerns name := by
  obtain ⟨_, hm⟩ := hm
  obtain ⟨_, hv⟩ := hv
  intro hconcerns
  cases h with
  | absent hnone =>
    cases hconcerns
    cases hnone.symm.trans hv
  | isAbstract habstract =>
    cases hconcerns
    cases habstract.symm.trans hv
  | isAttribute hattribute =>
    generalize hother : validatorName other = found at hattribute hconcerns
    cases hconcerns with
    | methodSort => cases hattribute.symm.trans hm
    | validatorSort => cases hattribute.symm.trans hv

/-- What is wrong with a contract concerns the name whose contract it is. -/
theorem ContractProblem.eq_of_concerns (h : ContractProblem other m v e) (he : e.Concerns name) :
    other = name := by
  cases h with
  | parameters =>
    generalize validatorName other = validator at he
    cases he
    rfl
  | returns =>
    generalize hother : validatorName other = validator at he
    cases he
    exact validatorName_inj.mp hother
  | unannotated =>
    generalize hother : validatorName other = validator at he
    cases he
    exact validatorName_inj.mp hother

/-- **Of a method with a validator only the contract can be wrong**, and only strict options look
for that. -/
theorem PrerunProblem.contract_of_concerns (h : s.PrerunProblem other e) (he : e.Concerns name)
    (hm : s.HasMethod name m) (hv : s.HasMethod (validatorName name) v) :
    s.options.strictValidators = true ∧ ContractProblem name m v e := by
  cases h with
  | method hproblem => exact absurd he (hproblem.not_concerns hm hv)
  | validator _ hproblem => exact absurd he (hproblem.not_concerns hm hv)
  | contract hm' hv' hstrict hproblem =>
    obtain rfl := hproblem.eq_of_concerns he
    obtain rfl := hm'.unique hm
    obtain rfl := hv'.unique hv
    exact ⟨hstrict, hproblem⟩

/-- What is wrong with a contract concerns the name. -/
theorem ContractProblem.concerns (h : ContractProblem name m v e) : e.Concerns name := by
  cases h with
  | parameters => exact .parameters _
  | returns => exact .returns _
  | unannotated => exact .returns _

end Shape

namespace Pipeline

variable {s : Shape} {e : StructureError}

/-- The problems in the report of the standard checks, whatever their order. -/
theorem mem_standard_report_iff : e ∈ (report Check.standard s).value.findings.map Prod.snd ↔
    (∃ name ∈ s.required, s.MethodProblem name e) ∨
    (∃ name ∈ s.prerun, s.PrerunProblem name e) ∨
    (∃ name ∈ s.typed, name ∉ s.prerun ∧ s.MethodProblem name e) := by
  have hreport : (report Check.standard s).value.findings.map Prod.snd =
      s.requiredProblems ++ s.prerunProblems ++ s.typedProblems := standard_findings
  rw [hreport, Shape.typedProblems_eq, Shape.requiredProblems, Shape.prerunProblems]
  simp only [List.mem_append, List.mem_filterMap, List.mem_filter, Shape.problem?_eq_some_iff,
    Shape.requireMethod_eq_error_iff, Shape.requirePrerun_eq_error_iff, decide_eq_true_eq, or_assoc,
    and_assoc]
  rfl

/-- **The problems of a marked method with a validator** are those of their contract. -/
theorem mem_report_concerning_iff {name : String} {m v : Method} (hname : name ∈ s.prerun)
    (hm : s.HasMethod name m) (hv : s.HasMethod (validatorName name) v) :
    (e ∈ (report Check.standard s).value.findings.map Prod.snd ∧ e.Concerns name) ↔
      s.options.strictValidators = true ∧ Shape.ContractProblem name m v e := by
  rw [mem_standard_report_iff]
  constructor
  · rintro ⟨⟨_, -, h⟩ | ⟨_, -, h⟩ | ⟨_, -, -, h⟩, he⟩
    · exact absurd he (h.not_concerns hm hv)
    · exact h.contract_of_concerns he hm hv
    · exact absurd he (h.not_concerns hm hv)
  · rintro ⟨hstrict, h⟩
    exact ⟨.inr (.inl ⟨name, hname, .contract hm hv hstrict h⟩), h.concerns⟩

end Pipeline

/-! ## 2. Copied parameters -/

/-- The parameter has a default, and in this there is a number that is not one. -/
def Parameter.DefaultsToNaN (p : Parameter) : Prop :=
  ∃ value, p.fallback = some value ∧ value.HoldsNaN

/-- The maps in the parameter's default do not repeat keys. -/
def Parameter.DistinctKeys (p : Parameter) : Prop :=
  ∀ value, p.fallback = some value → value.DistinctKeys

/-- A parameter is declared as itself, but for such a default. -/
theorem Shape.alikeParameters_self_iff {p : Parameter} (h : p.DistinctKeys) :
    AlikeParameters p p ↔ ¬ p.DefaultsToNaN := by
  constructor
  · rintro halike ⟨value, hvalue, hnan⟩
    rcases halike.fallback with ⟨hnone, -⟩ | ⟨v, w, hv, hw, heq⟩
    · cases hnone.symm.trans hvalue
    · cases hv.symm.trans hvalue
      cases hw.symm.trans hvalue
      exact (Value.equal_self_iff value (h value hvalue)).mp heq hnan
  · intro hdefault
    refine ⟨rfl, rfl, rfl, ?_⟩
    cases hvalue : p.fallback with
    | none => exact .inl ⟨rfl, rfl⟩
    | some value =>
      have heq : value.equal value = true :=
        (Value.equal_self_iff value (h value hvalue)).mpr fun hnan => hdefault ⟨value, hvalue, hnan⟩
      exact .inr ⟨value, value, rfl, rfl, heq⟩

/-! ## 3. A class that differs in a default only -/

namespace Scaler

/-- One parameter, with a default. -/
def parameters (value : Value) : List Parameter :=
  [⟨"factor", some .any, .positionalOrKeyword, some value⟩]

/-- The factor that is given, marked for a validator. -/
def scale (value : Value) : Method := ⟨"scale", ⟨parameters value, none⟩, ⟨true, false⟩, fun bound =>
  .succeed ((bound.find? "factor").getD .none)⟩

/-- The validator of the factor; it accepts everything. -/
def validateScale (value : Value) : Method :=
  ⟨"validate_scale", ⟨parameters value, some .none⟩, .none, fun _ => .succeed .none⟩

def statement (value : Value) : Definition :=
  ⟨"Scaler", [], [.method (scale value), .method (validateScale value)]⟩
def cls (value : Value) : Class := .ofDefinition (statement value) 0 []

variable {value : Value}

theorem cls_defined : Class.define 0 (statement value) = .ok (cls value) :=
  Class.define_eq_ok_iff.mpr ⟨rfl, rfl, rfl, [], Linearization.merge?_of_isEmpty _ rfl, rfl⟩

theorem history : History [cls value] := History.start.build (by simp [statement]) cls_defined

theorem scale_mem : "scale" ∈ (cls value).prerun := by
  rw [NameSet.mem_def]
  exact List.mem_singleton_self _

theorem has_scale : (cls value).HasMethod "scale" (scale value) := ⟨"Scaler", rfl⟩

theorem has_validator : (cls value).HasMethod (validatorName "scale") (validateScale value) :=
  ⟨"Scaler", rfl⟩

/-- A number that is not one. -/
def nan : Value := .float ⟨0x7ff8000000000000⟩

/-- A map with a list with a half and a negative zero. -/
def deep : Value :=
  .map [("offsets", .list [.float ⟨0x3fe0000000000000⟩, .float ⟨0x8000000000000000⟩])]

theorem deep_distinctKeys : deep.DistinctKeys := by
  refine .map (by decide) fun entry hentry => ?_
  obtain rfl := List.mem_singleton.mp hentry
  refine .list fun item hitem => ?_
  rcases List.mem_pair.mp hitem with rfl | rfl
  · exact .float _
  · exact .float _

end Scaler

/-! ## 4. What the report says of a copied contract -/

namespace Pipeline

/-- **When a copied contract is found broken.**  Let a class be strict, and let the validator of a
marked method declare the very parameters of the method and return nothing.  The report on the class
then has one problem of the name at most: that the signatures differ; and this it has exactly when
some default has a number in it that is not one, at whatever depth. -/
theorem report_of_copied_parameters {s : Shape} {name : String} {m v : Method}
    (hstrict : s.options.strictValidators = true) (hname : name ∈ s.prerun)
    (hm : s.HasMethod name m) (hv : s.HasMethod (validatorName name) v)
    (hcopied : v.signature.parameters = m.signature.parameters)
    (hreturns : v.signature.returns = some .none)
    (hkeys : ∀ p ∈ m.signature.parameters, p.DistinctKeys) (e : StructureError) :
    (e ∈ (report Check.standard s).value.findings.map Prod.snd ∧ e.Concerns name) ↔
      e = .signatureMismatch (validatorName name) name ∧
        ∃ p ∈ m.signature.parameters, p.DefaultsToNaN := by
  have hsame : Shape.SameParameters v m ↔ ¬ ∃ p ∈ m.signature.parameters, p.DefaultsToNaN := by
    rw [Shape.SameParameters, hcopied, List.forall₂_same]
    constructor
    · rintro halike ⟨p, hp, hnan⟩
      exact (Shape.alikeParameters_self_iff (hkeys p hp)).mp (halike p hp) hnan
    · intro hnone p hp
      exact (Shape.alikeParameters_self_iff (hkeys p hp)).mpr fun hnan => hnone ⟨p, hp, hnan⟩
  rw [mem_report_concerning_iff hname hm hv]
  constructor
  · rintro ⟨-, hproblem⟩
    cases hproblem with
    | parameters hdiffer => exact ⟨rfl, not_not.mp fun hnone => hdiffer (hsame.mpr hnone)⟩
    | returns _ hfound hspec =>
      cases hfound.symm.trans hreturns
      exact absurd rfl hspec
    | unannotated _ hfound => cases hfound.symm.trans hreturns
  · rintro ⟨rfl, hnan⟩
    exact ⟨hstrict, .parameters fun halike => hsame.mp halike hnan⟩

/-- The default may nest: a map with a list with numbers, a negative zero among them. -/
theorem report_of_copied_deep : ((Scaler.cls Scaler.deep).options.strictValidators = true ∧
    "scale" ∈ (Scaler.cls Scaler.deep).prerun ∧
    (Scaler.cls Scaler.deep).HasMethod "scale" (Scaler.scale Scaler.deep) ∧
    (Scaler.cls Scaler.deep).HasMethod (validatorName "scale") (Scaler.validateScale Scaler.deep) ∧
    ∀ p ∈ Scaler.parameters Scaler.deep, p.DistinctKeys) ∧
    ∀ e, (e ∈ (report Check.standard (Scaler.cls Scaler.deep).toShape).value.findings.map Prod.snd ∧
        e.Concerns "scale") ↔
      e = .signatureMismatch (validatorName "scale") "scale" ∧
        ∃ p ∈ Scaler.parameters Scaler.deep, p.DefaultsToNaN := by
  have hkeys : ∀ p ∈ Scaler.parameters Scaler.deep, p.DistinctKeys := by
    intro p hp value hvalue
    obtain rfl := List.mem_singleton.mp hp
    cases hvalue
    exact Scaler.deep_distinctKeys
  exact ⟨⟨rfl, Scaler.scale_mem, Scaler.has_scale, Scaler.has_validator, hkeys⟩,
    report_of_copied_parameters rfl Scaler.scale_mem Scaler.has_scale Scaler.has_validator rfl rfl
      hkeys⟩

/-- All of them are numbers, so nothing is found. -/
example : (report Check.standard (Scaler.cls Scaler.deep).toShape).value.findings = [] := rfl

/-- **A copied contract may be found broken**: with a default that is no number, the report says
that the signatures differ, and the class refuses to be instantiated. -/
theorem exists_refused_copy : ∃ log S c m v, Session.initial.Reaches log S ∧ c ∈ S.classes ∧
    c.options.strictValidators = true ∧ "scale" ∈ c.prerun ∧ c.HasMethod "scale" m ∧
    c.HasMethod (validatorName "scale") v ∧ v.signature.parameters = m.signature.parameters ∧
    v.signature.returns = some .none ∧
    StructureError.signatureMismatch (validatorName "scale") "scale" ∈
      (report Check.standard c.toShape).value.findings.map Prod.snd ∧
    (S.world.instantiate? c .empty).map (·.value) =
      some (.error (.structural (.signatureMismatch (validatorName "scale") "scale"))) := by
  have hhistory : History [Scaler.cls Scaler.nan] := Scaler.history
  obtain ⟨log, hrun⟩ := Session.exists_reaches_building hhistory
  refine ⟨log, _, Scaler.cls Scaler.nan, Scaler.scale Scaler.nan, Scaler.validateScale Scaler.nan,
    hrun, List.mem_cons_self, rfl, Scaler.scale_mem, Scaler.has_scale, Scaler.has_validator, rfl, rfl,
    ?_, rfl⟩
  exact List.mem_singleton_self _

end Pipeline

end MethodGuard
