/-
# What a signature loses in JSON

A parameter without default is written with the default `null`.  So is a parameter whose default is
the absence of a value, and reading takes both for a parameter without default.  That is all that
is lost: the text of a signature is read as `Signature.withoutNullDefaults`, parameter by parameter
(`Parameter.ofWritten?_written`, `Signature.read?_toJson`).

What is read accepts no call that was refused before, and binds the calls that it accepts as before
(`Signature.bind_of_withoutNullDefaults`); but it may refuse a call for want of an argument that
could be left out (`Signature.exists_lost_default`).
-/
import MethodGuard.Proofs.Signature.Alike
import MethodGuard.Proofs.TypeSpec.RoundTrip
import MethodGuard.Proofs.Value.RoundTrip
import MethodGuard.Signature.Json

namespace MethodGuard

/-! ## 1. What is lost -/

/-- The parameter, with no default if its default is the absence of a value. -/
def Parameter.withoutNullDefault (p : Parameter) : Parameter :=
  { p with fallback := p.fallback.filter fun v => !v.isNone }

/-- The signature without the defaults that are the absence of a value. -/
def Signature.withoutNullDefaults (s : Signature) : Signature :=
  { s with parameters := s.parameters.map Parameter.withoutNullDefault }

/-- A default that survives its text, unless it is the absence of a value: it has no floats, and
no map in it repeats a key. -/
def Parameter.Storable (p : Parameter) : Prop :=
  ∀ v, p.fallback = some v → v.FloatFree ∧ v.DistinctKeys

theorem Parameter.withoutNullDefault_eq_self_iff {p : Parameter} :
    p.withoutNullDefault = p ↔ p.fallback ≠ some .none := by
  obtain ⟨name, declared, kind, fallback⟩ := p
  rcases fallback with _ | v
  · simp [withoutNullDefault]
  · cases v <;> simp [withoutNullDefault, Value.isNone]

theorem Signature.withoutNullDefaults_eq_self_iff {s : Signature} :
    s.withoutNullDefaults = s ↔ ∀ p ∈ s.parameters, p.fallback ≠ some .none := by
  obtain ⟨parameters, returns⟩ := s
  simp only [withoutNullDefaults, Signature.mk.injEq, and_true]
  induction parameters with
  | nil => simp
  | cons p rest ih =>
    rw [List.map_cons, List.cons.injEq, ih, Parameter.withoutNullDefault_eq_self_iff]
    simp

/-! ## 2. Parameters -/

theorem ParameterKind.ofName?_name (kind : ParameterKind) : ofName? kind.name = some kind := by
  cases kind <;> rfl

namespace Parameter

/-- What may be absent and is written as `null` then is exact if it is when present. -/
theorem exact_optionToJson {α : Type u} {toJson : α → Json} {o : Option α}
    (h : ∀ a, o = some a → (toJson a).Exact) : (optionToJson toJson o).Exact := by
  cases o with
  | none => exact .null
  | some a => exact h a rfl

theorem exact_toJson {p : Parameter} (h : p.Storable) : p.toJson.Exact := by
  refine .object fun m hm => ?_
  simp only [List.mem_cons, List.not_mem_nil, or_false] at hm
  rcases hm with rfl | rfl | rfl | rfl
  · exact .string p.name
  · exact exact_optionToJson fun t _ => t.exact_toJson
  · exact .string p.kind.name
  · exact exact_optionToJson fun v hv => v.exact_toJson (h v hv).1

/-- A declared type is read back, and so is its absence. -/
theorem optional?_declared (declared : Option TypeSpec) {depth : Nat}
    (h : (optionToJson TypeSpec.toJson declared).depth ≤ depth) :
    Record.optional? (TypeSpec.ofWritten? depth false)
      (some (optionToJson TypeSpec.toJson declared).written) = some declared := by
  cases declared with
  | none => rfl
  | some t =>
    rw [optionToJson, Record.optional?_of_ne_null _ t.written_toJson_ne_null,
      t.ofWritten?_written h, Option.map_some]

/-- **A default is read back, unless it is the absence of a value.** -/
theorem optional?_fallback {p : Parameter} (hp : p.Storable) {depth : Nat}
    (h : (optionToJson Value.toJson p.fallback).depth ≤ depth) :
    Record.optional? (fun w => (w.meaning? depth).map Value.ofJson)
      (some (optionToJson Value.toJson p.fallback).written) =
        some p.withoutNullDefault.fallback := by
  rcases hfallback : p.fallback with _ | v
  · rw [withoutNullDefault, hfallback]
    rfl
  · obtain ⟨hfloats, hkeys⟩ := hp v hfallback
    rw [hfallback] at h
    by_cases hnone : v = .none
    · rw [withoutNullDefault, hfallback, hnone]
      rfl
    · have hkept : v.isNone = false := by cases v <;> first | rfl | exact absurd rfl hnone
      rw [optionToJson, Record.optional?_of_ne_null _ (v.written_toJson_ne_null hfloats hnone),
        Value.ofJson_meaning? hfloats hkeys h, withoutNullDefault, hfallback, Option.filter_some,
        hkept]
      rfl

/-- **A parameter is read back from its record**, up to that default. -/
theorem ofWritten?_written {p : Parameter} (hp : p.Storable) {depth : Nat}
    (h : p.toJson.depth ≤ depth) :
    ofWritten? depth p.toJson.written = some p.withoutNullDefault := by
  obtain ⟨depth, rfl⟩ := Nat.exists_eq_add_one.mpr (Nat.zero_lt_of_lt h)
  have hdepths : (optionToJson TypeSpec.toJson p.declared).depth ≤ depth ∧
      (optionToJson Value.toJson p.fallback).depth ≤ depth := by
    simp only [toJson, Json.depth, Json.membersDepth] at h
    omega
  have hmembers := Record.members?_written ["name", "annotation", "kind", "default"]
    [("name", .string p.name), ("annotation", optionToJson TypeSpec.toJson p.declared),
      ("kind", .string p.kind.name), ("default", optionToJson Value.toJson p.fallback)] []
    (by simp) (by simp)
  have hfields : ofFields? depth (some (Json.string p.name).written)
      (some (optionToJson TypeSpec.toJson p.declared).written)
      (some (Json.string p.kind.name).written)
      (some (optionToJson Value.toJson p.fallback).written) = some p.withoutNullDefault := by
    have hname : (Json.string p.name).written = .string (Json.pieces p.name) := rfl
    rw [hname, ofFields?, Written.text?_pieces, optional?_declared p.declared hdepths.1,
      Record.name?_written, ParameterKind.ofName?_name, optional?_fallback hp hdepths.2]
    rfl
  rw [toJson, Json.written, ofWritten?, hmembers]
  exact hfields

theorem listOfWritten?_written {parameters : List Parameter} (h : ∀ p ∈ parameters, p.Storable)
    {depth : Nat} (hdepth : (Json.array (parameters.map toJson)).depth ≤ depth) :
    listOfWritten? depth (Json.array (parameters.map toJson)).written =
      some (parameters.map withoutNullDefault) := by
  obtain ⟨depth, rfl⟩ := Nat.exists_eq_add_one.mpr (Nat.zero_lt_of_lt hdepth)
  have hitems := Nat.le_of_succ_le_succ hdepth
  rw [Json.written, listOfWritten?]
  clear hdepth
  induction parameters with
  | nil => rfl
  | cons p rest ih =>
    have hle : p.toJson.depth ≤ depth ∧ Json.itemsDepth (rest.map toJson) ≤ depth := by
      simpa only [List.map_cons, Json.itemsDepth, Nat.max_le] using hitems
    obtain ⟨hp, hrest⟩ := List.forall_mem_cons.mp h
    rw [List.map_cons, Json.writtenItems, List.mapM_cons, ofWritten?_written hp hle.1,
      ih hrest hle.2]
    rfl

end Parameter

/-! ## 3. Signatures -/

namespace Signature

variable {s : Signature}

theorem exact_toJson (h : ∀ p ∈ s.parameters, p.Storable) : s.toJson.Exact := by
  refine .object fun m hm => ?_
  simp only [List.mem_cons, List.not_mem_nil, or_false] at hm
  rcases hm with rfl | rfl
  · refine .array fun j hj => ?_
    obtain ⟨p, hp, rfl⟩ := List.mem_map.mp hj
    exact Parameter.exact_toJson (h p hp)
  · exact Parameter.exact_optionToJson fun t _ => t.exact_toJson

/-- **The text of a signature is read as the signature without its null defaults.** -/
theorem read?_toJson (h : ∀ p ∈ s.parameters, p.Storable)
    (hdepth : s.toJson.depth ≤ Written.depthLimit) :
    read? s.toJson.text = some s.withoutNullDefaults := by
  have hdepths : (Json.array (s.parameters.map Parameter.toJson)).depth ≤ 126 ∧
      (optionToJson TypeSpec.toJson s.returns).depth ≤ 126 := by
    simp only [toJson, Json.depth, Json.membersDepth, Written.depthLimit] at hdepth ⊢
    omega
  have hmembers := Record.members?_written ["parameters", "returns"]
    [("parameters", .array (s.parameters.map Parameter.toJson)),
      ("returns", optionToJson TypeSpec.toJson s.returns)] [] (by simp) (by simp)
  have hfields : ofFields? 126 (some (Json.array (s.parameters.map Parameter.toJson)).written)
      (some (optionToJson TypeSpec.toJson s.returns).written) = some s.withoutNullDefaults := by
    rw [ofFields?, Parameter.listOfWritten?_written h hdepths.1]
    simp only [Parameter.optional?_declared s.returns hdepths.2]
    rfl
  rw [read?, Json.text, String.toList_ofList, Written.read?_write (exact_toJson h),
    Option.bind_some, Written.depthLimit, toJson, Json.written, ofWritten?, hmembers]
  exact hfields

/-! ## 4. Binding to what has been read -/

theorem collect_of_withoutNullDefaults {parameters : List Parameter} {assigned : OrderedMap Value}
    {b b' : BoundArguments}
    (h : collect assigned b (parameters.map Parameter.withoutNullDefault) = .ok b') :
    collect assigned b parameters = .ok b' := by
  induction parameters generalizing assigned b with
  | nil => exact h
  | cons p rest ih =>
    rw [List.map_cons] at h
    rcases collect_cons_eq_ok_iff.mp h with ⟨value, hvalue, h⟩ | ⟨value, hvalue, hfallback, h⟩
    · exact collect_cons_eq_ok_iff.mpr (Or.inl ⟨value, hvalue, ih h⟩)
    · have hkept : p.fallback = some value := (Option.filter_eq_some_iff.mp hfallback).1
      exact collect_cons_eq_ok_iff.mpr (Or.inr ⟨value, hvalue, hkept, ih h⟩)

/-- A call that is accepted without the null defaults is accepted with them, and binds alike. -/
theorem bind_of_withoutNullDefaults {a : Arguments} {b : BoundArguments}
    (h : s.withoutNullDefaults.bind a = .ok b) : s.bind a = .ok b := by
  have hpositional : s.withoutNullDefaults.positionalParameters =
      s.positionalParameters.map Parameter.withoutNullDefault := by
    rw [positionalParameters, withoutNullDefaults, List.filter_map]
    rfl
  have hnames : s.withoutNullDefaults.parameters.map (·.name) = s.parameters.map (·.name) := by
    rw [withoutNullDefaults, List.map_map]
    rfl
  have hassigned : s.withoutNullDefaults.assignPositional a.positional =
      s.assignPositional a.positional := by
    rw [assignPositional, assignPositional, hpositional, List.map_map]
    rfl
  obtain ⟨hlength, assigned, hkeywords, hcollect⟩ := bind_eq_ok_iff.mp h
  rw [hpositional, List.length_map] at hlength
  rw [assignKeywords_congr hnames, hassigned] at hkeywords
  exact bind_eq_ok_iff.mpr
    ⟨hlength, assigned, hkeywords, collect_of_withoutNullDefaults hcollect⟩

/-- **A signature is restored from its text, except for null defaults.**  The order of the
parameters, their names, kinds and types, all other defaults and the type of the result come back
as they were, so the whole signature does exactly when no default is the absence of a value.  If
one is, calls that are still accepted bind as before. -/
theorem restored_from_text (h : ∀ p ∈ s.parameters, p.Storable)
    (hdepth : s.toJson.depth ≤ Written.depthLimit) :
    read? s.toJson.text = some s.withoutNullDefaults ∧
      (read? s.toJson.text = some s ↔ ∀ p ∈ s.parameters, p.fallback ≠ some .none) ∧
      ∀ a b, s.withoutNullDefaults.bind a = .ok b → s.bind a = .ok b := by
  have hread := read?_toJson h hdepth
  refine ⟨hread, ?_, fun a b => bind_of_withoutNullDefaults⟩
  rw [hread, Option.some.injEq]
  exact withoutNullDefaults_eq_self_iff

/-- A parameter with a nested default, and one whose default is lost. -/
def listing : Signature where
  parameters := [
    ⟨"limits", some (.map (.union [.integer, .list .string])), .positionalOrKeyword,
      some (.map [("low", .integer (-1)), ("high", .list [.string "a\n", .none])])⟩,
    ⟨"factor", some (.optional .integer), .keywordOnly, some .none⟩]
  returns := some (.union [])

theorem restored_from_text_listing :
    ((∀ p ∈ listing.parameters, p.Storable) ∧ listing.toJson.depth ≤ Written.depthLimit) ∧
    read? listing.toJson.text = some listing.withoutNullDefaults ∧
      (read? listing.toJson.text = some listing ↔
        ∀ p ∈ listing.parameters, p.fallback ≠ some .none) ∧
      ∀ a b, listing.withoutNullDefaults.bind a = .ok b → listing.bind a = .ok b := by
  have hhigh : (Value.list [.string "a\n", .none]).FloatFree ∧
      (Value.list [.string "a\n", .none]).DistinctKeys :=
    ⟨.list (by simp [Value.FloatFree.string, Value.FloatFree.none]),
      .list (by simp [Value.DistinctKeys.string, Value.DistinctKeys.none])⟩
  have hstorable : ∀ p ∈ listing.parameters, p.Storable := by
    intro p hp v hv
    simp only [listing, List.mem_cons, List.not_mem_nil, or_false] at hp
    rcases hp with rfl | rfl
    · cases hv
      exact ⟨.map (by simp [hhigh.1, Value.FloatFree.integer]),
        .map (by decide) (by simp [hhigh.2, Value.DistinctKeys.integer])⟩
    · cases hv
      exact ⟨.none, .none⟩
  have hdepth : listing.toJson.depth ≤ Written.depthLimit := by decide
  exact ⟨⟨hstorable, hdepth⟩, restored_from_text hstorable hdepth⟩

/-- A parameter that may be left out. -/
def scaling : Signature := ⟨[⟨"factor", some .integer, .positionalOrKeyword, some .none⟩], none⟩

/-- **A default can be lost**: what can be left out before a signature is written and read has to be
supplied afterwards. -/
theorem exists_lost_default : (∀ p ∈ scaling.parameters, p.Storable) ∧
    scaling.toJson.depth ≤ Written.depthLimit ∧
    ∃ s, read? scaling.toJson.text = some s ∧ s ≠ scaling ∧
      scaling.bind .empty = .ok ⟨⟨[("factor", .none)]⟩, ["factor"]⟩ ∧
      s.bind .empty = .error (.missingArgument "factor") := by
  have hstorable : ∀ p ∈ scaling.parameters, p.Storable := by
    intro p hp v hv
    rw [List.mem_singleton.mp hp] at hv
    cases hv
    exact ⟨.none, .none⟩
  have hdepth : scaling.toJson.depth ≤ Written.depthLimit := by decide
  refine ⟨hstorable, hdepth, _, read?_toJson hstorable hdepth, ?_, rfl, rfl⟩
  intro heq
  exact withoutNullDefaults_eq_self_iff.mp heq _ List.mem_cons_self rfl

end Signature

end MethodGuard
