/-
# Supplied arguments and their annotations

Two parameters may share a name.  The type check of a call looks a name up and takes the FIRST
parameter of it, so one has to know that a name reported as supplied belongs to no other one: the
first parameter of a name uses the supplied value up, and a second one falls back on its default,
which is remembered (`Signature.find?_of_bind`).  With that, the checks of arguments and results
say what they should of every annotated parameter (`check_supplied_of_checkArguments`).
-/
import MethodGuard.Proofs.OrderedMap
import MethodGuard.Signature.TypeCheck

namespace MethodGuard

/-! ## 1. Names that fell back stay remembered -/

namespace BoundArguments

theorem mem_defaulted_fallBack {b : BoundArguments} {name other : String} {value : Value} :
    other ∈ (b.fallBack name value).defaulted ↔ other = name ∨ other ∈ b.defaulted := by
  simp only [fallBack]
  split
  · rename_i hname
    have hmem : name ∈ b.defaulted := by simpa using hname
    exact ⟨Or.inr, fun h => h.elim (fun e => e ▸ hmem) id⟩
  · rw [List.mem_append, List.mem_singleton, or_comm]

theorem isSupplied_iff {b : BoundArguments} {name : String} :
    b.isSupplied name = true ↔ name ∈ b.values.keys ∧ name ∉ b.defaulted := by
  simp [isSupplied, OrderedMap.contains_iff]

end BoundArguments

namespace Signature

variable {assigned : OrderedMap Value} {b b' : BoundArguments} {ps : List Parameter} {name : String}

/-- What walking over one parameter does, when the walk succeeds. -/
theorem collect_cons_eq_ok_iff {p : Parameter} :
    collect assigned b (p :: ps) = .ok b' ↔
      (∃ value, assigned.find? p.name = some value ∧
        collect (assigned.erase p.name) (b.supply p.name value) ps = .ok b') ∨
      ∃ value, assigned.find? p.name = none ∧ p.fallback = some value ∧
        collect assigned (b.fallBack p.name value) ps = .ok b' := by
  rw [collect]
  cases assigned.find? p.name with
  | some value => simp
  | none => cases p.fallback <;> simp

theorem mem_defaulted_of_collect (h : collect assigned b ps = .ok b') (hname : name ∈ b.defaulted) :
    name ∈ b'.defaulted := by
  induction ps generalizing assigned b with
  | nil =>
    cases h
    exact hname
  | cons p ps ih =>
    rcases collect_cons_eq_ok_iff.mp h with ⟨value, -, h⟩ | ⟨value, -, -, h⟩
    · exact ih h hname
    · exact ih h (BoundArguments.mem_defaulted_fallBack.mpr (Or.inr hname))

/-- A parameter that finds no value falls back. -/
theorem mem_defaulted_of_find?_eq_none (h : collect assigned b ps = .ok b')
    (hnone : assigned.find? name = none) {q : Parameter} (hq : q ∈ ps) (hqname : q.name = name) :
    name ∈ b'.defaulted := by
  induction ps generalizing assigned b with
  | nil => cases hq
  | cons p ps ih =>
    rcases collect_cons_eq_ok_iff.mp h with ⟨value, hfound, h⟩ | ⟨value, -, -, h⟩
    · rcases List.mem_cons.mp hq with rfl | hq
      · rw [hqname, hnone] at hfound
        cases hfound
      · have hnone' : (assigned.erase p.name).find? name = none := by
          rw [OrderedMap.find?_erase, hnone, ite_self]
        exact ih h hnone' hq
    · rcases List.mem_cons.mp hq with rfl | hq
      · exact mem_defaulted_of_collect h
          (BoundArguments.mem_defaulted_fallBack.mpr (Or.inl hqname.symm))
      · exact ih h hnone hq

/-- A parameter whose name did not fall back is the first of that name. -/
theorem find?_of_collect (h : collect assigned b ps = .ok b') (hname : name ∉ b'.defaulted)
    {q : Parameter} (hq : q ∈ ps) (hqname : q.name = name) :
    ps.find? (fun p => p.name == name) = some q := by
  induction ps generalizing assigned b with
  | nil => cases hq
  | cons p ps ih =>
    by_cases hp : p.name = name
    · rw [List.find?_cons_of_pos (by simpa using hp)]
      rcases List.mem_cons.mp hq with rfl | hq
      · rfl
      -- a second parameter of the name is left without a value
      · rcases collect_cons_eq_ok_iff.mp h with ⟨value, -, h⟩ | ⟨value, hnone, -, h⟩
        · have hnone : (assigned.erase p.name).find? name = none := by
            rw [OrderedMap.find?_erase, if_pos hp.symm]
          exact absurd (mem_defaulted_of_find?_eq_none h hnone hq hqname) hname
        · exact absurd (mem_defaulted_of_find?_eq_none h (hp ▸ hnone) hq hqname) hname
    · rw [List.find?_cons_of_neg (by simpa using hp)]
      have hq' : q ∈ ps := (List.mem_cons.mp hq).resolve_left fun e => hp (e ▸ hqname)
      rcases collect_cons_eq_ok_iff.mp h with ⟨value, -, h⟩ | ⟨value, -, -, h⟩
      · exact ih h hq'
      · exact ih h hq'

theorem bind_eq_ok_iff {s : Signature} {a : Arguments} :
    s.bind a = .ok b' ↔ a.positional.length ≤ s.positionalParameters.length ∧
      ∃ assigned, s.assignKeywords (s.assignPositional a.positional) a.keyword.entries
          = .ok assigned ∧ collect assigned .empty s.parameters = .ok b' := by
  simp only [bind]
  split
  · rename_i hmany
    simp [Nat.not_le.mpr hmany]
  · rename_i hfew
    cases s.assignKeywords (s.assignPositional a.positional) a.keyword.entries with
    | error e => simp
    | ok assigned => simp [Nat.not_lt.mp hfew]

/-- **A supplied name belongs to one parameter**, and looking the name up finds it. -/
theorem find?_of_bind {s : Signature} {a : Arguments} (h : s.bind a = .ok b)
    (hname : name ∉ b.defaulted) {q : Parameter} (hq : q ∈ s.parameters) (hqname : q.name = name) :
    s.find? name = some q := by
  obtain ⟨-, assigned, -, hcollect⟩ := bind_eq_ok_iff.mp h
  exact find?_of_collect hcollect hname hq hqname

end Signature

/-! ## 2. The checks -/

theorem checkSupplied_eq_ok_iff {method : String} {s : Signature} {strategy : CollectionCheck}
    {entries : List (String × Value)} :
    checkSupplied method s strategy entries = .ok () ↔ ∀ name value, (name, value) ∈ entries →
      ∀ q, s.find? name = some q → ∀ spec, q.declared = some spec →
        spec.check strategy value = .ok () := by
  induction entries with
  | nil => simp [checkSupplied]
  | cons entry rest ih =>
    obtain ⟨name, value⟩ := entry
    have hsplit (P : String → Value → Prop) : (∀ n v, (n, v) ∈ (name, value) :: rest → P n v) ↔
        P name value ∧ ∀ n v, (n, v) ∈ rest → P n v := by
      simp only [List.mem_cons, Prod.mk.injEq]
      grind
    rw [hsplit, ← ih, checkSupplied]
    rcases hfound : s.find? name with _ | q
    · simp
    · rcases hdeclared : q.declared with _ | spec
      · simp [hdeclared]
      · cases hcheck : spec.check strategy value <;> simp [hdeclared, hcheck]

/-- A failed check of supplied values reports the type of one of them. -/
theorem exists_argumentType_of_checkSupplied {method : String} {s : Signature}
    {strategy : CollectionCheck} {entries : List (String × Value)} {e : CallError}
    (h : checkSupplied method s strategy entries = .error e) :
    ∃ parameter spec detail, e = .argumentType method parameter spec detail := by
  induction entries with
  | nil => cases h
  | cons entry rest ih =>
    obtain ⟨name, value⟩ := entry
    rw [checkSupplied] at h
    split at h
    · exact ih h
    · rename_i spec _
      split at h
      · exact ih h
      · cases h
        exact ⟨name, spec, _, rfl⟩

/-- A failed check of a result reports its type. -/
theorem exists_returnType_of_checkReturn {method : String} {s : Signature} {value : Value}
    {strategy : CollectionCheck} {e : CallError}
    (h : checkReturn method s value strategy = .error e) :
    ∃ spec detail, e = .returnType method spec detail := by
  rw [checkReturn] at h
  split at h
  · cases h
  · rename_i spec _
    split at h
    · cases h
    · cases h
      exact ⟨spec, _, rfl⟩

/-- **The arguments that were supplied have the types that their parameters declare.** -/
theorem check_supplied_of_checkArguments {method : String} {s : Signature} {a : Arguments}
    {b : BoundArguments} {strategy : CollectionCheck} (hbind : s.bind a = .ok b)
    (hcheck : checkArguments method s b strategy = .ok ()) {q : Parameter} {spec : TypeSpec}
    {value : Value} (hq : q ∈ s.parameters) (hdeclared : q.declared = some spec)
    (hsupplied : b.isSupplied q.name = true) (hvalue : b.find? q.name = some value) :
    spec.check strategy value = .ok () := by
  have hname : q.name ∉ b.defaulted := (BoundArguments.isSupplied_iff.mp hsupplied).2
  have hentry : (q.name, value) ∈ b.supplied := by
    simp only [BoundArguments.supplied, BoundArguments.entries, List.mem_filter]
    exact ⟨OrderedMap.mem_entries_of_find? hvalue, by simpa using hname⟩
  exact checkSupplied_eq_ok_iff.mp hcheck q.name value hentry q
    (Signature.find?_of_bind hbind hname hq rfl) spec hdeclared

/-- **The result has the type that the signature declares.** -/
theorem checkReturn_eq_ok_iff {method : String} {s : Signature} {value : Value}
    {strategy : CollectionCheck} : checkReturn method s value strategy = .ok () ↔
      ∀ spec, s.returns = some spec → spec.check strategy value = .ok () := by
  rw [checkReturn]
  cases s.returns with
  | none => simp
  | some spec => cases hcheck : spec.check strategy value <;> simp [hcheck]

end MethodGuard
