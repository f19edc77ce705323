/-
# The first argument of a wrong type

Binding decides which names took a default and in which order the values are kept; the type check
goes through the kept values and looks each name up in the signature again.  Where the parameters
have different names, the two agree: the check is one of the parameters in the order of declaration,
each against the value that the call supplies for it (`Signature.checkArguments_eq`).  The defaults
do not occur in what it comes to, and neither does the order in which the caller wrote keywords.
-/
import MethodGuard.Proofs.Signature.Assignment

namespace MethodGuard

namespace Signature

variable {s : Signature} {a : Arguments} {b : BoundArguments} {method : String}
  {strategy : CollectionCheck} {p : Parameter}

/-! ## 1. What is wrong with one parameter -/

/-- **The error of a parameter**, if the call supplies a value that the declared type does not
admit. -/
def typeFault? (s : Signature) (a : Arguments) (method : String) (strategy : CollectionCheck)
    (p : Parameter) : Option CallError :=
  match p.declared, s.supplied? a p.name with
  | some spec, some value =>
    match spec.check strategy value with
    | .ok () => none
    | .error m => some (.argumentType method p.name spec m.message)
  | _, _ => none

theorem typeFault?_eq_some_iff {e : CallError} : s.typeFault? a method strategy p = some e ↔
    ∃ spec value m, p.declared = some spec ∧ s.supplied? a p.name = some value ∧
      spec.check strategy value = .error m ∧ e = .argumentType method p.name spec m.message := by
  rw [typeFault?]
  cases p.declared with
  | none => simp
  | some spec =>
    cases s.supplied? a p.name with
    | none => simp
    | some value => cases hcheck : spec.check strategy value <;> simp [hcheck, eq_comm]

theorem typeFault?_eq_none_iff : s.typeFault? a method strategy p = none ↔
    ∀ spec value, p.declared = some spec → s.supplied? a p.name = some value →
      spec.check strategy value = .ok () := by
  rw [typeFault?]
  cases p.declared with
  | none => simp
  | some spec =>
    cases s.supplied? a p.name with
    | none => simp
    | some value => cases hcheck : spec.check strategy value <;> simp [hcheck]

/-! ## 2. The check in the order of declaration -/

/-- Looking up the name of a parameter finds that parameter, if the names differ. -/
theorem find?_of_mem (hnames : (s.parameters.map (·.name)).Nodup) (hp : p ∈ s.parameters) :
    s.find? p.name = some p := by
  obtain ⟨q, hq⟩ : ∃ q, s.find? p.name = some q := by
    rw [← Option.ne_none_iff_exists', Ne, find?_eq_none_iff]
    exact not_not_intro (List.mem_map_of_mem hp)
  have hname : q.name = p.name := by simpa using List.find?_some hq
  have hmem : q ∈ s.parameters := List.mem_of_find?_eq_some hq
  rw [hq, List.inj_on_of_nodup_map hnames hmem hp hname]

/-- **A call that binds fills the parameters.** -/
theorem fills_of_bind (hnames : (s.parameters.map (·.name)).Nodup) (hbind : s.bind a = .ok b) :
    b.Fills s a := by
  have hkeywords : a.keyword.keys.Nodup := by
    have hnodup := ((bind_eq_ok_iff_named hnames).mp hbind).2.2.1
    rw [named, List.map_append] at hnodup
    exact hnodup.of_append_right
  rw [bind_eq hnames hkeywords] at hbind
  cases hrefusal : s.refusal? a with
  | some e =>
    rw [hrefusal] at hbind
    cases hbind
  | none =>
    rw [hrefusal] at hbind
    cases hbind
    exact BoundArguments.fills_filled hnames (refusal?_eq_none_iff.mp hrefusal).2.2
      fun _ => mem_names_of_supplied hrefusal

/-- Going through the supplied values of some parameters is going through these parameters. -/
theorem checkSupplied_eq {ps : List Parameter} (hfind : ∀ p ∈ ps, s.find? p.name = some p) :
    checkSupplied method s strategy
        (ps.filterMap fun p => (s.supplied? a p.name).map fun value => (p.name, value)) =
      okUnless (ps.findSome? (s.typeFault? a method strategy)) () := by
  induction ps with
  | nil => rfl
  | cons p rest ih =>
    obtain ⟨hp, hrest⟩ := List.forall_mem_cons.mp hfind
    rw [List.findSome?_cons, typeFault?, List.filterMap_cons]
    cases hsupplied : s.supplied? a p.name with
    | none =>
      cases p.declared <;> exact ih hrest
    | some value =>
      simp only [Option.map_some]
      rw [checkSupplied, hp, Option.bind_some]
      cases p.declared with
      | none => exact ih hrest
      | some spec =>
        cases hcheck : spec.check strategy value with
        | ok _ => simpa [hcheck] using ih hrest
        | error m => simp [hcheck, okUnless]

/-- **The type check of bound arguments has a closed form** where the names of the parameters
differ. -/
theorem checkArguments_eq (hnames : (s.parameters.map (·.name)).Nodup) (hbind : s.bind a = .ok b) :
    checkArguments method s b strategy =
      okUnless (s.parameters.findSome? (s.typeFault? a method strategy)) () := by
  rw [checkArguments, (fills_of_bind hnames hbind).supplied]
  exact checkSupplied_eq fun p hp => find?_of_mem hnames hp

/-! ## 3. The first fault -/

/-- **What the type check of a call comes to.** -/
structure CheckedAsDeclared (s : Signature) (a : Arguments) (method : String)
    (strategy : CollectionCheck) (result : Except CallError Unit) : Prop where
  /-- It succeeds when every value that the caller supplies is admitted by the type that its
  parameter declares. -/
  ok_iff : result = .ok () ↔ ∀ p ∈ s.parameters, ∀ spec value, p.declared = some spec →
    s.supplied? a p.name = some value → spec.check strategy value = .ok ()
  /-- It reports the first parameter in the order of declaration whose value is not admitted, with
  the type that this parameter declares and what is wrong with the value. -/
  error_iff : ∀ e, result = .error e ↔ ∃ before p after spec value m,
    s.parameters = before ++ p :: after ∧
    (∀ q ∈ before, ∀ spec value, q.declared = some spec → s.supplied? a q.name = some value →
      spec.check strategy value = .ok ()) ∧
    p.declared = some spec ∧ s.supplied? a p.name = some value ∧
    spec.check strategy value = .error m ∧ e = .argumentType method p.name spec m.message
  /-- A parameter that takes its default is not reported. -/
  ne_default : ∀ p ∈ s.parameters, s.supplied? a p.name = none →
    ∀ spec detail, result ≠ .error (.argumentType method p.name spec detail)
  /-- A value that the caller supplies is checked though it be the default. -/
  checks_default : ∀ p ∈ s.parameters, ∀ spec value m, p.declared = some spec →
    p.fallback = some value → s.supplied? a p.name = some value →
    spec.check strategy value = .error m → ∃ e, result = .error e

/-- **Supplied arguments are checked in the order of declaration**, whichever way the caller wrote
them, and defaults are not. -/
theorem check_as_declared (hnames : (s.parameters.map (·.name)).Nodup) (hbind : s.bind a = .ok b)
    (method : String) (strategy : CollectionCheck) :
    s.CheckedAsDeclared a method strategy (checkArguments method s b strategy) := by
  rw [checkArguments_eq hnames hbind]
  have herror : ∀ e, okUnless (s.parameters.findSome? (s.typeFault? a method strategy)) () =
      .error e ↔ ∃ before p after, s.parameters = before ++ p :: after ∧
        s.typeFault? a method strategy p = some e ∧
        ∀ q ∈ before, s.typeFault? a method strategy q = none := fun e => by
    rw [okUnless_eq_error_iff, List.findSome?_eq_some_iff]
  refine ⟨?_, fun e => ?_, fun p hp hdefault spec detail hresult => ?_,
    fun p hp spec value m hdeclared _ hsupplied hcheck => ?_⟩
  · rw [okUnless_eq_ok_iff, List.findSome?_eq_none_iff]
    simp only [typeFault?_eq_none_iff]
  · rw [herror]
    simp only [typeFault?_eq_none_iff, typeFault?_eq_some_iff]
    constructor
    · rintro ⟨before, p, after, hsplit, ⟨spec, value, m, hfault⟩, hbefore⟩
      exact ⟨before, p, after, spec, value, m, hsplit, hbefore, hfault⟩
    · rintro ⟨before, p, after, spec, value, m, hsplit, hbefore, hfault⟩
      exact ⟨before, p, after, hsplit, ⟨spec, value, m, hfault⟩, hbefore⟩
  · obtain ⟨before, q, after, hsplit, hfault, -⟩ := (herror _).mp hresult
    obtain ⟨_, value, m, -, hsupplied, -, he⟩ := typeFault?_eq_some_iff.mp hfault
    obtain ⟨-, hname, -⟩ := CallError.argumentType.inj he
    rw [← hname, hdefault] at hsupplied
    cases hsupplied
  · have hfault : s.typeFault? a method strategy p =
        some (.argumentType method p.name spec m.message) :=
      typeFault?_eq_some_iff.mpr ⟨spec, value, m, hdeclared, hsupplied, hcheck, rfl⟩
    cases hfound : s.parameters.findSome? (s.typeFault? a method strategy) with
    | some e => exact ⟨e, rfl⟩
    | none =>
      rw [List.findSome?_eq_none_iff.mp hfound p hp] at hfault
      cases hfault

/-- A method with two defaults that its own annotations do not admit. -/
def banner : Signature where
  parameters := [.typed "width" .integer,
    ⟨"color", some .string, .keywordOnly, some .none⟩,
    ⟨"height", some .integer, .positionalOrKeyword, some (.string "auto")⟩,
    .typed "text" .string]
  returns := none

theorem check_as_declared_banner :
    let call : Arguments := ((Arguments.empty.kwarg "text" (.integer 5)).kwarg "height"
      (.string "auto")).kwarg "width" (.integer 3)
    ∃ b, ((banner.parameters.map (·.name)).Nodup ∧ banner.bind call = .ok b) ∧
      banner.CheckedAsDeclared call "draw" .allItems (checkArguments "draw" banner b .allItems) ∧
      checkArguments "draw" banner b .allItems =
        .error (.argumentType "draw" "height" .integer "String is not Integer") := by
  intro call
  have hnames : (banner.parameters.map (·.name)).Nodup := by decide
  obtain ⟨b, hbind⟩ : ∃ b, banner.bind call = .ok b := ⟨_, rfl⟩
  have hchecked := check_as_declared hnames hbind "draw" .allItems
  refine ⟨b, ⟨hnames, hbind⟩, hchecked, (hchecked.error_iff _).mpr ?_⟩
  refine ⟨banner.parameters.take 2, _, _, _, .string "auto", .kind .string .integer, rfl, ?_, rfl,
    rfl, rfl, rfl⟩
  intro q hq spec value hdeclared hsupplied
  -- of the two parameters before the height, the call supplies the width only
  rcases List.mem_pair.mp hq with rfl | rfl
  · cases hdeclared
    cases hsupplied
    rfl
  · cases hsupplied

end Signature

end MethodGuard
