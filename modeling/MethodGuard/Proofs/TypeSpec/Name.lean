/-
# The name of a descriptor

Messages show a descriptor by its name, and the name is written with commas and brackets only.  Maps
print a comma of their own, and a union may stand inside a union, so what the name says hangs on
where the name of each part ends.  It ends where it must: no name goes on where another one ends, so
two texts that begin with a name and agree begin with the name of one descriptor and go on alike
(`displayName_append_inj`).

From this it follows that a name says all of its descriptor, in a message too, whatever else the
message has to say (`identified_by_name`).
-/
import MethodGuard.Proofs.Structure.SelfCheck

namespace MethodGuard

namespace TypeSpec

/-! ## 1. Where a name begins -/

/-- The letter that the name of a descriptor begins with. -/
def initial : TypeSpec → Char
  | .any => 'A'
  | .none => 'N'
  | .boolean => 'B'
  | .integer => 'I'
  | .float => 'F'
  | .string => 'S'
  | .list _ => 'L'
  | .map _ => 'M'
  | .optional _ => 'O'
  | .union _ => 'U'

theorem head?_displayName_append (t : TypeSpec) (rest : List Char) :
    (t.displayName.toList ++ rest).head? = some t.initial := by
  cases t <;> simp [displayName, initial]

/-- Two descriptors with the same outermost constructor. -/
inductive SameKind : TypeSpec → TypeSpec → Prop where
  | any : SameKind .any .any
  | none : SameKind .none .none
  | boolean : SameKind .boolean .boolean
  | integer : SameKind .integer .integer
  | float : SameKind .float .float
  | string : SameKind .string .string
  | list (a b : TypeSpec) : SameKind (.list a) (.list b)
  | map (a b : TypeSpec) : SameKind (.map a) (.map b)
  | optional (a b : TypeSpec) : SameKind (.optional a) (.optional b)
  | union (as bs : List TypeSpec) : SameKind (.union as) (.union bs)

/-- The first letter of a name tells what kind of descriptor it is the name of. -/
theorem sameKind_of_initial_eq {s t : TypeSpec} (h : s.initial = t.initial) : s.SameKind t := by
  cases s <;> cases t <;> first | constructor | exact absurd h (by simp [initial])

theorem sameKind_of_append_eq {s t : TypeSpec} {a b : List Char}
    (h : s.displayName.toList ++ a = t.displayName.toList ++ b) : s.SameKind t := by
  have hhead := congrArg List.head? h
  rw [head?_displayName_append, head?_displayName_append] at hhead
  exact sameKind_of_initial_eq (Option.some.inj hhead)

/-! ## 2. Where a name ends -/

/-- What the name of a union has after the name of a member: further members, and the bracket. -/
def restSpelled : List TypeSpec → List Char
  | [] => [']']
  | t :: rest => ", ".toList ++ (t.displayName.toList ++ restSpelled rest)

/-- The names of the members of a union, and the bracket. -/
def membersSpelled : List TypeSpec → List Char
  | [] => [']']
  | t :: rest => t.displayName.toList ++ restSpelled rest

theorem toList_intercalate_displayNames (t : TypeSpec) (rest : List TypeSpec) :
    (", ".intercalate (displayNames (t :: rest))).toList ++ [']'] =
      t.displayName.toList ++ restSpelled rest := by
  rw [String.toList_intercalate]
  induction rest generalizing t with
  | nil => simp [displayNames, restSpelled]
  | cons u rest ih =>
    rw [displayNames, displayNames, List.map_cons, List.map_cons, List.intercalate_cons_cons,
      restSpelled, ← ih u, displayNames, List.map_cons]
    simp only [List.append_assoc]

theorem toList_displayName_union (members : List TypeSpec) :
    (union members).displayName.toList = "Union[".toList ++ membersSpelled members := by
  cases members with
  | nil => rfl
  | cons t rest =>
    rw [membersSpelled, ← toList_intercalate_displayNames, displayName, String.toList_append,
      String.toList_append, List.append_assoc]
    rfl

theorem initial_ne_bracket (t : TypeSpec) : t.initial ≠ ']' := by
  cases t <;> simp [initial]

/-- What begins with a name does not begin with a bracket. -/
theorem displayName_append_ne (t : TypeSpec) (a b : List Char) :
    t.displayName.toList ++ a ≠ ']' :: b := by
  intro h
  have hhead := congrArg List.head? h
  rw [head?_displayName_append, List.head?_cons] at hhead
  exact t.initial_ne_bracket (Option.some.inj hhead)

/-- What holds of the name of a descriptor holds of that name between an opening and a bracket. -/
theorem bracketed_append_inj {opening : String} {s t : TypeSpec} {a b : List Char}
    (hinner : ∀ {a b : List Char}, s.displayName.toList ++ a = t.displayName.toList ++ b →
      s = t ∧ a = b)
    (h : (opening ++ s.displayName ++ "]").toList ++ a =
      (opening ++ t.displayName ++ "]").toList ++ b) : s = t ∧ a = b := by
  simp only [String.toList_append, List.append_assoc] at h
  obtain ⟨hname, hrest⟩ := hinner (List.append_cancel_left h)
  exact ⟨hname, List.append_cancel_left hrest⟩

mutual

/-- **A name ends where it must.**  Texts that begin with names and agree begin with the name of one
descriptor and agree after it. -/
theorem displayName_append_inj : (s : TypeSpec) → {t : TypeSpec} → {a b : List Char} →
    s.displayName.toList ++ a = t.displayName.toList ++ b → s = t ∧ a = b
  | .any, _, _, _, h => by
    cases sameKind_of_append_eq h with
    | any => exact ⟨rfl, List.append_cancel_left h⟩
  | .none, _, _, _, h => by
    cases sameKind_of_append_eq h with
    | none => exact ⟨rfl, List.append_cancel_left h⟩
  | .boolean, _, _, _, h => by
    cases sameKind_of_append_eq h with
    | boolean => exact ⟨rfl, List.append_cancel_left h⟩
  | .integer, _, _, _, h => by
    cases sameKind_of_append_eq h with
    | integer => exact ⟨rfl, List.append_cancel_left h⟩
  | .float, _, _, _, h => by
    cases sameKind_of_append_eq h with
    | float => exact ⟨rfl, List.append_cancel_left h⟩
  | .string, _, _, _, h => by
    cases sameKind_of_append_eq h with
    | string => exact ⟨rfl, List.append_cancel_left h⟩
  | .list element, _, _, _, h => by
    cases sameKind_of_append_eq h with
    | list =>
      rw [displayName, displayName] at h
      exact (bracketed_append_inj (displayName_append_inj element) h).imp_left (congrArg list)
  | .map element, _, _, _, h => by
    cases sameKind_of_append_eq h with
    | map =>
      rw [displayName, displayName] at h
      exact (bracketed_append_inj (displayName_append_inj element) h).imp_left (congrArg map)
  | .optional inner, _, _, _, h => by
    cases sameKind_of_append_eq h with
    | optional =>
      rw [displayName, displayName] at h
      exact (bracketed_append_inj (displayName_append_inj inner) h).imp_left (congrArg optional)
  | .union members, _, _, _, h => by
    cases sameKind_of_append_eq h with
    | union =>
      simp only [toList_displayName_union, List.append_assoc] at h
      obtain ⟨rfl, hrest⟩ := membersSpelled_append_inj members (List.append_cancel_left h)
      exact ⟨rfl, hrest⟩

/-- A union without members is told from others by its bracket. -/
theorem membersSpelled_append_inj : (ms : List TypeSpec) → {ns : List TypeSpec} →
    {a b : List Char} → membersSpelled ms ++ a = membersSpelled ns ++ b → ms = ns ∧ a = b
  | [], [], _, _, h => ⟨rfl, List.append_cancel_left h⟩
  | [], u :: us, _, b, h => by
    rw [membersSpelled, membersSpelled, List.append_assoc] at h
    exact absurd h.symm (u.displayName_append_ne _ _)
  | t :: ts, [], a, _, h => by
    rw [membersSpelled, membersSpelled, List.append_assoc] at h
    exact absurd h (t.displayName_append_ne _ _)
  | t :: ts, u :: us, _, _, h => by
    rw [membersSpelled, membersSpelled, List.append_assoc, List.append_assoc] at h
    obtain ⟨rfl, hrest⟩ := displayName_append_inj t h
    obtain ⟨rfl, hafter⟩ := restSpelled_append_inj ts hrest
    exact ⟨rfl, hafter⟩

/-- After a member there is a comma or the bracket. -/
theorem restSpelled_append_inj : (ms : List TypeSpec) → {ns : List TypeSpec} →
    {a b : List Char} → restSpelled ms ++ a = restSpelled ns ++ b → ms = ns ∧ a = b
  | [], [], _, _, h => ⟨rfl, List.append_cancel_left h⟩
  | [], _ :: _, _, _, h => by simp [restSpelled] at h
  | _ :: _, [], _, _, h => by simp [restSpelled] at h
  | t :: ts, u :: us, _, _, h => by
    simp only [restSpelled, List.append_assoc] at h
    obtain ⟨rfl, hrest⟩ := displayName_append_inj t (List.append_cancel_left h)
    obtain ⟨rfl, hafter⟩ := restSpelled_append_inj ts hrest
    exact ⟨rfl, hafter⟩

end

/-! ## 3. Names in messages -/

/-- What comes after a name in a message does not change whose name it is. -/
theorem displayName_append_eq_iff {s t : TypeSpec} {a b : String} :
    s.displayName ++ a = t.displayName ++ b ↔ s = t ∧ a = b := by
  constructor
  · intro h
    have htexts : s.displayName.toList ++ a.toList = t.displayName.toList ++ b.toList := by
      rw [← String.toList_append, ← String.toList_append, h]
    obtain ⟨hname, hafter⟩ := displayName_append_inj s htexts
    exact ⟨hname, String.toList_inj.mp hafter⟩
  · rintro ⟨rfl, rfl⟩
    rfl

theorem displayName_eq_iff {s t : TypeSpec} : s.displayName = t.displayName ↔ s = t := by
  have h := displayName_append_eq_iff (s := s) (t := t) (a := "") (b := "")
  rwa [String.append_empty, String.append_empty, and_iff_left rfl] at h

theorem displayName_ne_unannotated (t : TypeSpec) : t.displayName ≠ "no annotation" := by
  intro h
  have hhead := t.head?_displayName_append []
  rw [List.append_nil, h] at hhead
  revert hhead
  cases t <;> simp [initial]

/-- What a problem says it found tells the annotation, and whether there is one. -/
theorem returnName_eq_iff {x y : Option TypeSpec} :
    Shape.returnName x = Shape.returnName y ↔ x = y := by
  cases x with
  | none =>
    cases y with
    | none => exact iff_of_true rfl rfl
    | some t => exact iff_of_false (displayName_ne_unannotated t).symm nofun
  | some s =>
    cases y with
    | none => exact iff_of_false (displayName_ne_unannotated s) nofun
    | some t => exact displayName_eq_iff.trans (Option.some_inj).symm

open Shape (requireContract returnName ContractProblem requireContract_eq_error_iff SameParameters)

/-- A validator is refused for its result when it has the parameters of its method and an annotation
other than the one asked for, and the problem names that annotation. -/
theorem requireContract_eq_validatorReturn_iff {name : String} {method validator : Method}
    {declared : Option TypeSpec} :
    requireContract name method validator =
        .error (.validatorReturn (validatorName name) (returnName declared)) ↔
      SameParameters validator method ∧
        validator.signature.returns = declared ∧ declared ≠ some .none := by
  rw [requireContract_eq_error_iff]
  constructor
  · intro h
    generalize hname : returnName declared = found at h
    cases h with
    | @returns spec hsame hfound hspec =>
      obtain rfl := (returnName_eq_iff (y := some spec)).mp hname
      exact ⟨hsame, hfound, fun hnone => hspec (Option.some.inj hnone)⟩
    | unannotated hsame hfound =>
      obtain rfl := (returnName_eq_iff (y := Option.none)).mp hname
      exact ⟨hsame, hfound, nofun⟩
  · rintro ⟨hsame, hfound, hother⟩
    cases declared with
    | none => exact .unannotated hsame hfound
    | some spec => exact .returns hsame hfound fun hnone => hother (congrArg some hnone)

/-- Messages that say the same up to a name go on after it with a colon and a detail. -/
theorem append_displayName_detail_eq_iff {before detail detail' : String} {s t : TypeSpec} :
    before ++ s.displayName ++ ": " ++ detail = before ++ t.displayName ++ ": " ++ detail' ↔
      s = t ∧ detail = detail' := by
  simp only [String.append_assoc, String.append_right_inj, displayName_append_eq_iff]

/-- **A name says all of its descriptor**, and what is said where there is no annotation is the name
of none.  So the messages of two refused arguments, or of two refused results, agree only if the
same was expected, and a problem with the result of a validator tells how that is annotated. -/
theorem identified_by_name :
    (∀ s t : TypeSpec, s.displayName = t.displayName ↔ s = t) ∧
    (∀ t : TypeSpec, t.displayName ≠ "no annotation") ∧
    (∀ (method parameter : String) (s t : TypeSpec) (detail detail' : String),
      (CallError.argumentType method parameter s detail).message =
        (CallError.argumentType method parameter t detail').message ↔ s = t ∧ detail = detail') ∧
    (∀ (method : String) (s t : TypeSpec) (detail detail' : String),
      (CallError.returnType method s detail).message =
        (CallError.returnType method t detail').message ↔ s = t ∧ detail = detail') ∧
    (∀ (validator : String) (x y : Option TypeSpec),
      (StructureError.validatorReturn validator (returnName x)).message =
        (StructureError.validatorReturn validator (returnName y)).message ↔ x = y) ∧
    ∀ (name : String) (method validator : Method) (declared : Option TypeSpec),
      requireContract name method validator =
          .error (.validatorReturn (validatorName name) (returnName declared)) ↔
        SameParameters validator method ∧
          validator.signature.returns = declared ∧ declared ≠ some .none := by
  refine ⟨fun s t => displayName_eq_iff, displayName_ne_unannotated,
    fun method parameter s t detail detail' => append_displayName_detail_eq_iff,
    fun method s t detail detail' => append_displayName_detail_eq_iff, fun validator x y => ?_,
    fun name method validator declared => requireContract_eq_validatorReturn_iff⟩
  simp only [StructureError.message, String.append_right_inj, returnName_eq_iff]

/-- The commas of a map, of a union and of a union inside it are not mixed up. -/
example : (union [.map .any, .string]).displayName = "Union[Map[String, Any], String]" ∧
    (union [.union [.map .any, .string]]).displayName = "Union[Union[Map[String, Any], String]]" ∧
    (union [.union [.map .any], .string]).displayName = "Union[Union[Map[String, Any]], String]" :=
  ⟨rfl, rfl, rfl⟩

end TypeSpec

end MethodGuard
