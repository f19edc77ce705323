/-
# The arithmetic of the example classes

`AdderExample` and `MultiplierExample` write the method that `ActionExample` declares, and inherit
its markers and its validator.  `Examples.Answer` says, without the classes, what a call of that
method should come to: a total in exact arithmetic, as long as 64 bits hold every total on the way,
and otherwise one of four errors.  `Examples.action_exact` says that the call comes to just that and
leaves the object as it was.

The argument goes from the inside to the outside: the fold over 64-bit integers against the fold
over all integers (`foldNumbers_of_fits`, `foldNumbers_of_overflow`), what the checkpoints do with
functions that leave the fields alone (`Run.Computes`), and the class with its one proxy.
-/
import Mathlib.Algebra.Ring.Int.Defs
import Mathlib.Data.List.Infix
import MethodGuard.Catalog.Examples
import MethodGuard.Proofs.Call.Run
import MethodGuard.Proofs.Class.History
import MethodGuard.Proofs.Signature.Respelling
import MethodGuard.Proofs.TypeSpec.Inhabits
import MethodGuard.Proofs.Value.RoundTrip

namespace MethodGuard

/-! ## 1. Calls with one argument -/

/-- The call gives one value, by position or by name, and nothing else. -/
def Arguments.GivesOnly (a : Arguments) (name : String) (value : Value) : Prop :=
  (a.positional = [value] ∧ a.keyword.entries = []) ∨
    (a.positional = [] ∧ a.keyword.entries = [(name, value)])

/-- **A single parameter is bound** by the calls that give one value for it. -/
theorem Signature.bind_single_iff {s : Signature} {p : Parameter} {a : Arguments}
    {b : BoundArguments} (hs : s.parameters = [p]) (hkind : p.isPositional = true)
    (hfallback : p.fallback = none) : s.bind a = .ok b ↔
      ∃ value, a.GivesOnly p.name value ∧ b = BoundArguments.empty.supply p.name value := by
  have hnames : (s.parameters.map (·.name)).Nodup := by rw [hs]; exact List.nodup_singleton _
  have hpositional : s.positionalNames = [p.name] := by
    simp [positionalNames, positionalParameters, hs, hkind]
  rw [bind_eq_ok_iff_named hnames, hpositional, named, hpositional, hs]
  obtain ⟨positional, ⟨keywords⟩⟩ := a
  simp only [Arguments.GivesOnly, List.map_singleton, List.mem_singleton]
  constructor
  · rintro ⟨hlength, hknown, hnodup, hcollect⟩
    -- all values of the call are for the one name, so there is one value at most
    have hsame : ∀ name ∈ keywords.map Prod.fst, name = p.name := by
      intro name hname
      obtain ⟨keyword, hkeyword, rfl⟩ := List.mem_map.mp hname
      exact hknown keyword hkeyword
    rcases positional with _ | ⟨value, _ | ⟨_, _⟩⟩
    · rcases keywords with _ | ⟨⟨name, value⟩, _ | ⟨⟨name', _⟩, _⟩⟩
      · simp [collect, OrderedMap.find?, hfallback] at hcollect
      · obtain rfl : name = p.name := hsame name (by simp)
        simp only [List.zip_nil_right, List.nil_append] at hcollect
        rw [collect, OrderedMap.find?, List.lookup_cons_self] at hcollect
        exact ⟨value, Or.inr ⟨rfl, rfl⟩, (Except.ok.inj hcollect).symm⟩
      · obtain rfl : name = p.name := hsame name (by simp)
        obtain rfl : name' = p.name := hsame name' (by simp)
        simp at hnodup
    · rcases keywords with _ | ⟨⟨name, _⟩, _⟩
      · simp only [List.zip_cons_cons, List.zip_nil_right, List.append_nil] at hcollect
        rw [collect, OrderedMap.find?, List.lookup_cons_self] at hcollect
        exact ⟨value, Or.inl ⟨rfl, rfl⟩, (Except.ok.inj hcollect).symm⟩
      · obtain rfl : name = p.name := hsame name (by simp)
        simp at hnodup
    · simp at hlength
  · rintro ⟨value, ⟨rfl, rfl⟩ | ⟨rfl, rfl⟩, rfl⟩
    · simp [collect, OrderedMap.find?]
    · simp [collect, OrderedMap.find?]

/-- What a signature declares of the result is no matter of binding. -/
theorem Signature.bind_returning (s : Signature) (spec : TypeSpec) (a : Arguments) :
    (s.returning spec).bind a = s.bind a := by
  simp only [bind, assignKeywords_congr (s := s.returning spec) (t := s) rfl]
  rfl

/-! ## 2. Runs that leave the fields alone -/

/-- The run gives this value and leaves the fields as they are, whatever they are. -/
def Run.Computes {α : Type u} (run : Run α) (value : α) : Prop :=
  ∀ fields, ∃ events, run fields = some ⟨value, fields, events⟩

namespace Run

variable {α : Type u} {β : Type v} {ε : Type w}

theorem computes_pure (value : α) : (pure value).Computes value := fun _ => ⟨[], rfl⟩

theorem computes_log (event : Event) (value : α) : (log event value).Computes value :=
  fun _ => ⟨[event], rfl⟩

theorem Computes.bind {first : Run α} {next : α → Run β} {a : α} {b : β}
    (hfirst : first.Computes a) (hnext : (next a).Computes b) : (first.bind next).Computes b := by
  intro fields
  obtain ⟨events, ho⟩ := hfirst fields
  obtain ⟨events', ho'⟩ := hnext fields
  exact ⟨_, bind_eq_some_iff.mpr ⟨_, _, ho, ho', rfl⟩⟩

theorem Computes.andThen {first : Run (Except ε α)} {next : α → Run (Except ε β)} {a : α}
    {result : Except ε β} (hfirst : first.Computes (.ok a)) (hnext : (next a).Computes result) :
    (first.andThen next).Computes result :=
  hfirst.bind hnext

theorem Computes.andThen_error {first : Run (Except ε α)} {next : α → Run (Except ε β)} {e : ε}
    (hfirst : first.Computes (.error e)) : (first.andThen next).Computes (.error e) :=
  hfirst.bind (computes_pure _)

end Run

namespace Method

variable {m : Method} {s : Shape} {nested : Caller} {bound : BoundArguments}

/-- A body that does nothing but give a value. -/
theorem computes_perform_ok {value : Value} (h : m.body bound = .finish (.ok value)) :
    (m.perform s nested bound).Computes (.ok value) := by
  rw [perform, invoke, h]
  exact (Run.computes_pure _).bind (Run.computes_pure _)

/-- A body that does nothing but raise an error. -/
theorem computes_perform_error {e : MethodError} (h : m.body bound = .finish (.error e)) :
    (m.perform s nested bound).Computes (.error (.raised e)) := by
  rw [perform, invoke, h]
  exact (Run.computes_pure _).bind (Run.computes_pure _)

end Method

namespace ValidatedMethod

variable {p : ValidatedMethod} {s : Shape} {nested : Caller}

theorem computes_typeCheckpoint {check : Except CallError Unit} {event : Event}
    (h : check = .ok ()) : (p.typeCheckpoint check event).Computes (.ok ()) := by
  rw [typeCheckpoint, h]
  split
  · exact (Run.computes_pure _).andThen (Run.computes_log _ _)
  · exact Run.computes_pure _

end ValidatedMethod

/-! ## 3. Folds over 64-bit integers -/

namespace Examples

variable {combine : Int → Int → Int} {start : Int64} {numbers : List Int64}

/-- **A fold whose intermediate results all fit is exact.** -/
theorem foldNumbers_of_fits (h : ∀ front, front <+: numbers →
      Value.fits ((front.map Int64.toInt).foldl combine start.toInt) = true) :
    ∃ total, foldNumbers combine start (numbers.map .integer) = .ok total ∧
      total.toInt = (numbers.map Int64.toInt).foldl combine start.toInt := by
  induction numbers generalizing start with
  | nil => exact ⟨start, rfl, rfl⟩
  | cons n rest ih =>
    have hfirst : Value.fits (combine start.toInt n.toInt) = true :=
      h [n] (List.prefix_iff_eq_take.mpr rfl)
    have hnext := Value.toInt_ofInt_of_fits hfirst
    have hrest : ∀ front, front <+: rest → Value.fits ((front.map Int64.toInt).foldl combine
        (Int64.ofInt (combine start.toInt n.toInt)).toInt) = true := fun front hfront => by
      rw [hnext]
      exact h (n :: front) (List.cons_prefix_cons.mpr ⟨rfl, hfront⟩)
    obtain ⟨total, hfold, hexact⟩ := ih hrest
    refine ⟨total, ?_, ?_⟩
    · simpa [foldNumbers, Value.integer?, checkedInteger, hfirst] using hfold
    · rw [hexact, hnext, List.map_cons, List.foldl_cons]

/-- **A fold with an intermediate result that does not fit is an overflow**, whatever follows. -/
theorem foldNumbers_of_overflow {front : List Int64} (hfront : front <+: numbers)
    (hover : Value.fits ((front.map Int64.toInt).foldl combine start.toInt) = false) :
    foldNumbers combine start (numbers.map .integer) = .error (.value "integer overflow") := by
  induction front generalizing start numbers with
  | nil => cases (Value.fits_toInt start).symm.trans hover
  | cons n front ih =>
    obtain ⟨rest, rfl⟩ := hfront
    cases hfirst : Value.fits (combine start.toInt n.toInt) with
    | false => simp [foldNumbers, Value.integer?, checkedInteger, hfirst]
    | true =>
      have hnext : Value.fits ((front.map Int64.toInt).foldl combine
          (Int64.ofInt (combine start.toInt n.toInt)).toInt) = false := by
        rw [Value.toInt_ofInt_of_fits hfirst]
        exact hover
      have hrest := ih (List.prefix_append front rest) hnext
      simpa [foldNumbers, Value.integer?, checkedInteger, hfirst] using hrest

/-! ## 4. The validator -/

/-- A list holds integers only, or has a first item that is none. -/
theorem exists_integers_or_first (items : List Value) :
    (∃ numbers : List Int64, items = numbers.map .integer) ∨
      ∃ (numbers : List Int64) (item : Value) (after : List Value),
        items = numbers.map .integer ++ item :: after ∧ item.integer? = none := by
  induction items with
  | nil => exact Or.inl ⟨[], rfl⟩
  | cons item rest ih =>
    cases hitem : item.integer? with
    | none => exact Or.inr ⟨[], item, rest, rfl, hitem⟩
    | some n =>
      obtain rfl : item = .integer n := by
        cases item <;> simp_all [Value.integer?]
      rcases ih with ⟨numbers, rfl⟩ | ⟨numbers, x, after, rfl, hx⟩
      · exact Or.inl ⟨n :: numbers, rfl⟩
      · exact Or.inr ⟨n :: numbers, x, after, rfl, hx⟩

theorem checkNumbers_integers (numbers : List Int64) :
    checkNumbers (numbers.map .integer) = .ok () := by
  induction numbers with
  | nil => rfl
  | cons n rest ih => exact ih

theorem checkNumbers_first (numbers : List Int64) {item : Value} (after : List Value)
    (h : item.integer? = none) :
    checkNumbers (numbers.map .integer ++ item :: after) = .error (notInteger item) := by
  induction numbers with
  | nil => cases item <;> first | rfl | cases h
  | cons n rest ih => exact ih

/-- A value bound to the parameter of `action`. -/
def listed (value : Value) : BoundArguments := BoundArguments.empty.supply listName value

theorem numbers_listed (value : Value) : Examples.numbers (listed value) =
    match value.list? with
    | some items => .ok items
    | none => .error (.type (listName ++ " must be a list")) := rfl

theorem validateAction_integers (numbers : List Int64) :
    validateAction (listed (.list (numbers.map .integer))) = .finish (.ok .none) := by
  simp only [validateAction, numbers_listed, Value.list?, checkNumbers_integers]
  rfl

theorem validateAction_first (numbers : List Int64) {item : Value} (after : List Value)
    (h : item.integer? = none) :
    validateAction (listed (.list (numbers.map .integer ++ item :: after))) =
      .finish (.error (notInteger item)) := by
  simp only [validateAction, numbers_listed, Value.list?, checkNumbers_first numbers after h]
  rfl

theorem validateAction_noList {value : Value} (h : value.list? = none) :
    validateAction (listed value) = .finish (.error (.type (listName ++ " must be a list"))) := by
  simp only [validateAction, numbers_listed, h]
  rfl

/-! ## 5. The classes -/

/-- A class statement with a method `action` that combines the integers of its list. -/
def arithmetic (name : String) (combine : Int → Int → Int) (start : Int64) (base : Class) :
    Definition where
  name := qualified name
  bases := [base]
  body := [.method ⟨"action", actionSignature, .none, foldAction combine start⟩]

/-- The validator that the statement inherits. -/
def inheritedValidator : Validator :=
  ⟨qualified "ActionExample" ++ "." ++ validatorName "action",
    ⟨"validate_action", listSignature.returning .none, .none, validateAction⟩⟩

/-- The proxy of the method. -/
def actionProxy (name : String) (combine : Int → Int → Int) (start : Int64) : ValidatedMethod where
  className := qualified name
  qualname := qualified name ++ "." ++ "action"
  method := ⟨"action", actionSignature, .none, foldAction combine start⟩
  prerun := true
  validator := some inheritedValidator
  typed := true
  collectionCheck := .allItems

/-- The base of the examples, built under an identity. -/
def actionClass (i : ClassId) : Class := .ofDefinition action i []

/-- An arithmetic class, built under an identity after its base. -/
def arithmeticClass (name : String) (combine : Int → Int → Int) (start : Int64) (i j : ClassId) :
    Class :=
  .ofDefinition (arithmetic name combine start (actionClass i)) j [(actionClass i).own]

theorem action_defined (i : ClassId) : Class.define i action = .ok (actionClass i) :=
  Class.define_eq_ok_iff.mpr
    ⟨by decide, by decide, rfl, [], Linearization.merge?_of_isEmpty _ rfl, rfl⟩

theorem arithmetic_defined (name : String) (combine : Int → Int → Int) (start : Int64)
    (i j : ClassId) : Class.define j (arithmetic name combine start (actionClass i)) =
      .ok (arithmeticClass name combine start i j) :=
  Class.define_eq_ok_iff.mpr ⟨rfl, rfl, rfl, _, Definition.ancestors?_of_root rfl rfl, rfl⟩

/-- **The method has its proxy**, marked for everything through the base. -/
theorem validatedMethod?_action (name : String) (combine : Int → Int → Int) (start : Int64)
    (i j : ClassId) : (arithmeticClass name combine start i j).validatedMethod? "action" =
      some (actionProxy name combine start) := rfl

/-! ## 6. What calls come to -/

/-- **What a call of an arithmetic method comes to**, given the total of a list of integers. -/
inductive Answer (total : List Int → Int) (a : Arguments) : Except CallError Value → Prop where
  /-- The call gives something else than a value for the list. -/
  | unbound {e : BindError} : (∀ value, ¬ a.GivesOnly listName value) →
      listSignature.bind a = .error e →
      Answer total a (.error (.bind (qualified "ActionExample" ++ ".validate_action") e))
  | noList {value : Value} : a.GivesOnly listName value → value.list? = none →
      Answer total a (.error (.raised (.type "number_list must be a list")))
  /-- The first item that is no integer. -/
  | noInteger {numbers : List Int64} {item : Value} {after : List Value} :
      a.GivesOnly listName (.list (numbers.map .integer ++ item :: after)) →
      item.integer? = none →
      Answer total a (.error (.raised (.type (item.display ++ " is not an integer"))))
  /-- The total of some integers at the front does not fit. -/
  | overflow {numbers front : List Int64} : a.GivesOnly listName (.list (numbers.map .integer)) →
      front <+: numbers → Value.fits (total (front.map Int64.toInt)) = false →
      Answer total a (.error (.raised (.value "integer overflow")))
  | exact {numbers : List Int64} {result : Int64} :
      a.GivesOnly listName (.list (numbers.map .integer)) →
      (∀ front, front <+: numbers → Value.fits (total (front.map Int64.toInt)) = true) →
      result.toInt = total (numbers.map Int64.toInt) → Answer total a (.ok (.integer result))

section Calls

variable {total : List Int → Int} {a : Arguments} {name : String} {s : Shape} {nested : Caller}
  {m : Method} {returns : TypeSpec}

/-- The methods of the examples bind one argument. -/
theorem bindAs_eq_listed (hm : m.signature = listSignature.returning returns) {value : Value}
    (h : a.GivesOnly listName value) (qualname : String) :
    m.bindAs qualname a = .ok (listed value) := by
  rw [Method.bindAs_eq_ok_iff, hm]
  exact (Signature.bind_single_iff (p := .typed listName (.list .integer)) rfl rfl rfl).mpr
    ⟨value, h, rfl⟩

theorem bindAs_eq_error (hm : m.signature = listSignature.returning returns) {e : BindError}
    (h : listSignature.bind a = .error e) (qualname : String) :
    m.bindAs qualname a = .error (.bind qualname e) := by
  rw [Method.bindAs_eq_error_iff, hm, Signature.bind_returning]
  exact ⟨e, h, rfl⟩

/-! The first checkpoint: the inherited validator. -/

theorem validateInputs_actionProxy : (actionProxy name combine start).validateInputs s nested a =
    (Run.ofExcept (inheritedValidator.method.bindAs inheritedValidator.qualname a)).andThen
      fun bound => (inheritedValidator.method.perform s nested bound).andThen fun _ =>
        Run.log (.inputsOk (actionProxy name combine start).qualname inheritedValidator.qualname)
          (.ok ()) := rfl

theorem computes_validateInputs_unbound {e : BindError} (h : listSignature.bind a = .error e) :
    ((actionProxy name combine start).validateInputs s nested a).Computes
      (.error (.bind inheritedValidator.qualname e)) := by
  rw [validateInputs_actionProxy, bindAs_eq_error rfl h]
  exact (Run.computes_pure _).andThen_error

theorem computes_validateInputs_rejected {value : Value} {e : MethodError}
    (h : a.GivesOnly listName value) (hbody : validateAction (listed value) = .finish (.error e)) :
    ((actionProxy name combine start).validateInputs s nested a).Computes
      (.error (.raised e)) := by
  rw [validateInputs_actionProxy, bindAs_eq_listed rfl h]
  exact (Run.computes_pure _).andThen (Method.computes_perform_error hbody).andThen_error

theorem computes_validateInputs_integers
    (h : a.GivesOnly listName (.list (numbers.map .integer))) :
    ((actionProxy name combine start).validateInputs s nested a).Computes (.ok ()) := by
  have hbody : inheritedValidator.method.body (listed (.list (numbers.map .integer))) =
      .finish (.ok .none) := validateAction_integers numbers
  rw [validateInputs_actionProxy, bindAs_eq_listed rfl h]
  exact (Run.computes_pure _).andThen
    ((Method.computes_perform_ok hbody).andThen (Run.computes_log _ _))

/-! All checkpoints. -/

/-- A call that the first checkpoint refuses. -/
theorem computes_call_of_refused {e : CallError}
    (h : ((actionProxy name combine start).validateInputs s nested a).Computes (.error e)) :
    ((actionProxy name combine start).call s nested a).Computes (.error e) :=
  (Run.computes_log _ ()).bind h.andThen_error

theorem checkArguments_integers (qualname : String) (numbers : List Int64) :
    checkArguments qualname actionSignature (listed (.list (numbers.map .integer))) .allItems =
      .ok () := by
  have hcheck :
      (TypeSpec.list .integer).check .allItems (.list (numbers.map .integer)) = .ok () := by
    refine TypeSpec.check_allItems_eq_ok_iff.mpr (.list fun item hitem => ?_)
    obtain ⟨n, -, rfl⟩ := List.mem_map.mp hitem
    exact .integer n
  refine checkSupplied_eq_ok_iff.mpr fun found value hentry q hq spec hspec => ?_
  cases List.mem_singleton.mp hentry
  cases hq
  cases hspec
  exact hcheck

/-- A call that gives integers gets as far as the body. -/
theorem computes_call_of_body (h : a.GivesOnly listName (.list (numbers.map .integer)))
    {result : Except CallError Value}
    (hbody : (((actionProxy name combine start).method.perform s nested
      (listed (.list (numbers.map .integer)))).andThen fun value =>
        ((actionProxy name combine start).validateResult value).andThen fun _ =>
          Run.pure (.ok value)).Computes result) :
    ((actionProxy name combine start).call s nested a).Computes result := by
  refine (Run.computes_log _ ()).bind ((computes_validateInputs_integers h).andThen ?_)
  rw [bindAs_eq_listed (m := (actionProxy name combine start).method) rfl h]
  refine (Run.computes_pure _).andThen ?_
  exact (ValidatedMethod.computes_typeCheckpoint (checkArguments_integers _ numbers)).andThen hbody

theorem computes_call_of_total (h : a.GivesOnly listName (.list (numbers.map .integer)))
    {result : Int64} (hfold : foldNumbers combine start (numbers.map .integer) = .ok result) :
    ((actionProxy name combine start).call s nested a).Computes (.ok (.integer result)) := by
  have hbody : (actionProxy name combine start).method.body
      (listed (.list (numbers.map .integer))) = .finish (.ok (.integer result)) := by
    simp only [actionProxy, foldAction, numbers_listed, Value.list?, hfold]
    rfl
  refine computes_call_of_body h ((Method.computes_perform_ok hbody).andThen ?_)
  exact (ValidatedMethod.computes_typeCheckpoint rfl).andThen (Run.computes_pure _)

theorem computes_call_of_foldError (h : a.GivesOnly listName (.list (numbers.map .integer)))
    {e : MethodError} (hfold : foldNumbers combine start (numbers.map .integer) = .error e) :
    ((actionProxy name combine start).call s nested a).Computes (.error (.raised e)) := by
  have hbody : (actionProxy name combine start).method.body
      (listed (.list (numbers.map .integer))) = .finish (.error e) := by
    simp only [actionProxy, foldAction, numbers_listed, Value.list?, hfold]
    rfl
  exact computes_call_of_body h (Method.computes_perform_error hbody).andThen_error

/-- **Calls of an arithmetic method come to what they should**, whatever the fields are. -/
theorem Answer.computes_call (htotal : ∀ numbers, total numbers = numbers.foldl combine start.toInt)
    {result : Except CallError Value} (h : Answer total a result) :
    ((actionProxy name combine start).call s nested a).Computes result := by
  cases h with
  | unbound _ hbind => exact computes_call_of_refused (computes_validateInputs_unbound hbind)
  | noList h hlist =>
    exact computes_call_of_refused
      (computes_validateInputs_rejected h (validateAction_noList hlist))
  | @noInteger numbers item after h hitem =>
    exact computes_call_of_refused
      (computes_validateInputs_rejected h (validateAction_first numbers after hitem))
  | overflow h hfront hover =>
    rw [htotal] at hover
    exact computes_call_of_foldError h (foldNumbers_of_overflow hfront hover)
  | exact h hfits hresult =>
    simp only [htotal] at hfits hresult
    obtain ⟨found, hfold, hfound⟩ := foldNumbers_of_fits hfits
    obtain rfl := Int64.toInt_inj.mp (hresult.trans hfound.symm)
    exact computes_call_of_total h hfold

/-- Every call has an answer. -/
theorem exists_answer (total : List Int → Int) (a : Arguments) :
    ∃ result, Answer total a result := by
  by_cases hgives : ∃ value, a.GivesOnly listName value
  · obtain ⟨value, h⟩ := hgives
    cases hlist : value.list? with
    | none => exact ⟨_, .noList h hlist⟩
    | some items =>
      obtain rfl : value = .list items := by cases value <;> simp_all [Value.list?]
      rcases exists_integers_or_first items with ⟨numbers, rfl⟩ | ⟨numbers, item, after, rfl, hitem⟩
      · by_cases hfits : ∀ front, front <+: numbers →
            Value.fits (total (front.map Int64.toInt)) = true
        · exact ⟨_, .exact h hfits (Value.toInt_ofInt_of_fits (hfits numbers List.prefix_rfl))⟩
        · obtain ⟨front, hover⟩ := not_forall.mp hfits
          obtain ⟨hfront, hover⟩ := Classical.not_imp.mp hover
          exact ⟨_, .overflow h hfront (Bool.not_eq_true _ ▸ hover)⟩
      · exact ⟨_, .noInteger h hitem⟩
  · have hgives := not_exists.mp hgives
    cases hbind : listSignature.bind a with
    | error e => exact ⟨_, .unbound hgives hbind⟩
    | ok bound =>
      obtain ⟨value, h, -⟩ := (Signature.bind_single_iff (p := .typed listName (.list .integer))
        rfl rfl rfl).mp hbind
      exact absurd h (hgives value)

end Calls

/-! ## 7. Objects -/

/-- **Which class statement is for which total.** -/
inductive Computes (base : Class) : Definition → (List Int → Int) → Prop where
  | adder : Computes base (adder base) List.sum
  | multiplier : Computes base (multiplier base) List.prod

/-- An arithmetic class calls its method through its proxy. -/
theorem call_arithmetic {i j : ClassId} {name : String} {a : Arguments} {o : Object}
    (ho : o.cls = arithmeticClass name combine start i j) {result : Except CallError Value}
    (h : ((actionProxy name combine start).call o.cls.toShape
      (o.cls.callAt (Shape.callDepth - 1)) a).Computes result) :
    ∃ events, o.call "action" a = some ⟨(result, o), events⟩ := by
  obtain ⟨events, hcall⟩ := h o.fields
  have hproxy : o.cls.validatedMethod? "action" = some (actionProxy name combine start) := by
    rw [ho]
    exact validatedMethod?_action name combine start i j
  have hrun : o.cls.call "action" a o.fields = some ⟨result, o.fields, events⟩ := by
    rw [← hcall, Shape.call, Shape.callDepth, Shape.callAt, Shape.callWith, hproxy]
  exact ⟨events, by rw [Object.call, Object.perform, hrun]; rfl⟩

theorem Computes.exists_call {i j : ClassId} {base c : Class} {d : Definition}
    {total : List Int → Int} (hbase : Class.define i action = .ok base)
    (hd : Computes base d total) (hc : Class.define j d = .ok c) {o : Object} (ho : o.cls = c)
    {a : Arguments} {result : Except CallError Value} (h : Answer total a result) :
    ∃ events, o.call "action" a = some ⟨(result, o), events⟩ := by
  obtain rfl := Except.ok.inj ((action_defined i).symm.trans hbase)
  cases hd with
  | adder =>
    obtain rfl := Except.ok.inj ((arithmetic_defined "AdderExample" (· + ·) 0 i j).symm.trans hc)
    exact call_arithmetic ho (h.computes_call fun _ => List.sum_eq_foldl)
  | multiplier =>
    obtain rfl := Except.ok.inj
      ((arithmetic_defined "MultiplierExample" (· * ·) 1 i j).symm.trans hc)
    exact call_arithmetic ho (h.computes_call fun _ => List.prod_eq_foldl)

/-- **The arithmetic of the examples is exact and never wraps.**  A call of `action` on an object of
one of the two classes, whatever its fields are, comes to the one answer there is, and leaves the
object as it was. -/
theorem action_exact {i j : ClassId} {base c : Class} {d : Definition} {total : List Int → Int}
    (hbase : Class.define i action = .ok base) (hd : Computes base d total)
    (hc : Class.define j d = .ok c) {o : Object} (ho : o.cls = c) (a : Arguments) :
    ∃ result events, o.call "action" a = some ⟨(result, o), events⟩ ∧
      (∀ r, Answer total a r ↔ r = result) ∧
      (∀ method parameter spec detail,
        result ≠ .error (.argumentType method parameter spec detail)) ∧
      ∀ method spec detail, result ≠ .error (.returnType method spec detail) := by
  obtain ⟨result, hanswer⟩ := exists_answer total a
  obtain ⟨events, hcall⟩ := hd.exists_call hbase hc ho hanswer
  refine ⟨result, events, hcall, fun r => ⟨fun hr => ?_, fun hr => hr ▸ hanswer⟩,
    fun _ _ _ _ hresult => ?_, fun _ _ _ hresult => ?_⟩
  · obtain ⟨events', hcall'⟩ := hd.exists_call hbase hc ho hr
    rw [hcall] at hcall'
    cases hcall'
    rfl
  · cases hresult ▸ hanswer
  · cases hresult ▸ hanswer

/-- An object of the multiplying class with a field. -/
def multiplierObject : Object :=
  ⟨0, arithmeticClass "MultiplierExample" (· * ·) 1 0 1, .ofList [("label", .string "kept")], true⟩

/-- A product that would be zero, were it not for what comes before. -/
theorem action_exact_multiplier :
    let call := Arguments.empty.kwarg "number_list"
      (.list [.integer Int64.maxValue, .integer 2, .integer 0])
    (Class.define 0 action = .ok (actionClass 0) ∧
      Computes (actionClass 0) (multiplier (actionClass 0)) List.prod ∧
      Class.define 1 (multiplier (actionClass 0)) = .ok multiplierObject.cls) ∧
    ∃ events, multiplierObject.call "action" call =
      some ⟨(.error (.raised (.value "integer overflow")), multiplierObject), events⟩ := by
  intro call
  have hclass := arithmetic_defined "MultiplierExample" (· * ·) 1 0 1
  have hgives : call.GivesOnly listName
      (.list ([Int64.maxValue, 2, 0].map Value.integer)) := Or.inr ⟨rfl, rfl⟩
  have hfront : [Int64.maxValue, 2] <+: [Int64.maxValue, 2, 0] := ⟨[0], rfl⟩
  obtain ⟨result, events, hcall, hanswer, -⟩ :=
    action_exact (o := multiplierObject) (action_defined 0) .multiplier hclass rfl call
  obtain rfl := (hanswer _).mp (.overflow hgives hfront (by decide))
  exact ⟨⟨action_defined 0, .multiplier, hclass⟩, events, hcall⟩

end Examples

end MethodGuard
