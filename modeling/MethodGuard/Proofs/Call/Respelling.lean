/-
# A call does what it does, however it is spelled

A call looks at its arguments in two places: where they bind to the validator and where they bind
to the method.  All that comes after sees bound arguments only.  So two calls whose arguments bind
to the same, in both places, are the same call (`ValidatedMethod.call_congr`).

Another spelling binds to the same arguments of the method (`Signature.bind_of_respells`).  Of the
validator's signature nothing is known but what the structural check has found: under strict options
its parameters are declared as the method's are, so that it, too, binds the two spellings to the
same.  Without strict options a validator may have the names in another order, and then moving a
value from its position to its name moves it to another parameter of the validator.
-/
import MethodGuard.Proofs.Call.Guarded
import MethodGuard.Proofs.Signature.Respelling

namespace MethodGuard

/-! ## 1. What a call sees of its arguments -/

section Congruence

variable {a b : Arguments} {nested : Caller}

theorem Method.bindAs_congr {m : Method} (h : m.signature.bind a = m.signature.bind b)
    (q : String) : m.bindAs q a = m.bindAs q b := by
  rw [bindAs, bindAs, h]

namespace ValidatedMethod

variable {p : ValidatedMethod} {s : Shape}

/-- The first checkpoint sees what the validator's signature makes of the arguments. -/
theorem validateInputs_congr (h : p.prerun = true → ∀ v, p.validator = some v →
    v.method.signature.bind a = v.method.signature.bind b) :
    p.validateInputs s nested a = p.validateInputs s nested b := by
  rw [validateInputs, validateInputs]
  cases hprerun : p.prerun with
  | false => rfl
  | true =>
    cases hv : p.validator with
    | none => rfl
    | some v =>
      have hbind := Method.bindAs_congr (h hprerun v hv) v.qualname
      simp only [if_true, hbind]

/-- **A call sees nothing of its arguments** but what the two signatures make of them. -/
theorem call_congr (hvalidator : p.prerun = true → ∀ v, p.validator = some v →
      v.method.signature.bind a = v.method.signature.bind b)
    (hmethod : p.method.signature.bind a = p.method.signature.bind b) :
    p.call s nested a = p.call s nested b := by
  rw [call, call, validateInputs_congr hvalidator, Method.bindAs_congr hmethod]

end ValidatedMethod

/-- A call without proxy binds once. -/
theorem Shape.callUnmarked_congr {s : Shape} {name : String}
    (h : ∀ m, s.HasMethod name m → m.signature.bind a = m.signature.bind b) :
    s.callUnmarked nested name a = s.callUnmarked nested name b := by
  rw [callUnmarked, callUnmarked]
  rcases hfound : s.member? name with _ | (m | _ | _)
  · rfl
  · simp only [Method.bindAs_congr (h m (hasMethod_iff.mpr hfound))]
  · rfl
  · rfl

end Congruence

/-! ## 2. A box -/

namespace Box

/-- Two sides by position or by name, and a third by name, which is one if nothing is said. -/
def parameters : List Parameter :=
  [.typed "width" .integer, .typed "height" .integer,
    ⟨"depth", some .integer, .keywordOnly, some (.integer 1)⟩]

/-- The dimensions of the box. -/
def size : Method := ⟨"size", ⟨parameters, some (.list .integer)⟩, ⟨true, true⟩, fun bound =>
  .succeed (.list (bound.entries.map Prod.snd))⟩

/-- The validator of the dimensions; it accepts everything. -/
def validateSize : Method := ⟨"validate_size", ⟨parameters, some .none⟩, .none, fun _ =>
  .succeed .none⟩

def statement : Definition := ⟨"Box", [], [.method size, .method validateSize]⟩
def cls : Class := .ofDefinition statement 0 []

theorem cls_defined : Class.define 0 statement = .ok cls :=
  Class.define_eq_ok_iff.mpr
    ⟨by decide, by decide, rfl, [], Linearization.merge?_of_isEmpty _ rfl, rfl⟩

theorem history : History [cls] := History.start.build (by simp [statement]) cls_defined

theorem passes : cls.Passes := rfl

def object : Object := ⟨0, cls, .empty, true⟩

/-- The session after the class has been built and the object constructed. -/
def session : Session := ⟨⟨1, 1, [cls.id], .empty⟩, [cls], [object]⟩

theorem exists_reaches_object : ∃ log, Session.initial.Reaches log session :=
  Session.exists_reaches_first_object history List.mem_cons_self rfl rfl passes

/-- Two sides by position. -/
def short : Arguments := ⟨[.integer 2, .integer 3], ⟨[("depth", .integer 4)]⟩⟩

/-- All sides by name, the last one first. -/
def long : Arguments :=
  ⟨[], ⟨[("depth", .integer 4), ("height", .integer 3), ("width", .integer 2)]⟩⟩

/-- What becomes of both. -/
def bound : BoundArguments :=
  ⟨⟨[("width", .integer 2), ("height", .integer 3), ("depth", .integer 4)]⟩, []⟩

theorem short_binds : size.signature.bind short = .ok bound := rfl

theorem has_size : cls.HasMethod "size" size := ⟨"Box", rfl⟩

theorem long_respells : size.signature.Respells short long :=
  ⟨_, rfl, List.reverse_perm
    [("width", Value.integer 2), ("height", Value.integer 3), ("depth", Value.integer 4)]⟩

end Box

/-! ## 3. Calls of an object -/

namespace Session

variable {S : Session} {o : Object} {name : String}

/-- Under strict options the validator of a name marked for one declares its parameters as the
method does. -/
theorem Valid.alikeParameters (h : S.Valid) (ho : o ∈ S.objects)
    (hstrict : o.cls.options.strictValidators = true) {p : ValidatedMethod}
    (hp : o.cls.IsProxy name p) (hprerun : p.prerun = true) {v : Validator}
    (hv : p.validator = some v) :
    List.Forall₂ Shape.AlikeParameters v.method.signature.parameters
      p.method.signature.parameters := by
  obtain ⟨-, -, hpasses⟩ := h.objects o ho
  obtain ⟨m, validator, hm, hvalidator, hcontract⟩ :=
    hpasses.sound.prerun name (hp.prerun.mp hprerun)
  obtain rfl := hm.unique hp.method
  obtain ⟨-, owner, hfound, -⟩ := (hp.validator v).mp hv
  obtain rfl := hvalidator.unique ⟨owner, hfound⟩
  exact (hcontract hstrict).1

/-- **A call does not depend on how its arguments are spelled.**  In every session that can be
reached, take a name that stands for a method of an object, with parameters of different names, and
let the class be strict if the name is marked for a validator.  If the arguments of a call bind to
the method, they may as well be written in any other spelling: they bind to the same, and the call
gives the same result or error, the same object and the same records, also where it is one of the
object's own bodies that calls, whatever the fields are then. -/
theorem Reaches.calls_respelled {log : List (Action × List Event)} (hrun : initial.Reaches log S)
    (ho : o ∈ S.objects) {m : Method} (hm : o.cls.HasMethod name m)
    (hnames : (m.signature.parameters.map (·.name)).Nodup)
    (hstrict : o.cls.MarkedAlong .prerun name → o.cls.options.strictValidators = true)
    {a b : Arguments} {bound : BoundArguments} (hbind : m.signature.bind a = .ok bound)
    (h : m.signature.Respells a b) :
    m.signature.bind b = .ok bound ∧ o.call name a = o.call name b ∧
      ∀ nested fields, o.cls.callWith nested name a fields = o.cls.callWith nested name b fields := by
  have hvalid := hrun.valid
  have hcls := (hvalid.objects o ho).1
  have hrespelled : m.signature.bind b = .ok bound := Signature.bind_of_respells hnames h hbind
  have hmethod : m.signature.bind a = m.signature.bind b := hbind.trans hrespelled.symm
  have hcall (nested : Caller) : o.cls.callWith nested name a = o.cls.callWith nested name b := by
    rw [Shape.callWith, Shape.callWith]
    cases hproxy : o.cls.validatedMethod? name with
    | none =>
      refine Shape.callUnmarked_congr fun m' hm' => ?_
      rwa [hm'.unique hm]
    | some p =>
      obtain ⟨-, hp⟩ := (hvalid.history.hasTable hcls).validatedMethod?_eq_some_iff.mp hproxy
      obtain rfl := hm.unique hp.method
      refine ValidatedMethod.call_congr (fun hprerun v hv => ?_) hmethod
      have hmarked : o.cls.MarkedAlong .prerun name :=
        (hvalid.history.mem_marked_iff hcls).mp (hp.prerun.mp hprerun)
      have halike := hvalid.alikeParameters ho (hstrict hmarked) hp hprerun hv
      -- the validator accepts what the method accepts, so there is something to spell differently
      cases hvalidator : v.method.signature.bind a with
      | error e =>
        cases hbind.symm.trans ((Signature.bindsAlike halike a).eq_error hvalidator)
      | ok accepted =>
        have hdistinct : (v.method.signature.parameters.map (·.name)).Nodup := by
          rwa [Signature.map_name_eq halike]
        exact (Signature.bind_of_respells hdistinct (h.of_alike halike) hvalidator).symm
  refine ⟨hrespelled, ?_, fun nested fields => congrFun (hcall nested) fields⟩
  have hdeep : o.cls.call name a = o.cls.call name b := hcall _
  rw [Object.call, Object.call, hdeep]

/-- The box says its dimensions alike, whichever way they are written. -/
theorem calls_respelled_box : ∃ log S, (initial.Reaches log S ∧ Box.object ∈ S.objects ∧
    Box.object.cls.HasMethod "size" Box.size ∧
    (Box.size.signature.parameters.map (·.name)).Nodup ∧
    (Box.object.cls.MarkedAlong .prerun "size" →
      Box.object.cls.options.strictValidators = true) ∧
    Box.size.signature.bind Box.short = .ok Box.bound ∧
    Box.size.signature.Respells Box.short Box.long) ∧
    Box.size.signature.bind Box.long = .ok Box.bound ∧
    Box.object.call "size" Box.short = Box.object.call "size" Box.long ∧
    ∀ nested fields, Box.object.cls.callWith nested "size" Box.short fields =
      Box.object.cls.callWith nested "size" Box.long fields := by
  obtain ⟨log, hrun⟩ := Box.exists_reaches_object
  have hobject : Box.object ∈ Box.session.objects := List.mem_singleton_self _
  have hnames : (Box.size.signature.parameters.map (·.name)).Nodup := by decide
  exact ⟨log, Box.session,
    ⟨hrun, hobject, Box.has_size, hnames, fun _ => rfl, Box.short_binds, Box.long_respells⟩,
    hrun.calls_respelled hobject Box.has_size hnames (fun _ => rfl) Box.short_binds
      Box.long_respells⟩

/-- The longer call runs through all checkpoints. -/
example : (Box.object.call "size" Box.long).map (fun t => (t.value.1, t.events.length)) =
    some (.ok (.list [.integer 2, .integer 3, .integer 4]), 4) := rfl

end Session

end MethodGuard
