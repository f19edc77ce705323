/-
# Calls from the command line

`call AdderExample action j` goes a long way: the text `j` is read, its items are bound, validated
and added, and the sum is printed.  What comes of it can be told from the text alone: the sum is
printed when `j` is an array with one item, an array of integers, whose totals from the left all fit
(`ListsIntegers`, `TotalsFit`), and nothing is printed otherwise (`CommandLine.AddsExactly`).

The classes are those that registering the examples leaves behind, which it does in every world
(`World.registerExamples_spec`).
-/
import MethodGuard.CommandLine
import MethodGuard.Proofs.Catalog.Arithmetic
import MethodGuard.Proofs.OrderedMap
import MethodGuard.Proofs.Value.Integer
import MethodGuard.Proofs.Value.ReadBack
import MethodGuard.Proofs.World.Construction

namespace MethodGuard

/-! ## 1. The example classes in a world -/

namespace Examples

/-- The class that leaves `action` abstract, built under an identity after its base. -/
def invalidClass (i j : ClassId) : Class :=
  .ofDefinition (invalid (actionClass i)) j [(actionClass i).own]

/-- The class without a validator, built under an identity. -/
def unvalidatedClass (i : ClassId) : Class := .ofDefinition unvalidated i []

theorem invalid_defined (i j : ClassId) :
    Class.define j (invalid (actionClass i)) = .ok (invalidClass i j) :=
  Class.define_eq_ok_iff.mpr ⟨rfl, rfl, rfl, _, Definition.ancestors?_of_root rfl rfl, rfl⟩

theorem unvalidated_defined (i : ClassId) : Class.define i unvalidated = .ok (unvalidatedClass i) :=
  Class.define_eq_ok_iff.mpr
    ⟨by decide, by decide, rfl, [], Linearization.merge?_of_isEmpty _ rfl, rfl⟩

/-- The example classes in the order of their registration, the first one built under `i`. -/
def classes (i : ClassId) : List Class := [
  arithmeticClass "AdderExample" (· + ·) 0 i (i + 1),
  arithmeticClass "MultiplierExample" (· * ·) 1 i (i + 2),
  invalidClass i (i + 3),
  unvalidatedClass (i + 4),
  actionClass i]

end Examples

namespace World

open Examples

variable {w : World} {d : Definition} {c : Class}

theorem define_of_ok (h : Class.define w.built d = .ok c) :
    w.define d = ⟨.ok c, [c.builtEvent], { w with built := w.built + 1 }⟩ := by
  rw [define, h]

/-- Statements that are all accepted, one after the other, and their classes. -/
inductive Builds : ClassId → List Definition → List Class → Prop where
  | nil (id : ClassId) : Builds id [] []
  | cons {id : ClassId} {d : Definition} {c : Class} {ds : List Definition} {cs : List Class} :
      Class.define id d = .ok c → Builds (id + 1) ds cs → Builds id (d :: ds) (c :: cs)

/-- **Statements that are all accepted** leave their classes registered in order. -/
theorem defineAll_of_builds {ds : List Definition} {cs : List Class} (h : Builds w.built ds cs) :
    (w.defineAll ds).value = .ok () ∧ (w.defineAll ds).world = { w with
      built := w.built + ds.length
      registry := cs.foldl Registry.register w.registry } := by
  generalize hid : w.built = id at h
  induction h generalizing w with
  | nil => exact ⟨rfl, by rw [← hid]; rfl⟩
  | @cons id d c ds cs hc _ ih =>
    subst hid
    obtain ⟨hvalue, hworld⟩ := ih
      (w := { w with built := w.built + 1, registry := w.registry.register c }) rfl
    rw [defineAll, defineRegistered, define_of_ok hc]
    refine ⟨hvalue, hworld.trans ?_⟩
    rw [List.length_cons, Nat.add_right_comm]
    rfl

/-- **The example classes are registered**, whatever the world is. -/
theorem registerExamples_spec (w : World) : w.registerExamples.value = .ok () ∧
    w.registerExamples.world = { w with
      built := w.built + 5
      registry := (Examples.classes w.built).foldl Registry.register w.registry } := by
  have hbuilds : Builds (w.built + 1)
      [adder (actionClass w.built), multiplier (actionClass w.built),
        invalid (actionClass w.built), unvalidated]
      [arithmeticClass "AdderExample" (· + ·) 0 w.built (w.built + 1),
        arithmeticClass "MultiplierExample" (· * ·) 1 w.built (w.built + 2),
        invalidClass w.built (w.built + 3), unvalidatedClass (w.built + 4)] :=
    .cons (arithmetic_defined ..) <| .cons (arithmetic_defined ..) <|
      .cons (invalid_defined ..) <| .cons (unvalidated_defined _) (.nil _)
  obtain ⟨hvalue, hworld⟩ := defineAll_of_builds (w := { w with built := w.built + 1 }) hbuilds
  rw [registerExamples, define_of_ok (action_defined _)]
  simp only [Reply.bind, hvalue, hworld]
  exact ⟨rfl, rfl⟩

end World

/-! ## 2. Objects of the adding class -/

namespace Registry

theorem find?_register (r : Registry) (c : Class) (name : String) :
    (r.register c).find? name = if name = c.name then some c else r.find? name :=
  OrderedMap.find?_insert ..

theorem contains_eq_isSome_find? (r : Registry) (name : String) :
    r.contains name = (r.find? name).isSome := by
  rw [Bool.eq_iff_iff, find?, OrderedMap.find?_isSome_iff]
  exact OrderedMap.contains_iff

end Registry

/-- Without an initializer, nothing can go wrong but the structural check. -/
theorem World.exists_instantiate?_of_passes {w : World} {c : Class}
    (habstract : c.isAbstract = false) (hinit : c.initializer = none) (hpasses : c.Passes) :
    ∃ r o, w.instantiate? c .empty = some r ∧ r.value = .ok o ∧ o.cls = c := by
  have hrun (w' : World) : w'.runInitializer? c .empty =
      some ⟨.ok ⟨w'.begun, c, .empty, true⟩, [], { w' with begun := w'.begun + 1 }⟩ := by
    rw [runInitializer?, hinit]
    rfl
  cases hchecked : w.isChecked c with
  | true =>
    have hmade := instantiate?_eq_some_iff.mpr (.again habstract hchecked (hrun w))
    exact ⟨_, _, hmade, rfl, rfl⟩
  | false =>
    have hmade := instantiate?_eq_some_iff.mpr (.first habstract hchecked hpasses (hrun _))
    exact ⟨_, _, hmade, rfl, rfl⟩

namespace CommandLine

open Examples

/-- The adding class of the command line. -/
def adderClass : Class := arithmeticClass "AdderExample" (· + ·) 0 0 1

theorem find?_world (name : String) : world.registry.find? name =
    ((Examples.classes 0).foldl Registry.register .empty).find? name := by
  rw [world, (World.registerExamples_spec .initial).2]
  rfl

theorem find?_adder : world.registry.find? (qualified "AdderExample") = some adderClass := by
  simp only [find?_world, Examples.classes, List.foldl_cons, List.foldl_nil,
    Registry.find?_register]
  rfl

/-- **The adding class is found under either name.** -/
theorem resolveName_adder {name : String}
    (hname : name = "AdderExample" ∨ name = qualified "AdderExample") :
    resolveName world.registry name = qualified "AdderExample" := by
  rcases hname with rfl | rfl
  · have hbare : world.registry.find? "AdderExample" = none := by
      simp only [find?_world, Examples.classes, List.foldl_cons, List.foldl_nil,
        Registry.find?_register]
      rfl
    rw [resolveName, Registry.contains_eq_isSome_find?, hbare]
    rfl
  · rw [resolveName, Registry.contains_eq_isSome_find?, find?_adder]
    rfl

theorem exists_instantiateNamed?_adder : ∃ r o,
    world.instantiateNamed? (qualified "AdderExample") .empty = some r ∧ r.value = .ok o ∧
      o.cls = adderClass := by
  obtain ⟨r, o, hr, hvalue, hcls⟩ :=
    World.exists_instantiate?_of_passes (w := world) (c := adderClass) rfl rfl rfl
  refine ⟨r.map fun result => result.mapError .instantiate, o, ?_, ?_, hcls⟩
  · rw [World.instantiateNamed?, find?_adder]
    simp only [hr, Option.map_some]
  · rw [Reply.map, hvalue]
    rfl

/-! ## 3. From a result to what is printed -/

/-- What is printed for the result of a call. -/
def printed : Except CallError Value → Outcome
  | .error e => fail [] e.chain
  | .ok value => succeed [value.display]

/-- **The command line prints the answer of the adding class.** -/
theorem call_of_answer {name text : String} {a : Arguments} {result : Except CallError Value}
    (hname : name = "AdderExample" ∨ name = qualified "AdderExample")
    (ha : arguments text = .ok a) (h : Answer List.sum a result) :
    call world name "action" text = printed result := by
  obtain ⟨r, o, hr, hvalue, hcls⟩ := exists_instantiateNamed?_adder
  obtain ⟨events, hcall⟩ := Computes.adder.exists_call (action_defined 0)
    (arithmetic_defined "AdderExample" (· + ·) 0 0 1) hcls h
  simp only [call, ha, resolveName_adder hname, hr, hvalue, hcall]
  cases result <;> rfl

end CommandLine

/-! ## 4. From a text to a result -/

namespace Value

/-- A list comes of an array only. -/
theorem ofJson_sorted_eq_list_iff {j : Json} {values : List Value} :
    ofJson j.sorted = .list values ↔
      ∃ items, j = .array items ∧ (items.map fun item => ofJson item.sorted) = values := by
  cases j with
  | array items => simp [Json.sorted, ofJson, ofItems_sortedItems_eq_map]
  | integer n =>
    refine iff_of_false (fun h => ?_) (by simp)
    simp only [Json.sorted, ofJson, ofInt] at h
    split at h <;> cases h
  | _ => simp [Json.sorted, ofJson]

/-- What is no object and no array is left as it is. -/
theorem ofJson_sorted_eq_integer_iff {j : Json} {i : Int64} :
    ofJson j.sorted = .integer i ↔ ofJson j = .integer i := by
  cases j with
  | array items => simp [Json.sorted, ofJson]
  | object members => simp [Json.sorted, ofJson]
  | _ => simp [Json.sorted]

theorem map_sorted_eq_integers_iff {items : List Json} {numbers : List Int64} :
    (items.map fun item => ofJson item.sorted) = numbers.map .integer ↔
      items.map ofJson = numbers.map .integer := by
  induction items generalizing numbers with
  | nil => simp
  | cons item rest ih =>
    cases numbers with
    | nil => simp
    | cons n numbers => simp [ofJson_sorted_eq_integer_iff, ih]

end Value

namespace CommandLine

open Examples

/-- **The text lists integers**: it is an array with one item, an array of integers. -/
def ListsIntegers (text : String) (numbers : List Int64) : Prop :=
  ∃ items, Json.read? text = some (.array [.array items]) ∧
    items.map Value.ofJson = numbers.map .integer

/-- All totals from the left fit. -/
def TotalsFit (numbers : List Int64) : Prop :=
  ∀ front, front <+: numbers → Value.fits (front.map Int64.toInt).sum = true

/-- **What lists integers is told by the literals of the text.** -/
theorem listsIntegers_iff_literals {text : String} {numbers : List Int64} :
    ListsIntegers text numbers ↔ ∃ literals : List NumberLiteral,
      Written.read? text.toList = some (.array [.array (literals.map .number)]) ∧
        List.Forall₂ NumberLiteral.WritesInteger literals numbers := by
  simp only [ListsIntegers, Json.read?, Option.bind_eq_some_iff, Written.depthLimit,
    Written.meaning?_eq_array_iff, List.forall₂_cons_right_iff, List.forall₂_nil_right_iff]
  constructor
  · rintro ⟨items, ⟨_, hread, _, rfl, _, _, ⟨ws, rfl, hws⟩, rfl, rfl⟩, hitems⟩
    obtain ⟨literals, rfl, hliterals⟩ := Written.forall₂_integers_iff.mp ⟨items, hws, hitems⟩
    exact ⟨literals, hread, hliterals⟩
  · rintro ⟨literals, hread, hliterals⟩
    obtain ⟨items, hws, hitems⟩ := Written.forall₂_integers_iff.mpr ⟨literals, rfl, hliterals⟩
    exact ⟨items, ⟨_, hread, _, rfl, _, _, ⟨_, rfl, hws⟩, rfl, rfl⟩, hitems⟩

/-- Sorting the objects of a text is no matter where it lists integers. -/
theorem listsIntegers_iff_readSorted? {text : String} {numbers : List Int64} :
    ListsIntegers text numbers ↔
      Value.readSorted? text = some (.list [.list (numbers.map .integer)]) := by
  simp only [ListsIntegers, Value.readSorted?, Option.map_eq_some_iff,
    Value.ofJson_sorted_eq_list_iff, List.map_eq_singleton_iff]
  constructor
  · rintro ⟨items, hread, hitems⟩
    exact ⟨_, hread, _, rfl, _, rfl, _, rfl, (Value.map_sorted_eq_integers_iff).mpr hitems⟩
  · rintro ⟨_, hread, _, rfl, _, rfl, items, rfl, hitems⟩
    exact ⟨items, hread, (Value.map_sorted_eq_integers_iff).mp hitems⟩

theorem arguments_of_listsIntegers {text : String} {numbers : List Int64}
    (h : ListsIntegers text numbers) :
    arguments text = .ok (.ofValues [.list (numbers.map .integer)]) := by
  rw [arguments, listsIntegers_iff_readSorted?.mp h]

theorem listsIntegers_of_givesOnly {text : String} {a : Arguments} {numbers : List Int64}
    (ha : arguments text = .ok a) (h : a.GivesOnly listName (.list (numbers.map .integer))) :
    ListsIntegers text numbers := by
  rw [listsIntegers_iff_readSorted?]
  unfold arguments at ha
  split at ha
  · cases ha
  · rename_i items hread
    obtain rfl := Except.ok.inj ha
    rcases h with ⟨hitems, -⟩ | ⟨-, hkeywords⟩
    · rw [hread, show items = _ from hitems]
    · cases hkeywords
  · cases ha

/-! ## 5. From a text to what is printed -/

/-- **What comes of adding what a text lists.** -/
structure AddsExactly (text : String) (outcome : Outcome) : Prop where
  succeeds_iff : outcome.code = 0 ↔ ∃ numbers, ListsIntegers text numbers ∧ TotalsFit numbers
  /-- The sum on a line, and no message. -/
  sum : ∀ numbers, ListsIntegers text numbers → TotalsFit numbers →
    outcome = ⟨0, toString (numbers.map Int64.toInt).sum ++ "\n", ""⟩
  /-- Nothing is printed before a failure. -/
  refused : (¬ ∃ numbers, ListsIntegers text numbers ∧ TotalsFit numbers) →
    outcome.code = 1 ∧ outcome.output = ""

variable {name text : String}

theorem call_adder_sum (hname : name = "AdderExample" ∨ name = qualified "AdderExample")
    {numbers : List Int64} (hlists : ListsIntegers text numbers) (hfit : TotalsFit numbers) :
    call world name "action" text = ⟨0, toString (numbers.map Int64.toInt).sum ++ "\n", ""⟩ := by
  have htotal := Value.toInt_ofInt_of_fits (hfit numbers List.prefix_rfl)
  have hanswer := Answer.exact (a := .ofValues [.list (numbers.map .integer)])
    (Or.inl ⟨rfl, rfl⟩) hfit htotal
  rw [call_of_answer hname (arguments_of_listsIntegers hlists) hanswer, ← htotal]
  simp [printed, succeed, Value.display, lines]

theorem call_adder_refused (hname : name = "AdderExample" ∨ name = qualified "AdderExample")
    (h : ¬ ∃ numbers, ListsIntegers text numbers ∧ TotalsFit numbers) :
    ∃ message, call world name "action" text = fail [] message := by
  cases ha : arguments text with
  | error message => exact ⟨message, by rw [call, ha]⟩
  | ok a =>
    obtain ⟨result, hanswer⟩ := exists_answer List.sum a
    rw [call_of_answer hname ha hanswer]
    cases hanswer with
    | exact hgives hfits _ => exact absurd ⟨_, listsIntegers_of_givesOnly ha hgives, hfits⟩ h
    | _ => exact ⟨_, rfl⟩

/-- **The command line adds exactly**: under either name of the class and for every text, the sum is
printed or nothing is, and which of the two is told by how the text is written. -/
theorem run_call_adder (program : String)
    (hname : name = "AdderExample" ∨ name = qualified "AdderExample") (text : String)
    (more : List String) :
    AddsExactly text (run program ("call" :: name :: "action" :: text :: more)) ∧
      ∀ numbers, ListsIntegers text numbers ↔ ∃ literals : List NumberLiteral,
        Written.read? text.toList = some (.array [.array (literals.map .number)]) ∧
          List.Forall₂ NumberLiteral.WritesInteger literals numbers := by
  have hrun : run program ("call" :: name :: "action" :: text :: more) =
      call world name "action" text := rfl
  rw [hrun]
  refine ⟨⟨⟨fun hcode => ?_, fun ⟨numbers, hlists, hfit⟩ => ?_⟩,
    fun numbers => call_adder_sum hname, fun h => ?_⟩, fun numbers => listsIntegers_iff_literals⟩
  · refine Classical.byContradiction fun h => ?_
    obtain ⟨message, hcall⟩ := call_adder_refused hname h
    rw [hcall] at hcode
    cases hcode
  · rw [call_adder_sum hname hlists hfit]
  · obtain ⟨message, hcall⟩ := call_adder_refused hname h
    rw [hcall]
    exact ⟨rfl, rfl⟩

/-- An array with one item, an array of integers. -/
def listing (numbers : List Int) : Json := .array [.array (numbers.map .integer)]

theorem itemsDepth_integers (numbers : List Int) :
    Json.itemsDepth (numbers.map .integer) = 0 := by
  induction numbers with
  | nil => rfl
  | cons n rest ih =>
    rw [List.map_cons, Json.itemsDepth, ih]
    rfl

theorem read?_listing {numbers : List Int}
    (h : ∀ n ∈ numbers, -0x8000000000000000 ≤ n ∧ n < 0x10000000000000000) :
    Json.read? (listing numbers).text = some (listing numbers) := by
  have hitems : (Json.array (numbers.map .integer)).Exact := by
    refine .array fun item hitem => ?_
    obtain ⟨n, hn, rfl⟩ := List.mem_map.mp hitem
    exact .integer (h n hn).1 (h n hn).2
  rw [listing, Json.read?_text (.array (List.forall_mem_singleton.mpr hitems)), if_pos]
  rw [Json.depth, Json.itemsDepth, Json.depth, itemsDepth_integers]
  decide

/-- The greatest integer is reached twice and not passed; the next one is too large. -/
theorem run_call_adder_bounds :
    run "vb" ["call", "AdderExample", "action", "[[9223372036854775807,-1,1]]"] =
        ⟨0, "9223372036854775807\n", ""⟩ ∧
      (run "vb" ["call", qualified "AdderExample", "action", "[[9223372036854775808]]"]).code =
        1 := by
  constructor
  · have htext : (listing [9223372036854775807, -1, 1]).text = "[[9223372036854775807,-1,1]]" :=
      rfl
    have hlists : ListsIntegers "[[9223372036854775807,-1,1]]" [Int64.maxValue, -1, 1] :=
      ⟨_, htext ▸ read?_listing (by decide), rfl⟩
    have hinits : ∀ front ∈ [Int64.maxValue, -1, 1].inits,
        Value.fits (front.map Int64.toInt).sum = true := by decide
    exact (run_call_adder "vb" (Or.inl rfl) _ []).1.sum _ hlists fun front hfront =>
      hinits front ((List.mem_inits _ _).mpr hfront)
  · have htext : (listing [9223372036854775808]).text = "[[9223372036854775808]]" := rfl
    have hread : Json.read? "[[9223372036854775808]]" = some (listing [9223372036854775808]) :=
      htext ▸ read?_listing (by decide)
    refine ((run_call_adder "vb" (Or.inr rfl) "[[9223372036854775808]]" []).1.refused ?_).1
    rintro ⟨numbers, ⟨items, hitems, hnumbers⟩, -⟩
    obtain rfl : [.integer 9223372036854775808] = items := by
      simpa [listing] using hread.symm.trans hitems
    cases numbers with
    | nil => cases hnumbers
    | cons n rest =>
      have hn := Json.integer.inj
        (Value.ofJson_eq_integer_iff.mp (List.cons_eq_cons.mp hnumbers).1)
      have hmax := Int64.toInt_lt n
      omega

end CommandLine

end MethodGuard
