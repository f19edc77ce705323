/-
# Which class statements are accepted

`Verdict` says what building should answer to a statement, in terms of what the statement says: a
member named in the old style is refused first, then a name defined twice, then a base listed
twice, then bases that no order of classes can satisfy; anything else is accepted.  Building
answers exactly that to every statement about classes built before.

Each mistake by itself is what its search looks for (section 3).  That a refusal for contradicting
orders is never mistaken rests on `merge?_isSome_iff`.
-/
import MethodGuard.Proofs.Class.History
import MethodGuard.Proofs.OrderedMap

namespace MethodGuard

open Linearization

/-! ## 1. First repetitions -/

section Repetition

variable {α : Type u} {κ : Type v}

/-- `x` is the first element of the list whose key an earlier element has. -/
def RepeatsFirst (key : α → κ) (list : List α) (x : α) : Prop :=
  ∃ before after, list = before ++ x :: after ∧ key x ∈ before.map key ∧ (before.map key).Nodup

variable [DecidableEq κ] {key : α → κ}

/-- The search, under way: `walked` has been seen and repeats nothing. -/
theorem firstRepeated_eq_some_iff_of_seen {list : List α} {x : α} (walked : List α) {seen : List κ}
    (hseen : ∀ k, k ∈ seen ↔ k ∈ walked.map key) (hwalked : (walked.map key).Nodup) :
    firstRepeated key seen list = some x ↔ ∃ before after, list = before ++ x :: after ∧
      key x ∈ (walked ++ before).map key ∧ ((walked ++ before).map key).Nodup := by
  induction list generalizing walked seen with
  | nil => simp [firstRepeated]
  | cons y rest ih =>
    by_cases hy : key y ∈ seen
    · rw [firstRepeated, if_pos hy, Option.some.injEq]
      constructor
      · rintro rfl
        exact ⟨[], rest, rfl, by simpa using (hseen _).mp hy, by simpa using hwalked⟩
      · rintro ⟨before, after, he, -, hnodup⟩
        cases before with
        | nil => exact (List.cons.inj he).1
        | cons z before =>
          obtain ⟨rfl, -⟩ := List.cons.inj he
          rw [List.map_append, List.nodup_append] at hnodup
          exact absurd rfl (hnodup.2.2 _ ((hseen _).mp hy) _ (by simp))
    · have hnew : ((walked ++ [y]).map key).Nodup := by
        rw [List.map_append, List.nodup_append]
        refine ⟨hwalked, by simp, fun a ha b hb hab => hy ((hseen _).mpr ?_)⟩
        rw [List.map_cons, List.map_nil, List.mem_singleton] at hb
        exact hb ▸ hab ▸ ha
      rw [firstRepeated, if_neg hy,
        ih (walked ++ [y]) (fun k => by simp [hseen, or_comm]) hnew]
      constructor
      · rintro ⟨before, after, rfl, hx, hnodup⟩
        exact ⟨y :: before, after, rfl, by simpa using hx, by simpa using hnodup⟩
      · rintro ⟨before, after, he, hx, hnodup⟩
        cases before with
        | nil =>
          obtain ⟨rfl, -⟩ := List.cons.inj he
          exact absurd ((hseen _).mpr (by simpa using hx)) hy
        | cons z before =>
          obtain ⟨rfl, hrest⟩ := List.cons.inj he
          exact ⟨before, after, hrest, by simpa using hx, by simpa using hnodup⟩

theorem firstRepeated_eq_some_iff {list : List α} {x : α} :
    firstRepeated key [] list = some x ↔ RepeatsFirst key list x := by
  rw [firstRepeated_eq_some_iff_of_seen [] (by simp) List.nodup_nil]
  rfl

theorem firstRepeated_eq_none_iff {list : List α} {seen : List κ} :
    firstRepeated key seen list = none ↔
      (list.map key).Nodup ∧ ∀ k ∈ list.map key, k ∉ seen := by
  induction list generalizing seen with
  | nil => simp [firstRepeated]
  | cons y rest ih =>
    by_cases hy : key y ∈ seen
    · simp [firstRepeated, hy]
    · rw [firstRepeated, if_neg hy, ih, List.map_cons, List.nodup_cons]
      simp only [List.mem_cons, forall_eq_or_imp, hy, not_false_eq_true, true_and, not_or]
      grind

end Repetition

/-! ## 2. The verdict on a statement -/

namespace Definition

/-- The names that the body gives to members of any kind, in order and with repetitions. -/
def memberNames (d : Definition) : List String := d.memberEntries.map Prod.fst

/-- The name of the old style that counts: the first of the two that the body uses. -/
inductive DeprecatedName (d : Definition) : String → Prop where
  | required : "required_methods" ∈ d.memberNames → DeprecatedName d "required_methods"
  | validated : "required_methods" ∉ d.memberNames → "validated_methods" ∈ d.memberNames →
      DeprecatedName d "validated_methods"

/-- **The bases fit together**: some list of classes, without repetitions, has the bases in their
order and every base with its ancestors in its own. -/
def Consistent (d : Definition) : Prop :=
  ∃ order : List Declaration, (order.map (fun x => x.id)).Nodup ∧
    (d.bases.map (fun b => b.own)).Sublist order ∧
    ∀ b ∈ d.bases, (b.own :: b.ancestors).Sublist order

/-- **What building should answer to a statement.** -/
inductive Verdict (d : Definition) : Except DefinitionError Unit → Prop where
  | deprecated {name : String} : d.DeprecatedName name →
      Verdict d (.error (.deprecated d.name name))
  | duplicateMember {entry : String × Member} : (∀ name, ¬ d.DeprecatedName name) →
      RepeatsFirst Prod.fst d.memberEntries entry →
      Verdict d (.error (.duplicateMember d.name entry.1))
  | duplicateBase {base : Class} : (∀ name, ¬ d.DeprecatedName name) → d.memberNames.Nodup →
      RepeatsFirst (fun b => b.id) d.bases base →
      Verdict d (.error (.duplicateBase d.name base.name))
  | inconsistent : (∀ name, ¬ d.DeprecatedName name) → d.memberNames.Nodup →
      (d.bases.map (fun b => b.id)).Nodup → ¬ d.Consistent →
      Verdict d (.error (.inconsistentHierarchy d.name))
  | accepted : (∀ name, ¬ d.DeprecatedName name) → d.memberNames.Nodup →
      (d.bases.map (fun b => b.id)).Nodup → d.Consistent → Verdict d (.ok ())

variable {d : Definition}

/-! ## 3. Each mistake by itself -/

theorem contains_members_iff {name : String} :
    d.members.contains name = true ↔ name ∈ d.memberNames :=
  OrderedMap.contains_ofList_iff

theorem deprecated?_eq_some_iff {name : String} :
    d.deprecated? = some name ↔ d.DeprecatedName name := by
  have hfind : d.deprecated? = if "required_methods" ∈ d.memberNames then some "required_methods"
      else if "validated_methods" ∈ d.memberNames then some "validated_methods" else none := by
    simp only [deprecated?, deprecatedNames, List.find?_cons, List.find?_nil,
      ← contains_members_iff]
    cases d.members.contains "required_methods" <;>
      cases d.members.contains "validated_methods" <;> rfl
  rw [hfind]
  constructor
  · intro h
    split at h
    · rename_i hreq
      exact Option.some.inj h ▸ .required hreq
    · rename_i hreq
      split at h
      · rename_i hval
        exact Option.some.inj h ▸ .validated hreq hval
      · cases h
  · rintro (hreq | ⟨hreq, hval⟩)
    · rw [if_pos hreq]
    · rw [if_neg hreq, if_pos hval]

theorem deprecated?_eq_none_iff : d.deprecated? = none ↔ ∀ name, ¬ d.DeprecatedName name := by
  simp only [Option.eq_none_iff_forall_ne_some, ne_eq, deprecated?_eq_some_iff]

theorem duplicateMember?_eq_some_iff {name : String} :
    d.duplicateMember? = some name ↔
      ∃ entry, RepeatsFirst Prod.fst d.memberEntries entry ∧ entry.1 = name := by
  rw [duplicateMember?, Option.map_eq_some_iff]
  simp only [firstRepeated_eq_some_iff]

theorem duplicateMember?_eq_none_iff : d.duplicateMember? = none ↔ d.memberNames.Nodup := by
  rw [duplicateMember?, Option.map_eq_none_iff, firstRepeated_eq_none_iff]
  simp [memberNames]

theorem duplicateBase?_eq_some_iff {base : Class} :
    d.duplicateBase? = some base ↔ RepeatsFirst (fun b => b.id) d.bases base :=
  firstRepeated_eq_some_iff

theorem duplicateBase?_eq_none_iff :
    d.duplicateBase? = none ↔ (d.bases.map (fun b => b.id)).Nodup := by
  rw [duplicateBase?, firstRepeated_eq_none_iff]
  simp

end Definition

namespace History

variable {classes : List Class} {d : Definition}

/-- **The merge succeeds on the orders of built bases exactly when they fit together.** -/
theorem exists_ancestors?_iff (h : History classes) (hbases : ∀ b ∈ d.bases, b ∈ classes) :
    (∃ order, d.ancestors? = some order) ↔ d.Consistent := by
  constructor
  · rintro ⟨order, horder⟩
    refine ⟨order, (isC3_of_merge? Declaration.id horder).nodup, ?_, fun b hb => ?_⟩
    · exact h.sublist_ancestors? hbases horder (Definition.mem_precedence.mpr (Or.inr rfl))
    · exact h.sublist_ancestors? hbases horder
        (Definition.mem_precedence.mpr (Or.inl ⟨b, hb, rfl⟩))
  · rintro ⟨order, hnodup, hown, hlineage⟩
    have hbelow : ∀ ids ∈ d.precedence.map (List.map Declaration.id),
        ids.Sublist (order.map Declaration.id) := by
      intro ids hids
      obtain ⟨list, hlist, rfl⟩ := List.mem_map.mp hids
      rcases Definition.mem_precedence.mp hlist with ⟨b, hb, rfl⟩ | rfl
      · exact (hlineage b hb).map _
      · exact hown.map _
    obtain ⟨ids, hids⟩ := merge?_isSome_iff.mpr ⟨_, hnodup, hbelow⟩
    rw [merge?_map] at hids
    obtain ⟨merged, hmerged, -⟩ := Option.map_eq_some_iff.mp hids
    exact ⟨merged, hmerged⟩

/-- **Building answers to every statement what it should.** -/
theorem define_iff_verdict (h : History classes) (hbases : ∀ b ∈ d.bases, b ∈ classes)
    (id : ClassId) (answer : Except DefinitionError Unit) :
    (Class.define id d).map (fun _ => ()) = answer ↔ d.Verdict answer := by
  constructor
  · rintro rfl
    unfold Class.define
    cases hdep : d.deprecated? with
    | some name => exact .deprecated (Definition.deprecated?_eq_some_iff.mp hdep)
    | none =>
      have hold := Definition.deprecated?_eq_none_iff.mp hdep
      cases hmem : d.duplicateMember? with
      | some name =>
        obtain ⟨entry, hentry, rfl⟩ := Definition.duplicateMember?_eq_some_iff.mp hmem
        exact .duplicateMember hold hentry
      | none =>
        have hnames := Definition.duplicateMember?_eq_none_iff.mp hmem
        cases hbase : d.duplicateBase? with
        | some base =>
          exact .duplicateBase hold hnames (Definition.duplicateBase?_eq_some_iff.mp hbase)
        | none =>
          have hids := Definition.duplicateBase?_eq_none_iff.mp hbase
          cases hanc : d.ancestors? with
          | some order =>
            exact .accepted hold hnames hids ((h.exists_ancestors?_iff hbases).mp ⟨order, hanc⟩)
          | none =>
            refine .inconsistent hold hnames hids fun hcons => ?_
            obtain ⟨order, horder⟩ := (h.exists_ancestors?_iff hbases).mpr hcons
            rw [hanc] at horder
            cases horder
  · intro hverdict
    unfold Class.define
    cases hverdict with
    | deprecated hname => rw [Definition.deprecated?_eq_some_iff.mpr hname]; rfl
    | @duplicateMember entry hold hentry =>
      rw [Definition.deprecated?_eq_none_iff.mpr hold,
        Definition.duplicateMember?_eq_some_iff.mpr ⟨entry, hentry, rfl⟩]
      rfl
    | duplicateBase hold hnames hbase =>
      rw [Definition.deprecated?_eq_none_iff.mpr hold,
        Definition.duplicateMember?_eq_none_iff.mpr hnames,
        Definition.duplicateBase?_eq_some_iff.mpr hbase]
      rfl
    | inconsistent hold hnames hids hcons =>
      have hanc : d.ancestors? = none := by
        refine Option.eq_none_iff_forall_ne_some.mpr fun order horder => ?_
        exact hcons ((h.exists_ancestors?_iff hbases).mp ⟨order, horder⟩)
      rw [Definition.deprecated?_eq_none_iff.mpr hold,
        Definition.duplicateMember?_eq_none_iff.mpr hnames,
        Definition.duplicateBase?_eq_none_iff.mpr hids, hanc]
      rfl
    | accepted hold hnames hids hcons =>
      obtain ⟨order, horder⟩ := (h.exists_ancestors?_iff hbases).mpr hcons
      rw [Definition.deprecated?_eq_none_iff.mpr hold,
        Definition.duplicateMember?_eq_none_iff.mpr hnames,
        Definition.duplicateBase?_eq_none_iff.mpr hids, horder]
      rfl

/-- The top of the diamond listed before one of its sides. -/
def upsideDown : Definition := ⟨"Odd", [Diamond.top, Diamond.plain], []⟩

theorem not_consistent_upsideDown : ¬ upsideDown.Consistent := by
  rintro ⟨order, hnodup, hown, hlineage⟩
  have hdown : [0, 1].Sublist (order.map Declaration.id) := hown.map Declaration.id
  have hup : [1, 0].Sublist (order.map Declaration.id) :=
    (hlineage Diamond.plain (by simp [upsideDown])).map Declaration.id
  exact not_sublist_swap hnodup hdown hup

/-- Bases that are listed upside down are refused for that. -/
theorem define_upsideDown : (History Diamond.sides ∧
    ∀ b ∈ upsideDown.bases, b ∈ Diamond.sides) ∧
    (Class.define 3 upsideDown).map (fun _ => ()) = .error (.inconsistentHierarchy "Odd") := by
  have hbases : ∀ b ∈ upsideDown.bases, b ∈ Diamond.sides := by simp [upsideDown, Diamond.sides]
  refine ⟨⟨Diamond.sides_history, hbases⟩,
    (Diamond.sides_history.define_iff_verdict hbases 3 _).mpr ?_⟩
  refine .inconsistent (fun name hname => ?_) (by decide) (by decide) not_consistent_upsideDown
  cases hname <;> contradiction

end History

end MethodGuard
