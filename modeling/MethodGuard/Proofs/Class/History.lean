/-
# Build histories

Classes come into being one after the other, each from a statement whose bases have been built
before.  A `History` is a list of the classes built that way, latest first; a class is REACHABLE
by building exactly when some history has it.  What holds of all classes is proved by
`History.induction`: assume it of a statement's bases and show it of the class.

Identities are given out in the order of building, so within a history they tell classes apart
(`History.eq_of_id_eq`), names do not.  The one thing a class keeps of its ancestors is their own
parts; in a history those are own parts of built classes (`History.exists_own_of_mem_lineage`), and
hence known by their identities too.
-/
import Mathlib.Logic.Relation
import MethodGuard.Class.Definition
import MethodGuard.Proofs.Linearization.Merge

namespace MethodGuard

/-! ## 1. What building accepts -/

namespace Class

/-- A statement that is built has none of the four mistakes, and its class is the one that
follows from the merged order. -/
theorem define_eq_ok_iff {id : ClassId} {d : Definition} {c : Class} :
    define id d = .ok c ↔ d.deprecated? = none ∧ d.duplicateMember? = none ∧
      d.duplicateBase? = none ∧
      ∃ ancestors, d.ancestors? = some ancestors ∧ c = ofDefinition d id ancestors := by
  unfold define
  cases d.deprecated? with
  | some name => simp
  | none =>
    cases d.duplicateMember? with
    | some name => simp
    | none =>
      cases d.duplicateBase? with
      | some base => simp
      | none =>
        cases d.ancestors? with
        | none => simp
        | some ancestors => simp [eq_comm]

section Fields

variable (d : Definition) (id : ClassId) (ancestors : List Declaration)

@[simp] theorem bases_ofDefinition :
    (ofDefinition d id ancestors).bases = d.bases.map (fun b => b.own) := rfl

@[simp] theorem ancestors_ofDefinition : (ofDefinition d id ancestors).ancestors = ancestors := rfl

end Fields

end Class

namespace Shape

theorem mem_lineage {s : Shape} {d : Declaration} :
    d ∈ s.lineage ↔ d = s.own ∨ d ∈ s.ancestors := List.mem_cons

theorem own_mem_lineage (s : Shape) : s.own ∈ s.lineage := List.mem_cons_self

end Shape

namespace Definition

/-- The orders that the ancestors of a class must keep: that of each base with its ancestors, and
that of the bases. -/
def precedence (d : Definition) : List (List Declaration) :=
  d.bases.map (fun b => b.lineage) ++ [d.bases.map (fun b => b.own)]

theorem ancestors?_eq (d : Definition) :
    d.ancestors? = Linearization.merge? Declaration.id d.precedence := rfl

theorem mem_precedence {d : Definition} {list : List Declaration} :
    list ∈ d.precedence ↔
      (∃ b ∈ d.bases, list = b.lineage) ∨ list = d.bases.map (fun b => b.own) := by
  simp [precedence, eq_comm]

/-- What the orders have comes from the bases. -/
theorem exists_base_of_mem {d : Definition} {list : List Declaration} {x : Declaration}
    (hlist : list ∈ d.precedence) (hx : x ∈ list) : ∃ b ∈ d.bases, x ∈ b.lineage := by
  rcases mem_precedence.mp hlist with ⟨b, hb, rfl⟩ | rfl
  · exact ⟨b, hb, hx⟩
  · obtain ⟨b, hb, rfl⟩ := List.mem_map.mp hx
    exact ⟨b, hb, b.own_mem_lineage⟩

/-- What the merged order has comes from the bases. -/
theorem exists_base_of_mem_ancestors? {d : Definition} {order : List Declaration}
    {x : Declaration} (h : d.ancestors? = some order) (hx : x ∈ order) :
    ∃ b ∈ d.bases, x ∈ b.lineage := by
  obtain ⟨list, hlist, hxl⟩ := Linearization.mem_of_merge? Declaration.id h hx
  exact exists_base_of_mem hlist hxl

end Definition

/-! ## 2. Histories -/

/-- **The classes of a sequence of successful builds**, latest first. -/
inductive History : List Class → Prop where
  | start : History []
  | build {classes : List Class} {d : Definition} {c : Class} : History classes →
      (∀ b ∈ d.bases, b ∈ classes) → Class.define classes.length d = .ok c → History (c :: classes)

/-- How a class among others came about: from a statement about classes built before it. -/
structure BuiltFrom (classes : List Class) (d : Definition) (c : Class) : Prop where
  mem : c ∈ classes
  bases_mem : ∀ b ∈ d.bases, b ∈ classes
  bases_id_lt : ∀ b ∈ d.bases, b.id < c.id
  defined : Class.define c.id d = .ok c

namespace BuiltFrom

variable {classes : List Class} {d : Definition} {c : Class}

theorem mono {more : List Class} (h : BuiltFrom classes d c) (hsub : ∀ x ∈ classes, x ∈ more) :
    BuiltFrom more d c :=
  ⟨hsub c h.mem, fun b hb => hsub b (h.bases_mem b hb), h.bases_id_lt, h.defined⟩

/-- The class follows from the statement and the merged order. -/
theorem eq_ofDefinition (h : BuiltFrom classes d c) :
    d.ancestors? = some c.ancestors ∧ c = Class.ofDefinition d c.id c.ancestors := by
  obtain ⟨-, -, -, ancestors, ha, hc⟩ := Class.define_eq_ok_iff.mp h.defined
  have he : c.ancestors = ancestors := by rw [hc, Class.ancestors_ofDefinition]
  exact ⟨he ▸ ha, he ▸ hc⟩

theorem bases_eq (h : BuiltFrom classes d c) : c.bases = d.bases.map (fun b => b.own) := by
  rw [h.eq_ofDefinition.2, Class.bases_ofDefinition]

/-- Every ancestor is a base or an ancestor of a base. -/
theorem exists_base_of_mem_ancestors (h : BuiltFrom classes d c) {x : Declaration}
    (hx : x ∈ c.ancestors) : ∃ b ∈ d.bases, x ∈ b.lineage :=
  Definition.exists_base_of_mem_ancestors? h.eq_ofDefinition.1 hx

end BuiltFrom

namespace History

variable {classes : List Class}

/-- Identities are the places in the order of building. -/
theorem id_lt (h : History classes) {c : Class} (hc : c ∈ classes) : c.id < classes.length := by
  induction h with
  | start => cases hc
  | @build earlier d c' _ hbases hdef ih =>
    rw [List.length_cons]
    rcases List.mem_cons.mp hc with rfl | hc
    · obtain ⟨-, -, -, ancestors, -, rfl⟩ := Class.define_eq_ok_iff.mp hdef
      exact Nat.lt_succ_self _
    · exact Nat.lt_succ_of_lt (ih hc)

/-- A class has the identity it was built under. -/
theorem id_of_define {d : Definition} {id : ClassId} {c : Class} (h : Class.define id d = .ok c) :
    c.id = id := by
  obtain ⟨-, -, -, ancestors, -, rfl⟩ := Class.define_eq_ok_iff.mp h
  rfl

/-- **Identities tell the classes of a history apart.** -/
theorem eq_of_id_eq (h : History classes) {a b : Class} (ha : a ∈ classes) (hb : b ∈ classes)
    (hid : a.id = b.id) : a = b := by
  induction h with
  | start => cases ha
  | @build earlier d c hearlier hbases hdef ih =>
    have hc := id_of_define hdef
    rcases List.mem_cons.mp ha with rfl | ha'
    · rcases List.mem_cons.mp hb with rfl | hb'
      · rfl
      · exact absurd (hc ▸ hid ▸ hearlier.id_lt hb') (Nat.lt_irrefl _)
    · rcases List.mem_cons.mp hb with rfl | hb'
      · exact absurd (hc ▸ hid ▸ hearlier.id_lt ha') (Nat.lt_irrefl _)
      · exact ih ha' hb'

/-- Every class of a history came about from a statement. -/
theorem exists_builtFrom (h : History classes) {c : Class} (hc : c ∈ classes) :
    ∃ d, BuiltFrom classes d c := by
  induction h with
  | start => cases hc
  | @build earlier d c' hearlier hbases hdef ih =>
    rcases List.mem_cons.mp hc with rfl | hc
    · have hid := id_of_define hdef
      refine ⟨d, List.mem_cons_self, fun b hb => List.mem_cons_of_mem c (hbases b hb),
        fun b hb => ?_, hid ▸ hdef⟩
      rw [hid]
      exact hearlier.id_lt (hbases b hb)
    · obtain ⟨d', hd'⟩ := ih hc
      exact ⟨d', hd'.mono fun x hx => List.mem_cons_of_mem c' hx⟩

/-- **Induction along building**: what a class has whenever the bases of its statement have it,
every class of a history has. -/
theorem induction (h : History classes) {P : Class → Prop}
    (step : ∀ d c, BuiltFrom classes d c → (∀ b ∈ d.bases, P b) → P c) : ∀ c ∈ classes, P c := by
  intro c hc
  induction hid : c.id using Nat.strongRecOn generalizing c with
  | _ id ih =>
    obtain ⟨d, hd⟩ := h.exists_builtFrom hc
    refine step d c hd fun b hb => ih b.id ?_ b (hd.bases_mem b hb) rfl
    exact hid ▸ hd.bases_id_lt b hb

/-! ## 3. What a class keeps of its ancestors -/

/-- **A class's lineage consists of the own parts of built classes**, none of them later. -/
theorem exists_own_of_mem_lineage (h : History classes) : ∀ c ∈ classes, ∀ x ∈ c.lineage,
    ∃ a ∈ classes, a.own = x ∧ a.id ≤ c.id := by
  refine h.induction fun d c hd ih x hx => ?_
  rcases Shape.mem_lineage.mp hx with rfl | hx
  · exact ⟨c, hd.mem, rfl, Nat.le_refl _⟩
  · obtain ⟨b, hb, hxb⟩ := hd.exists_base_of_mem_ancestors hx
    obtain ⟨a, ha, hown, hle⟩ := ih b hb x hxb
    exact ⟨a, ha, hown, Nat.le_trans hle (Nat.le_of_lt (hd.bases_id_lt b hb))⟩

/-- Ancestors were built before the class. -/
theorem exists_own_of_mem_ancestors (h : History classes) {c : Class} (hc : c ∈ classes)
    {x : Declaration} (hx : x ∈ c.ancestors) : ∃ a ∈ classes, a.own = x ∧ a.id < c.id := by
  obtain ⟨d, hd⟩ := h.exists_builtFrom hc
  obtain ⟨b, hb, hxb⟩ := hd.exists_base_of_mem_ancestors hx
  obtain ⟨a, ha, hown, hle⟩ := h.exists_own_of_mem_lineage b (hd.bases_mem b hb) x hxb
  exact ⟨a, ha, hown, Nat.lt_of_le_of_lt hle (hd.bases_id_lt b hb)⟩

/-- Identities tell the own parts in lineages apart. -/
theorem lineage_eq_of_id_eq (h : History classes) {c c' : Class} (hc : c ∈ classes)
    (hc' : c' ∈ classes) {x y : Declaration} (hx : x ∈ c.lineage) (hy : y ∈ c'.lineage)
    (hid : x.id = y.id) : x = y := by
  obtain ⟨a, ha, rfl, -⟩ := h.exists_own_of_mem_lineage c hc x hx
  obtain ⟨b, hb, rfl, -⟩ := h.exists_own_of_mem_lineage c' hc' y hy
  rw [h.eq_of_id_eq ha hb hid]

/-- The orders that a statement's ancestors must keep are kept by the merged order, element by
element and not only by identity. -/
theorem sublist_ancestors? (h : History classes) {d : Definition}
    (hbases : ∀ b ∈ d.bases, b ∈ classes) {order : List Declaration}
    (horder : d.ancestors? = some order) {list : List Declaration} (hlist : list ∈ d.precedence) :
    list.Sublist order := by
  refine Linearization.sublist_of_map_sublist (fun x hx y hy hid => ?_)
    ((Linearization.isC3_of_merge? Declaration.id horder).sublist (List.mem_map_of_mem hlist))
  obtain ⟨b, hb, hxb⟩ := Definition.exists_base_of_mem hlist hx
  obtain ⟨b', hb', hyb⟩ := Definition.exists_base_of_mem_ancestors? horder hy
  exact h.lineage_eq_of_id_eq (hbases b hb) (hbases b' hb') hxb hyb hid

end History

open Linearization in
/-- With one base, and no more above it, the order is the base's own. -/
theorem Definition.ancestors?_of_root {d : Definition} {root : Class} (h : d.bases = [root])
    (hroot : root.ancestors = []) : d.ancestors? = some [root.own] := by
  have hprecedence : d.precedence = [[root.own], [root.own]] := by
    rw [Definition.precedence, h, List.map_singleton, List.map_singleton, Shape.lineage, hroot]
    rfl
  have hhead : nextHead? Declaration.id d.precedence = some root.own := by
    rw [hprecedence]
    rfl
  have hdropped : dropHeads Declaration.id root.own [[root.own], [root.own]] = [[], []] := by
    simp [dropHeads, dropHead]
  rw [Definition.ancestors?_eq, merge?_of_nextHead? _ hhead, hprecedence, hdropped,
    merge?_of_isEmpty _ rfl]
  rfl

open Linearization in
/-- With two bases that have one class above them, that class comes last. -/
theorem Definition.ancestors?_of_diamond {d : Definition} {left right : Class} {top : Declaration}
    (h : d.bases = [left, right]) (hleft : left.ancestors = [top]) (hright : right.ancestors = [top])
    (hsides : left.own.id ≠ right.own.id) (hlt : left.own.id ≠ top.id)
    (hrt : right.own.id ≠ top.id) : d.ancestors? = some [left.own, right.own, top] := by
  have hprecedence : d.precedence =
      [[left.own, top], [right.own, top], [left.own, right.own]] := by
    rw [Definition.precedence, h]
    simp [Shape.lineage, hleft, hright]
  have hfirst : nextHead? Declaration.id [[left.own, top], [right.own, top],
      [left.own, right.own]] = some left.own := by
    simp [nextHead?, isGood, hsides.symm, hlt.symm]
  have hsecond : nextHead? Declaration.id [[top], [right.own, top], [right.own]] =
      some right.own := by
    simp [nextHead?, isGood, hrt.symm]
  have hthird : nextHead? Declaration.id [[top], [top], []] = some top := rfl
  rw [Definition.ancestors?_eq, hprecedence]
  calc merge? Declaration.id [[left.own, top], [right.own, top], [left.own, right.own]]
      = (merge? Declaration.id [[top], [right.own, top], [right.own]]).map (left.own :: ·) := by
        rw [merge?_of_nextHead? _ hfirst]
        simp [dropHeads, dropHead, hsides.symm]
    _ = ((merge? Declaration.id [[top], [top], []]).map (right.own :: ·)).map (left.own :: ·) := by
        rw [merge?_of_nextHead? _ hsecond]
        simp [dropHeads, dropHead, hrt.symm]
    _ = (((merge? Declaration.id [[], [], []]).map (top :: ·)).map (right.own :: ·)).map
          (left.own :: ·) := by
        rw [merge?_of_nextHead? _ hthird]
        simp [dropHeads, dropHead]
    _ = some [left.own, right.own, top] := by
        rw [merge?_of_isEmpty _ rfl]
        rfl

/-! ## 4. A diamond

Two sides of one top: one side has the method and its validator and marks nothing, the other marks
the method and has none.  Names are shared on purpose. -/

namespace Diamond

open Linearization

def signature (returns : TypeSpec) : Signature := ⟨[.typed "side" .integer], some returns⟩

/-- The area of a square, unmarked. -/
def area : Method := ⟨"area", signature .integer, .none, fun bound =>
  .succeed ((bound.find? "side").getD .none)⟩

/-- The validator of the area; it accepts everything. -/
def validateArea : Method := ⟨"validate_area", signature .none, .none, fun _ => .succeed .none⟩

def topStatement : Definition := ⟨"Shape", [], []⟩
def top : Class := .ofDefinition topStatement 0 []

def plainStatement : Definition := ⟨"Side", [top], [.method area, .method validateArea]⟩
def plain : Class := .ofDefinition plainStatement 1 [top.own]

def markingStatement : Definition :=
  ⟨"Side", [top], [.abstract ⟨"area", signature .integer, ⟨true, true⟩⟩]⟩
def marking : Class := .ofDefinition markingStatement 2 [top.own]

def bottomStatement : Definition := ⟨"Shape", [plain, marking], []⟩
def bottom : Class := .ofDefinition bottomStatement 3 [plain.own, marking.own, top.own]

theorem top_defined : Class.define 0 topStatement = .ok top :=
  Class.define_eq_ok_iff.mpr ⟨by decide, by decide, rfl, [], merge?_of_isEmpty _ rfl, rfl⟩

theorem plain_defined : Class.define 1 plainStatement = .ok plain :=
  Class.define_eq_ok_iff.mpr ⟨by decide, by decide, rfl, _, Definition.ancestors?_of_root rfl rfl, rfl⟩

theorem marking_defined : Class.define 2 markingStatement = .ok marking :=
  Class.define_eq_ok_iff.mpr ⟨by decide, by decide, rfl, _, Definition.ancestors?_of_root rfl rfl, rfl⟩

theorem bottom_ancestors : bottomStatement.ancestors? = some [plain.own, marking.own, top.own] :=
  Definition.ancestors?_of_diamond rfl rfl rfl (by decide) (by decide) (by decide)

theorem bottom_defined : Class.define 3 bottomStatement = .ok bottom :=
  Class.define_eq_ok_iff.mpr ⟨by decide, by decide, rfl, _, bottom_ancestors, rfl⟩

/-- The classes before the last one. -/
def sides : List Class := [marking, plain, top]

theorem sides_history : History sides :=
  ((History.start.build (by simp [topStatement]) top_defined).build
    (by simp [plainStatement]) plain_defined).build (by simp [markingStatement]) marking_defined

theorem history : History (bottom :: sides) :=
  sides_history.build (by simp [bottomStatement, sides]) bottom_defined

end Diamond

end MethodGuard
