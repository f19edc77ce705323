/-
# What the parts of a class mean

Building computes some parts of a class along its resolution order and others from the direct bases
only.  `Meaning` says what all of them should be in one way: in terms of what the statements of the
class and of its ancestors say, in resolution order.  Every class of every record has that meaning
(`Record.exists_meaning`).

What is gathered from the direct bases needs induction along the record, since a base has gathered
from bases of its own: `mem_marked_iff` does it for markers and `required_iff` for required names.
What is looked for along the order is a search for the first statement that says something
(`FirstWith`).
-/
import MethodGuard.Proofs.Class.Acceptance
import MethodGuard.Proofs.Class.Inheritance
import MethodGuard.Proofs.Class.Lookup
import MethodGuard.Proofs.Class.Record

namespace MethodGuard

/-! ## 1. First occurrences -/

section Occurrence

variable {α : Type u} {κ : Type v} [DecidableEq κ] (key : α → κ)

theorem mem_keys_firstByKey {list : List α} {k : κ} :
    k ∈ (firstByKey key list).map key ↔ k ∈ list.map key := by
  induction list with
  | nil => rfl
  | cons x rest ih =>
    rw [firstByKey, List.map_cons, List.map_cons, List.mem_cons, List.mem_cons, ← ih]
    by_cases hk : k = key x
    · simp [hk]
    · simp only [hk, false_or, List.mem_map, List.mem_filter, decide_eq_true_eq]
      grind

theorem mem_firstByKey_self {α : Type u} [DecidableEq α] {list : List α} {x : α} :
    x ∈ firstByKey (fun y => y) list ↔ x ∈ list := by
  have hmem : x ∈ (firstByKey (fun y => y) list).map (fun y => y) ↔ x ∈ list.map (fun y => y) :=
    mem_keys_firstByKey _
  rwa [List.map_id', List.map_id'] at hmem

theorem nodup_keys_firstByKey (list : List α) : ((firstByKey key list).map key).Nodup := by
  induction list with
  | nil => exact List.nodup_nil
  | cons x rest ih =>
    rw [firstByKey, List.map_cons, List.nodup_cons]
    exact ⟨by simp, ih.sublist (List.filter_sublist.map key)⟩

/-- Where nothing repeats, every element is a first one. -/
theorem firstByKey_of_nodup {list : List α} (h : (list.map key).Nodup) :
    firstByKey key list = list := by
  induction list with
  | nil => rfl
  | cons x rest ih =>
    rw [List.map_cons, List.nodup_cons] at h
    rw [firstByKey, ih h.2, List.filter_eq_self.mpr]
    intro y hy
    exact decide_eq_true fun heq => h.1 (heq ▸ List.mem_map_of_mem hy)

/-- A list keeps its first elements when more is appended; of what is appended, those stay first
that it did not have. -/
theorem firstByKey_append (list more : List α) : firstByKey key (list ++ more) =
    firstByKey key list ++ (firstByKey key more).filter fun y => decide (key y ∉ list.map key) := by
  induction list with
  | nil => simp [firstByKey]
  | cons x rest ih =>
    rw [List.cons_append, firstByKey, firstByKey, ih, List.filter_append, List.filter_filter,
      List.cons_append]
    congr 3
    funext y
    simp only [List.map_cons, List.mem_cons, not_or, Bool.decide_and]

/-- A list in which nothing repeats stays in front. -/
theorem prefix_firstByKey_append {list : List α} (h : (list.map key).Nodup) (more : List α) :
    list <+: firstByKey key (list ++ more) := by
  rw [firstByKey_append, firstByKey_of_nodup key h]
  exact List.prefix_append _ _

theorem firstByKey_sublist (list : List α) : (firstByKey key list).Sublist list := by
  induction list with
  | nil => exact List.Sublist.refl _
  | cons x rest ih => exact (List.filter_sublist.trans ih).cons_cons x

/-- Where keys tell elements apart, no element is lost. -/
theorem mem_firstByKey_iff {list : List α}
    (h : ∀ x ∈ list, ∀ y ∈ list, key x = key y → x = y) {x : α} :
    x ∈ firstByKey key list ↔ x ∈ list := by
  refine ⟨fun hx => (firstByKey_sublist key list).subset hx, fun hx => ?_⟩
  obtain ⟨y, hy, hkey⟩ := List.mem_map.mp ((mem_keys_firstByKey key).mpr (List.mem_map_of_mem hx))
  exact h y ((firstByKey_sublist key list).subset hy) x hx hkey ▸ hy

/-- Of two first elements, the earlier one occurs before the later one does. -/
theorem firstByKey_self_pairwise {α : Type u} [DecidableEq α] (list : List α) :
    (firstByKey (fun x => x) list).Pairwise fun x y =>
      ∃ before, before <+: list ∧ x ∈ before ∧ y ∉ before := by
  induction list with
  | nil => exact .nil
  | cons x rest ih =>
    rw [firstByKey, List.pairwise_cons]
    have hne {y : α} (hy : y ∈ (firstByKey (fun x => x) rest).filter fun y => decide (y ≠ x)) :
        y ≠ x := of_decide_eq_true (List.mem_filter.mp hy).2
    constructor
    · intro y hy
      exact ⟨[x], List.prefix_append _ _, List.mem_singleton_self x,
        fun hmem => hne hy (List.mem_singleton.mp hmem)⟩
    · refine (ih.filter _).imp_of_mem fun {y z} _ hz hbefore => ?_
      obtain ⟨before, hprefix, hy, hz'⟩ := hbefore
      exact ⟨x :: before, List.cons_prefix_cons.mpr ⟨rfl, hprefix⟩, List.mem_cons_of_mem x hy,
        List.not_mem_cons_of_ne_of_not_mem (hne hz) hz'⟩

end Occurrence

/-! ## 2. What bodies say -/

theorem Entry.require?_eq_some_iff {entry : Entry} {name : String} :
    entry.require? = some name ↔ entry = .require name := by
  cases entry <;> simp [Entry.require?]

theorem Entry.mem_filterMap_require? {body : List Entry} {name : String} :
    name ∈ body.filterMap Entry.require? ↔ .require name ∈ body := by
  simp only [List.mem_filterMap, Entry.require?_eq_some_iff, exists_eq_right]

namespace Definition

/-- The body of the statement marks the name. -/
def Marks (d : Definition) (marker : Marker) (name : String) : Prop :=
  ∃ member, (name, member) ∈ d.memberEntries ∧ member.markers.contains marker = true

/-- The required names are those with an entry of the body. -/
theorem mem_requires {d : Definition} {name : String} :
    name ∈ d.requires ↔ .require name ∈ d.body :=
  Entry.mem_filterMap_require?

/-- The names come in the order in which the body first requires them: some first part of it
requires an earlier name and not yet a later one. -/
def InDeclarationOrder (d : Definition) (names : List String) : Prop :=
  names.Pairwise fun m n => ∃ before, before <+: d.body ∧ .require m ∈ before ∧ .require n ∉ before

/-- The first occurrences of required names are in the order of the body. -/
theorem inDeclarationOrder_firstByKey (d : Definition) :
    d.InDeclarationOrder (firstByKey (fun name => name) d.requires) := by
  refine (firstByKey_self_pairwise d.requires).imp fun {m n} hbefore => ?_
  obtain ⟨names, hprefix, hm, hn⟩ := hbefore
  obtain ⟨before, hbody, rfl⟩ := List.prefix_filterMap_iff.mp hprefix
  rw [Entry.mem_filterMap_require?] at hm hn
  exact ⟨before, hbody, hm, hn⟩

end Definition

namespace Record

variable {builds : List Build} {A B : Build} {above : List Build} {name : String}

/-! ## 3. What statements say of members -/

theorem nodup_memberNames (h : Record builds) (hB : B ∈ builds) : B.statement.memberNames.Nodup :=
  Definition.duplicateMember?_eq_none_iff.mp
    (Class.define_eq_ok_iff.mp (h.builtFrom hB).defined).2.1

/-- The own members are the members of the body. -/
theorem find?_members_iff (h : Record builds) (hB : B ∈ builds) {member : Member} :
    B.statement.members.find? name = some member ↔ (name, member) ∈ B.statement.memberEntries :=
  OrderedMap.find?_ofList_iff (h.nodup_memberNames hB)

theorem find?_members_isSome_iff :
    (B.statement.members.find? name).isSome = true ↔ name ∈ B.statement.memberNames :=
  (OrderedMap.find?_isSome_iff _ _).trans OrderedMap.mem_keys_ofList

theorem marks_own_iff (h : Record builds) (hB : B ∈ builds) {marker : Marker} :
    B.cls.own.Marks marker name ↔ B.statement.Marks marker name := by
  rw [h.own_eq hB]
  exact exists_congr fun member => and_congr_left fun _ => h.find?_members_iff hB

/-- The lineage, as the statements say it. -/
theorem Above.lineage_eq (ha : Above builds B above) (h : Record builds) (hB : B ∈ builds) :
    B.cls.lineage = (B :: above).map fun x => x.statement.declaration x.cls.id :=
  ha.map_own_cons.symm.trans
    (List.map_congr_left fun _ hx => h.own_eq (ha.mem_cons hB _ hx))

/-! ## 4. What is looked for along the order -/

theorem searched (h : Record builds) (hB : B ∈ builds) : B.cls.Searched :=
  h.history.searched (cls_mem hB)

section Search

variable (ha : Above builds B above) (h : Record builds) (hB : B ∈ builds)
include ha h hB

/-- Looking along the lineage is looking through the statements. -/
theorem findSome?_lineage {β : Type v} (f : Declaration → Option β) : B.cls.lineage.findSome? f =
    (B :: above).findSome? fun x => f (x.statement.declaration x.cls.id) := by
  rw [ha.lineage_eq h hB, List.findSome?_map]
  rfl

theorem resolve?_eq : B.cls.resolve? name = (B :: above).findSome? fun x =>
    (x.statement.members.find? name).map fun member => ⟨member, x.statement.name⟩ := by
  rw [(h.searched hB).resolve?_eq, findSome?_lineage ha h hB]
  rfl

/-- **A name stands for its first definition along the order.** -/
theorem resolve?_eq_some_iff {r : Resolved} : B.cls.resolve? name = some r ↔
    ∃ x, FirstWith (fun y => name ∈ y.statement.memberNames) (B :: above) x ∧
      (name, r.member) ∈ x.statement.memberEntries ∧ r.owner = x.statement.name := by
  rw [resolve?_eq ha h hB, findSome?_eq_some_iff]
  simp only [Option.isSome_map, find?_members_isSome_iff]
  refine exists_congr fun x => and_congr_right fun hx => ?_
  have hentry : ∀ member, x.statement.members.find? name = some member ↔
      (name, member) ∈ x.statement.memberEntries :=
    fun member => h.find?_members_iff (ha.mem_cons hB x hx.mem)
  obtain ⟨member, owner⟩ := r
  constructor
  · intro hfound
    obtain ⟨member, hmember, heq⟩ := Option.map_eq_some_iff.mp hfound
    cases heq
    exact ⟨(hentry member).mp hmember, rfl⟩
  · rintro ⟨hmember, rfl⟩
    rw [(hentry member).mpr hmember]
    rfl

theorem resolve?_isSome_iff : (B.cls.resolve? name).isSome = true ↔
    ∃ x ∈ B :: above, name ∈ x.statement.memberNames := by
  rw [resolve?_eq ha h hB, List.findSome?_isSome_iff]
  simp only [Option.isSome_map, find?_members_isSome_iff]

/-- A name is listed as abstract when its first definition is. -/
theorem abstractNames_iff : name ∈ B.cls.abstractNames ↔
    ∃ x member, FirstWith (fun y => name ∈ y.statement.memberNames) (B :: above) x ∧
      (name, member) ∈ x.statement.memberEntries ∧ member.isAbstract = true := by
  rw [(h.searched hB).mem_abstractNames_iff]
  simp only [resolve?_eq_some_iff ha h hB]
  constructor
  · rintro ⟨r, ⟨x, hx, hmember, -⟩, habstract⟩
    exact ⟨x, r.member, hx, hmember, habstract⟩
  · rintro ⟨x, member, hx, hmember, habstract⟩
    exact ⟨⟨member, x.statement.name⟩, ⟨x, hx, hmember, rfl⟩, habstract⟩

theorem initializer_eq_some_iff {m : Method} : B.cls.initializer = some m ↔
    ∃ x, FirstWith (fun y => y.statement.initializer.isSome = true) (B :: above) x ∧
      x.statement.initializer = some m := by
  rw [(h.searched hB).initializer, findSome?_lineage ha h hB]
  exact findSome?_eq_some_iff

theorem options_eq : B.cls.options =
    ((B :: above).findSome? fun x => x.statement.options).getD .strict := by
  rw [(h.searched hB).options, findSome?_lineage ha h hB]
  rfl

theorem options_of_first {x : Build}
    (hx : FirstWith (fun y => y.statement.options.isSome = true) (B :: above) x) :
    x.statement.options = some B.cls.options := by
  obtain ⟨o, ho⟩ := Option.isSome_iff_exists.mp hx.holds
  rw [options_eq ha h hB, ho, findSome?_eq_some_iff.mpr ⟨x, hx, ho⟩]
  rfl

theorem options_of_none (hnone : ∀ x ∈ B :: above, x.statement.options = none) :
    B.cls.options = .strict := by
  rw [options_eq ha h hB, List.findSome?_eq_none_iff.mpr hnone]
  rfl

end Search

/-! ## 5. What is gathered from the bases -/

theorem marked_iff (ha : Above builds B above) (h : Record builds) (hB : B ∈ builds)
    (marker : Marker) :
    name ∈ B.cls.marked marker ↔ ∃ x ∈ B :: above, x.statement.Marks marker name := by
  rw [h.history.mem_marked_iff (cls_mem hB), Shape.MarkedAlong, ← ha.map_own_cons]
  simp only [List.mem_map, exists_exists_and_eq_and]
  exact exists_congr fun x =>
    and_congr_right fun hx => h.marks_own_iff (ha.mem_cons hB x hx)

theorem required_eq (h : Record builds) (hB : B ∈ builds) : B.cls.required =
    firstByKey (fun x => x) (B.statement.bases.flatMap (fun b => b.required) ++
      B.statement.requires) := by
  conv_lhs => rw [(h.builtFrom hB).eq_ofDefinition.2]
  rfl

theorem nodup_required (h : Record builds) (hB : B ∈ builds) : B.cls.required.Nodup := by
  have hnodup := nodup_keys_firstByKey (fun x => x)
    (B.statement.bases.flatMap (fun b => b.required) ++ B.statement.requires)
  rwa [List.map_id', ← h.required_eq hB] at hnodup

/-- Some statement of the lineage requires the name. -/
def RequiredAlong (builds : List Build) (c : Class) (name : String) : Prop :=
  ∃ x ∈ builds, x.cls.own ∈ c.lineage ∧ .require name ∈ x.statement.body

/-- One step of the gathering: the own requirements and those of the bases. -/
theorem mem_required (h : Record builds) (hB : B ∈ builds) : name ∈ B.cls.required ↔
    (∃ b ∈ B.statement.bases, name ∈ b.required) ∨ .require name ∈ B.statement.body := by
  rw [h.required_eq hB, mem_firstByKey_self, List.mem_append, List.mem_flatMap,
    Definition.mem_requires]

/-- **No requirement is lost and none is made up**, by induction along the record. -/
theorem mem_required_iff_along (h : Record builds) : ∀ B ∈ builds, ∀ name,
    name ∈ B.cls.required ↔ RequiredAlong builds B.cls name := by
  refine h.induction (P := fun c => ∀ name, name ∈ c.required ↔ RequiredAlong builds c name) ?_
  intro B hB ih name
  have hbases : (∃ b ∈ B.statement.bases, name ∈ b.required) ↔
      ∃ b ∈ B.statement.bases, RequiredAlong builds b name :=
    exists_congr fun b => and_congr_right fun hb => ih b hb name
  rw [h.mem_required hB, hbases]
  exact (h.exists_lineage_iff hB).symm

/-- What the bases require is what the ancestors' statements require. -/
theorem exists_base_required_iff (ha : Above builds B above) (h : Record builds)
    (hB : B ∈ builds) : (∃ b ∈ B.statement.bases, name ∈ b.required) ↔
      ∃ x ∈ above, .require name ∈ x.statement.body := by
  have hbases : (∃ b ∈ B.statement.bases, name ∈ b.required) ↔
      ∃ b ∈ B.statement.bases, RequiredAlong builds b name := by
    refine exists_congr fun b => and_congr_right fun hb => ?_
    obtain ⟨A, hA, rfl⟩ := List.mem_map.mp ((h.builtFrom hB).bases_mem b hb)
    exact h.mem_required_iff_along A hA name
  simp only [hbases, RequiredAlong]
  rw [h.exists_base_lineage_iff hB]
  constructor
  · rintro ⟨x, hx, hown, hname⟩
    exact ⟨x, (ha.own_mem_iff h hx).mp hown, hname⟩
  · rintro ⟨x, hx, hname⟩
    exact ⟨x, ha.mem x hx, (ha.own_mem_iff h (ha.mem x hx)).mpr hx, hname⟩

theorem required_iff (ha : Above builds B above) (h : Record builds) (hB : B ∈ builds) :
    name ∈ B.cls.required ↔ ∃ x ∈ B :: above, .require name ∈ x.statement.body :=
  (h.mem_required_iff_along B hB name).trans (ha.exists_lineage_iff h hB)

/-- The requirements of the first base come first. -/
theorem required_prefix (h : Record builds) (hB : B ∈ builds) {b : Class}
    (hb : B.statement.bases.head? = some b) : b.required <+: B.cls.required := by
  obtain ⟨rest, hrest⟩ := List.head?_eq_some_iff.mp hb
  have hmem : b ∈ B.statement.bases := hrest ▸ List.mem_cons_self
  obtain ⟨A, hA, rfl⟩ := List.mem_map.mp ((h.builtFrom hB).bases_mem b hmem)
  rw [h.required_eq hB, hrest, List.flatMap_cons, List.append_assoc]
  exact prefix_firstByKey_append _ (by simpa using h.nodup_required hA) _

/-- What ancestors require comes first; the names that are new in the class come last. -/
theorem required_split (ha : Above builds B above) (h : Record builds) (hB : B ∈ builds) :
    ∃ inherited fresh, B.cls.required = inherited ++ fresh ∧
      (∀ name, name ∈ inherited ↔ ∃ x ∈ above, .require name ∈ x.statement.body) ∧
      (∀ name, name ∈ fresh ↔
        .require name ∈ B.statement.body ∧ ¬ ∃ x ∈ above, .require name ∈ x.statement.body) ∧
      B.statement.InDeclarationOrder fresh := by
  have hinherited (name : String) : name ∈ B.statement.bases.flatMap (fun b => b.required) ↔
      ∃ x ∈ above, .require name ∈ x.statement.body :=
    List.mem_flatMap.trans (exists_base_required_iff ha h hB)
  refine ⟨_, _, (h.required_eq hB).trans (firstByKey_append _ _ _),
    fun name => mem_firstByKey_self.trans (hinherited name), fun name => ?_,
    B.statement.inDeclarationOrder_firstByKey.filter _⟩
  rw [List.mem_filter, mem_firstByKey_self, Definition.mem_requires, decide_eq_true_eq,
    List.map_id', hinherited]

/-! ## 6. The whole -/

/-- **What a class should be**, in terms of what its statement and those of its ancestors say.
`above` are the builds of its ancestors in resolution order. -/
structure Meaning (builds : List Build) (B : Build) (above : List Build) : Prop where
  /-- A name stands for its first definition, under the name of the class that has it. -/
  resolve : ∀ name r, B.cls.resolve? name = some r ↔
    ∃ x, FirstWith (fun y => name ∈ y.statement.memberNames) (B :: above) x ∧
      (name, r.member) ∈ x.statement.memberEntries ∧ r.owner = x.statement.name
  /-- The names that stand for something are those that some class defines. -/
  resolve_isSome : ∀ name, (B.cls.resolve? name).isSome = true ↔
    ∃ x ∈ B :: above, name ∈ x.statement.memberNames
  /-- The names marked for a validator are those that some class marks. -/
  prerun : ∀ name, name ∈ B.cls.prerun ↔ ∃ x ∈ B :: above, x.statement.Marks .prerun name
  /-- The names marked for type checks are those that some class marks. -/
  typed : ∀ name, name ∈ B.cls.typed ↔ ∃ x ∈ B :: above, x.statement.Marks .type name
  /-- The required names are those that some class requires, each listed once. -/
  required : B.cls.required.Nodup ∧
    ∀ name, name ∈ B.cls.required ↔ ∃ x ∈ B :: above, .require name ∈ x.statement.body
  /-- The first base's required names come first. -/
  required_first : ∀ b, B.statement.bases.head? = some b → b.required <+: B.cls.required
  /-- The required names that are new in the class come last, in the order of declaration. -/
  required_last : ∃ inherited fresh, B.cls.required = inherited ++ fresh ∧
    (∀ name, name ∈ inherited ↔ ∃ x ∈ above, .require name ∈ x.statement.body) ∧
    (∀ name, name ∈ fresh ↔
      .require name ∈ B.statement.body ∧ ¬ ∃ x ∈ above, .require name ∈ x.statement.body) ∧
    B.statement.InDeclarationOrder fresh
  /-- The abstract names are those whose first definition is abstract, each listed once. -/
  abstractNames : B.cls.abstractNames.Nodup ∧ ∀ name, name ∈ B.cls.abstractNames ↔
    ∃ x member, FirstWith (fun y => name ∈ y.statement.memberNames) (B :: above) x ∧
      (name, member) ∈ x.statement.memberEntries ∧ member.isAbstract = true
  /-- The initializer is that of the first class with an own one; without one there is none. -/
  initializer : ∀ m, B.cls.initializer = some m ↔
    ∃ x, FirstWith (fun y => y.statement.initializer.isSome = true) (B :: above) x ∧
      x.statement.initializer = some m
  /-- The options are those of the first class with own ones; without one they are strict. -/
  options : (∀ x, FirstWith (fun y => y.statement.options.isSome = true) (B :: above) x →
      x.statement.options = some B.cls.options) ∧
    ((∀ x ∈ B :: above, x.statement.options = none) → B.cls.options = .strict)
  /-- No ancestor's marker or requirement is lost. -/
  kept : ∀ a ∈ builds, Ancestor (builds.map Build.cls) B.cls a.cls → ∀ name,
    (name ∈ a.cls.prerun → name ∈ B.cls.prerun) ∧ (name ∈ a.cls.typed → name ∈ B.cls.typed) ∧
      (name ∈ a.cls.required → name ∈ B.cls.required)

/-- An ancestor's own lineage is among the class's ancestors. -/
theorem Above.subset_of_ancestor {aboveA : List Build} (ha : Above builds B above)
    (hA : Above builds A aboveA) (h : Record builds) (hAmem : A ∈ builds)
    (hanc : Ancestor (builds.map Build.cls) B.cls A.cls) : ∀ x ∈ A :: aboveA, x ∈ B :: above := by
  intro x hx
  have hmem : x ∈ builds := hA.mem_cons hAmem x hx
  have hown : x.cls.own ∈ A.cls.lineage := (hA.own_mem_lineage_iff h hAmem hmem).mpr hx
  have hup := (h.history.lineage_sublist_of_ancestor hanc).subset hown
  exact List.mem_cons_of_mem B ((ha.own_mem_iff h hmem).mp hup)

theorem kept_of_ancestor (ha : Above builds B above) (h : Record builds) (hB : B ∈ builds)
    (hA : A ∈ builds) (hanc : Ancestor (builds.map Build.cls) B.cls A.cls) (name : String) :
    (∀ marker, name ∈ A.cls.marked marker → name ∈ B.cls.marked marker) ∧
      (name ∈ A.cls.required → name ∈ B.cls.required) := by
  obtain ⟨aboveA, haA⟩ := h.exists_above hA
  have hsub := ha.subset_of_ancestor haA h hA hanc
  constructor
  · intro marker hname
    obtain ⟨x, hx, hmarks⟩ := (marked_iff haA h hA marker).mp hname
    exact (marked_iff ha h hB marker).mpr ⟨x, hsub x hx, hmarks⟩
  · intro hname
    obtain ⟨x, hx, hrequires⟩ := (required_iff haA h hA).mp hname
    exact (required_iff ha h hB).mpr ⟨x, hsub x hx, hrequires⟩

/-- **A class is what the statements of its lineage say**, whatever sequence of builds led to it
and whichever part of it was gathered from the direct bases only. -/
theorem exists_meaning (h : Record builds) (hB : B ∈ builds) :
    ∃ above, Above builds B above ∧ Meaning builds B above := by
  obtain ⟨above, ha⟩ := h.exists_above hB
  refine ⟨above, ha, {
    resolve := fun name r => resolve?_eq_some_iff ha h hB
    resolve_isSome := fun name => resolve?_isSome_iff ha h hB
    prerun := fun name => marked_iff ha h hB .prerun
    typed := fun name => marked_iff ha h hB .type
    required := ⟨h.nodup_required hB, fun name => required_iff ha h hB⟩
    required_first := fun b hb => h.required_prefix hB hb
    required_last := required_split ha h hB
    abstractNames := ⟨(h.searched hB).nodup_abstractNames, fun name => abstractNames_iff ha h hB⟩
    initializer := fun m => initializer_eq_some_iff ha h hB
    options := ⟨fun x hx => options_of_first ha h hB hx, options_of_none ha h hB⟩
    kept := fun a hA hanc name => ?_ }⟩
  obtain ⟨hmarked, hrequired⟩ := kept_of_ancestor ha h hB hA hanc name
  exact ⟨hmarked .prerun, hmarked .type, hrequired⟩

end Record

namespace Diamond

/-- The builds of the diamond. -/
def builds : List Build :=
  [⟨bottomStatement, bottom⟩, ⟨markingStatement, marking⟩, ⟨plainStatement, plain⟩,
    ⟨topStatement, top⟩]

theorem builds_record : Record builds :=
  (((Record.start.build (by simp [topStatement]) top_defined).build
    (by simp [plainStatement]) plain_defined).build
    (by simp [markingStatement]) marking_defined).build (by simp [bottomStatement]) bottom_defined

/-- The bottom of the diamond, which says nothing itself. -/
theorem bottom_meaning : (Record builds ∧ ⟨bottomStatement, bottom⟩ ∈ builds) ∧
    ∃ above, Record.Above builds ⟨bottomStatement, bottom⟩ above ∧
      Record.Meaning builds ⟨bottomStatement, bottom⟩ above :=
  ⟨⟨builds_record, List.mem_cons_self⟩, builds_record.exists_meaning List.mem_cons_self⟩

end Diamond

end MethodGuard
