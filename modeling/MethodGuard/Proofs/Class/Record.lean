/-
# Records of builds

A built class forgets part of its statement: which of its required names it asked for itself
cannot be told from the class.  A `Record` keeps every class together with its statement, so that
what a class has can be compared with what the statements of its ancestors say.  Its classes are a
`History`, and every history is that of a record.

The ancestors of a class are builds of the record (`Record.exists_above`).
-/
import MethodGuard.Proofs.Class.Ancestors

namespace MethodGuard

/-! ## 1. Records -/

/-- A successful build. -/
structure Build where
  statement : Definition
  cls : Class

/-- **The record of a sequence of successful builds**, latest first. -/
inductive Record : List Build → Prop where
  | start : Record []
  | build {builds : List Build} {d : Definition} {c : Class} : Record builds →
      (∀ b ∈ d.bases, b ∈ builds.map Build.cls) → Class.define builds.length d = .ok c →
      Record (⟨d, c⟩ :: builds)

namespace Record

variable {builds : List Build} {A B : Build}

/-- The classes of a record are a history. -/
theorem history (h : Record builds) : History (builds.map Build.cls) := by
  induction h with
  | start => exact .start
  | @build builds d c _ hbases hdef ih =>
    have hlength : (builds.map Build.cls).length = builds.length := List.length_map _
    exact ih.build hbases (hlength ▸ hdef)

theorem cls_mem (hB : B ∈ builds) : B.cls ∈ builds.map Build.cls := List.mem_map_of_mem hB

/-- Every class of a record came about from the statement it is recorded with. -/
theorem builtFrom (h : Record builds) (hB : B ∈ builds) :
    BuiltFrom (builds.map Build.cls) B.statement B.cls := by
  induction h with
  | start => cases hB
  | @build builds d c hearlier hbases hdef ih =>
    have hid : c.id = builds.length := History.id_of_define hdef
    rcases List.mem_cons.mp hB with rfl | hB
    · refine ⟨List.mem_cons_self, fun b hb => List.mem_cons_of_mem c (hbases b hb), ?_, hid ▸ hdef⟩
      intro b hb
      have hlt := hearlier.history.id_lt (hbases b hb)
      rw [List.length_map] at hlt
      exact hid ▸ hlt
    · exact (ih hB).mono fun x hx => List.mem_cons_of_mem c hx

/-- **Induction along a record**: what a class has whenever the bases of its own statement have it,
every class of the record has. -/
theorem induction (h : Record builds) {P : Class → Prop}
    (step : ∀ B ∈ builds, (∀ b ∈ B.statement.bases, P b) → P B.cls) : ∀ B ∈ builds, P B.cls := by
  induction h with
  | start => exact fun B hB => nomatch hB
  | @build builds d c hearlier hbases hdef ih =>
    have hold : ∀ B ∈ builds, P B.cls :=
      ih fun B hB => step B (List.mem_cons_of_mem _ hB)
    intro B hB
    rcases List.mem_cons.mp hB with rfl | hB
    · refine step _ List.mem_cons_self fun b hb => ?_
      obtain ⟨A, hA, rfl⟩ := List.mem_map.mp (hbases b hb)
      exact hold A hA
    · exact hold B hB

/-- The own part of a class is what its statement says. -/
theorem own_eq (h : Record builds) (hB : B ∈ builds) :
    B.cls.own = B.statement.declaration B.cls.id := by
  conv_lhs => rw [(h.builtFrom hB).eq_ofDefinition.2]
  rfl

/-! ## 2. Identities -/

theorem nodup_ids (h : Record builds) : (builds.map fun B => B.cls.id).Nodup := by
  induction h with
  | start => exact List.nodup_nil
  | @build builds d c hearlier hbases hdef ih =>
    rw [List.map_cons, List.nodup_cons]
    refine ⟨fun hmem => ?_, ih⟩
    obtain ⟨A, hA, hid⟩ := List.mem_map.mp hmem
    have hlt := hearlier.history.id_lt (cls_mem hA)
    rw [List.length_map, hid] at hlt
    exact absurd (History.id_of_define hdef) (Nat.ne_of_lt hlt)

/-- The own part of a class tells its build. -/
theorem eq_of_own_eq (h : Record builds) (hA : A ∈ builds) (hB : B ∈ builds)
    (hown : A.cls.own = B.cls.own) : A = B :=
  List.inj_on_of_nodup_map h.nodup_ids hA hB (congrArg Declaration.id hown)

/-! ## 3. The builds of a class's ancestors -/

section Lineage

variable {P : Build → Prop}

/-- What some class above some base has, some ancestor has. -/
theorem exists_base_lineage_iff (h : Record builds) (hB : B ∈ builds) :
    (∃ b ∈ B.statement.bases, ∃ x ∈ builds, x.cls.own ∈ b.lineage ∧ P x) ↔
      ∃ x ∈ builds, x.cls.own ∈ B.cls.ancestors ∧ P x := by
  constructor
  · rintro ⟨b, hb, x, hx, hown, hP⟩
    have hsub := h.history.lineage_sublist_of_mem_bases (h.builtFrom hB) hb
    exact ⟨x, hx, hsub.subset hown, hP⟩
  · rintro ⟨x, hx, hown, hP⟩
    obtain ⟨b, hb, hxb⟩ := (h.builtFrom hB).exists_base_of_mem_ancestors hown
    exact ⟨b, hb, x, hx, hxb, hP⟩

/-- **What some class of a lineage has**, the class itself has, or some class above some base. -/
theorem exists_lineage_iff (h : Record builds) (hB : B ∈ builds) :
    (∃ x ∈ builds, x.cls.own ∈ B.cls.lineage ∧ P x) ↔
      (∃ b ∈ B.statement.bases, ∃ x ∈ builds, x.cls.own ∈ b.lineage ∧ P x) ∨ P B := by
  rw [h.exists_base_lineage_iff hB]
  constructor
  · rintro ⟨x, hx, hown, hP⟩
    rcases Shape.mem_lineage.mp hown with hown | hown
    · exact Or.inr (h.eq_of_own_eq hx hB hown ▸ hP)
    · exact Or.inl ⟨x, hx, hown, hP⟩
  · rintro (⟨x, hx, hown, hP⟩ | hP)
    · exact ⟨x, hx, Shape.mem_lineage.mpr (Or.inr hown), hP⟩
    · exact ⟨B, hB, B.cls.own_mem_lineage, hP⟩

end Lineage

/-- **The ancestors of a class, as builds of the record**, in resolution order. -/
structure Above (builds : List Build) (B : Build) (above : List Build) : Prop where
  mem : ∀ x ∈ above, x ∈ builds
  own_eq : above.map (fun x => x.cls.own) = B.cls.ancestors

/-- Every list of own parts of recorded classes is the list of own parts of recorded builds. -/
theorem exists_map_own_eq {owns : List Declaration}
    (h : ∀ x ∈ owns, ∃ a ∈ builds.map Build.cls, a.own = x) :
    ∃ list : List Build, (∀ x ∈ list, x ∈ builds) ∧ list.map (fun x => x.cls.own) = owns := by
  induction owns with
  | nil => exact ⟨[], by simp, rfl⟩
  | cons x rest ih =>
    obtain ⟨a, ha, rfl⟩ := h x List.mem_cons_self
    obtain ⟨A, hA, rfl⟩ := List.mem_map.mp ha
    obtain ⟨list, hlist, rfl⟩ := ih fun x hx => h x (List.mem_cons_of_mem _ hx)
    refine ⟨A :: list, fun y hy => ?_, rfl⟩
    rcases List.mem_cons.mp hy with rfl | hy
    · exact hA
    · exact hlist y hy

theorem exists_above (h : Record builds) (hB : B ∈ builds) : ∃ above, Above builds B above := by
  obtain ⟨above, hmem, hown⟩ := exists_map_own_eq fun x hx =>
    let ⟨a, ha, hax, _⟩ := h.history.exists_own_of_mem_ancestors (cls_mem hB) hx
    ⟨a, ha, hax⟩
  exact ⟨above, hmem, hown⟩

namespace Above

variable {above : List Build}

/-- The class's lineage is its own part and those of its ancestors. -/
theorem map_own_cons (ha : Above builds B above) :
    (B :: above).map (fun x => x.cls.own) = B.cls.lineage :=
  congrArg (B.cls.own :: ·) ha.own_eq

theorem mem_cons (ha : Above builds B above) (hB : B ∈ builds) : ∀ x ∈ B :: above, x ∈ builds := by
  intro x hx
  rcases List.mem_cons.mp hx with rfl | hx
  · exact hB
  · exact ha.mem x hx

theorem own_mem_iff (ha : Above builds B above) (h : Record builds) (hA : A ∈ builds) :
    A.cls.own ∈ B.cls.ancestors ↔ A ∈ above := by
  rw [← ha.own_eq, List.mem_map]
  constructor
  · rintro ⟨x, hx, hown⟩
    exact h.eq_of_own_eq (ha.mem x hx) hA hown ▸ hx
  · exact fun hA => ⟨A, hA, rfl⟩

theorem own_mem_lineage_iff (ha : Above builds B above) (h : Record builds) (hB : B ∈ builds)
    (hA : A ∈ builds) : A.cls.own ∈ B.cls.lineage ↔ A ∈ B :: above := by
  rw [Shape.mem_lineage, ha.own_mem_iff h hA, List.mem_cons]
  exact or_congr_left ⟨h.eq_of_own_eq hA hB, fun hAB => hAB ▸ rfl⟩

/-- What some class of the lineage has, some build of it has. -/
theorem exists_lineage_iff (ha : Above builds B above) (h : Record builds) (hB : B ∈ builds)
    {P : Build → Prop} :
    (∃ x ∈ builds, x.cls.own ∈ B.cls.lineage ∧ P x) ↔ ∃ x ∈ B :: above, P x := by
  constructor
  · rintro ⟨x, hx, hown, hP⟩
    exact ⟨x, (ha.own_mem_lineage_iff h hB hx).mp hown, hP⟩
  · rintro ⟨x, hx, hP⟩
    have hmem := ha.mem_cons hB x hx
    exact ⟨x, hmem, (ha.own_mem_lineage_iff h hB hmem).mpr hx, hP⟩

/-- They are the builds that one or more direct-base steps lead to. -/
theorem mem_iff_ancestor (ha : Above builds B above) (h : Record builds) (hB : B ∈ builds)
    (hA : A ∈ builds) : A ∈ above ↔ Ancestor (builds.map Build.cls) B.cls A.cls :=
  (ha.own_mem_iff h hA).symm.trans (h.history.own_mem_ancestors_iff (cls_mem hB) (cls_mem hA))

end Above

end Record

/-- Every history is that of a record. -/
theorem History.exists_record {classes : List Class} (h : History classes) :
    ∃ builds, Record builds ∧ builds.map Build.cls = classes := by
  induction h with
  | start => exact ⟨[], .start, rfl⟩
  | @build classes d c _ hbases hdef ih =>
    obtain ⟨builds, hrecord, rfl⟩ := ih
    exact ⟨⟨d, c⟩ :: builds, hrecord.build hbases (by rwa [List.length_map] at hdef), rfl⟩

end MethodGuard
