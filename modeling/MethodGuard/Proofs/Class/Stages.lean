/-
# The order of a class's own checks

A class statement may declare checks of its own, the stages.  A class takes over the stages of its
direct bases, base by base, leaves out those it has already, and puts its own ones last.  It does
not look at the resolution order, and two classes may have the stages of two common ancestors in
different orders.

What every class has all the same is `Staged`: the stages of its lineage, each once, and none before
those that it builds on.  The invariant that building keeps is `Precedes`: wherever a stage occurs,
the stages that have to come earlier have occurred before.  It survives putting the lists of the
bases one after the other, because it holds for a stage in each of the lists that have it; and it
survives leaving out repetitions, because first occurrences are what it is about.
-/
import MethodGuard.Proofs.Class.Meaning
import MethodGuard.Proofs.Structure.SelfCheck

namespace MethodGuard

/-! ## 1. Having occurred before -/

section Precedence

variable {α : Type u} {list more : List α} {x y : α}

/-- **Wherever `x` occurs in the list, `y` has occurred before.** -/
def Precedes (list : List α) (y x : α) : Prop :=
  ∀ before after, list = before ++ x :: after → y ∈ before

theorem precedes_of_not_mem (h : x ∉ list) : Precedes list y x := by
  rintro before after rfl
  exact absurd (List.mem_append_right before List.mem_cons_self) h

/-- An element that a list does not have is preceded by all its elements in what comes after. -/
theorem precedes_append_of_mem (hy : y ∈ list) (hx : x ∉ list) : Precedes (list ++ more) y x := by
  intro before after hsplit
  rcases List.append_eq_append_iff.mp hsplit with ⟨between, rfl, -⟩ | ⟨between, rfl, hmore⟩
  · exact List.mem_append_left between hy
  · cases between with
    | nil => rwa [List.append_nil] at hy
    | cons z between =>
      obtain rfl := (List.cons.inj hmore).1
      exact absurd (List.mem_append_right before List.mem_cons_self) hx

namespace Precedes

theorem append (h : Precedes list y x) (hmore : Precedes more y x) :
    Precedes (list ++ more) y x := by
  intro before after hsplit
  rcases List.append_eq_append_iff.mp hsplit with ⟨between, rfl, hrest⟩ | ⟨between, rfl, hrest⟩
  · exact List.mem_append_right list (hmore between after hrest)
  · cases between with
    | nil => cases hmore [] after hrest.symm
    | cons z between =>
      obtain rfl := (List.cons.inj hrest).1
      exact h before between rfl

theorem flatMap {β : Type v} {f : β → List α} {sources : List β}
    (h : ∀ b ∈ sources, Precedes (f b) y x) : Precedes (sources.flatMap f) y x := by
  induction sources with
  | nil => exact precedes_of_not_mem List.not_mem_nil
  | cons b rest ih =>
    obtain ⟨hb, hrest⟩ := List.forall_mem_cons.mp h
    rw [List.flatMap_cons]
    exact hb.append (ih hrest)

/-- What precedes may be what is kept of a list. -/
theorem filter {p : α → Bool} (h : Precedes list y x) (hp : p y = true) :
    Precedes (list.filter p) y x := by
  intro before after hsplit
  obtain ⟨before', rest, rfl, hbefore, hrest⟩ := List.filter_eq_append_iff.mp hsplit
  obtain ⟨skipped, after', rfl, hskipped, -, -⟩ := List.filter_eq_cons_iff.mp hrest
  have hy : y ∈ before' ++ skipped := h (before' ++ skipped) after' (by rw [List.append_assoc])
  rcases List.mem_append.mp hy with hy | hy
  · rw [← hbefore]
    exact List.mem_filter.mpr ⟨hy, hp⟩
  · exact absurd hp (hskipped y hy)

/-- **First occurrences keep what precedes what**, where keys tell that element from others. -/
theorem firstByKey {κ : Type v} [DecidableEq κ] {key : α → κ} (h : Precedes list y x)
    (hkey : ∀ z ∈ list, key z = key y → z = y) : Precedes (firstByKey key list) y x := by
  induction list with
  | nil => exact h
  | cons z rest ih =>
    have hzx : x ∉ [z] := by
      intro hx
      obtain rfl := List.mem_singleton.mp hx
      cases h [] rest rfl
    rw [MethodGuard.firstByKey]
    by_cases hzy : z = y
    · exact precedes_append_of_mem (List.mem_singleton.mpr hzy.symm) hzx
    · have hrest : Precedes rest y x := by
        rintro before after rfl
        exact (List.mem_cons.mp (h (z :: before) after rfl)).resolve_left (Ne.symm hzy)
      have hfirst := ih hrest fun w hw => hkey w (List.mem_cons_of_mem z hw)
      have hkept : key y ≠ key z := fun heq => hzy (hkey z List.mem_cons_self heq.symm)
      exact (precedes_of_not_mem hzx).append (hfirst.filter (decide_eq_true hkept))

theorem sublist (h : Precedes list y x) (hx : x ∈ list) : [y, x].Sublist list := by
  obtain ⟨before, after, rfl⟩ := List.append_of_mem hx
  have hy : [y].Sublist before := List.singleton_sublist.mpr (h before after rfl)
  exact hy.append (List.singleton_sublist.mpr List.mem_cons_self)

end Precedes

/-- Elements each of which precedes all later ones are part of the list, in their order. -/
theorem sublist_of_pairwise_precedes {inner : List α} (hmem : ∀ x ∈ inner, x ∈ list)
    (h : inner.Pairwise (Precedes list)) : inner.Sublist list := by
  induction inner generalizing list with
  | nil => exact List.nil_sublist list
  | cons x rest ih =>
    obtain ⟨hx, hrest⟩ := List.pairwise_cons.mp h
    -- `x` is put at its first occurrence, so that all that it precedes comes after
    obtain ⟨before, after, rfl, hfirst⟩ := List.eq_append_cons_of_mem (hmem x List.mem_cons_self)
    have hnot : ∀ z ∈ rest, z ∉ before ∧ z ≠ x := by
      refine fun z hz => ⟨fun hbefore => ?_, ?_⟩
      · obtain ⟨early, late, rfl⟩ := List.append_of_mem hbefore
        have hearly : x ∈ early := hx z hz early (late ++ x :: after) (by simp)
        exact hfirst (List.mem_append_left _ hearly)
      · rintro rfl
        exact hfirst (hx z hz before after rfl)
    have hlater : ∀ z ∈ rest, ∀ tail, z ∈ before ++ x :: tail → z ∈ tail := by
      intro z hz tail hwhole
      obtain ⟨hbefore, hne⟩ := hnot z hz
      exact (List.mem_cons.mp ((List.mem_append.mp hwhole).resolve_left hbefore)).resolve_left hne
    have hafter : ∀ z ∈ rest, z ∈ after := fun z hz =>
      hlater z hz after (hmem z (List.mem_cons_of_mem x hz))
    have hpairs : rest.Pairwise (Precedes after) := by
      refine hrest.imp_of_mem fun {z w} hz _ hzw early late hsplit => ?_
      exact hlater z hz early (hzw (before ++ x :: early) late (by simp [hsplit]))
    exact ((ih hafter hpairs).cons_cons x).trans (List.sublist_append_right before _)

/-- Where nothing repeats, an element precedes the later ones. -/
theorem pairwise_precedes_of_nodup (h : list.Nodup) : list.Pairwise (Precedes list) := by
  induction list with
  | nil => exact .nil
  | cons x rest ih =>
    obtain ⟨hx, hrest⟩ := List.nodup_cons.mp h
    refine List.pairwise_cons.mpr ⟨fun y hy => ?_, (ih hrest).imp_of_mem fun {y z} hy hz hyz => ?_⟩
    · have hyx : y ∉ [x] := fun hyx => hx (List.mem_singleton.mp hyx ▸ hy)
      exact precedes_append_of_mem (List.mem_singleton_self x) hyx
    · have hzx : z ∉ [x] := fun hzx => hx (List.mem_singleton.mp hzx ▸ hz)
      exact (precedes_of_not_mem hzx).append hyz

end Precedence

/-! ## 2. Stages and the statements that declare them -/

/-- The stages of a statement have the class's identity, and each has its place. -/
theorem Definition.map_key_stages (d : Definition) (id : ClassId) : (d.stages id).map Stage.key =
    (List.range (d.body.filterMap Entry.check?).length).map (Prod.mk id) := by
  rw [Definition.stages, List.map_map, List.range_eq_range', ← List.zipIdx_map_snd, List.map_map]
  rfl

theorem Definition.nodup_keys_stages (d : Definition) (id : ClassId) :
    ((d.stages id).map Stage.key).Nodup := by
  rw [Definition.map_key_stages]
  exact List.nodup_range.map fun _ _ h => (Prod.mk.inj h).2

theorem Definition.declaredBy_of_mem_stages {d : Definition} {id : ClassId} {x : Stage}
    (h : x ∈ d.stages id) : x.declaredBy = id := by
  obtain ⟨_, -, rfl⟩ := List.mem_map.mp h
  rfl

/-- The stages that the body of a class declares, in order. -/
def Build.declared (B : Build) : List Stage := B.statement.stages B.cls.id

namespace Record

variable {builds : List Build} {A B : Build} {above : List Build} {x y : Stage}

/-- A stage tells the statement that declares it. -/
theorem eq_of_mem_declared (h : Record builds) (hA : A ∈ builds) (hB : B ∈ builds)
    (hx : x ∈ A.declared) (hy : y ∈ B.declared) (hsame : x.declaredBy = y.declaredBy) : A = B := by
  have hid : A.cls.id = B.cls.id := by
    rw [← Definition.declaredBy_of_mem_stages hx, ← Definition.declaredBy_of_mem_stages hy, hsame]
  exact List.inj_on_of_nodup_map h.nodup_ids hA hB hid

/-- **Stages of a record are told apart by their keys.** -/
theorem eq_of_key_eq (h : Record builds) (hA : A ∈ builds) (hB : B ∈ builds)
    (hx : x ∈ A.declared) (hy : y ∈ B.declared) (hkey : x.key = y.key) : x = y := by
  obtain rfl := h.eq_of_mem_declared hA hB hx hy (congrArg Prod.fst hkey)
  exact List.inj_on_of_nodup_map (A.statement.nodup_keys_stages A.cls.id) hx hy hkey

/-- One step of the gathering. -/
theorem stages_eq (h : Record builds) (hB : B ∈ builds) : B.cls.stages =
    firstByKey Stage.key (B.statement.bases.flatMap (fun b => b.stages) ++ B.declared) := by
  conv_lhs => rw [(h.builtFrom hB).eq_ofDefinition.2]
  rfl

/-- No class has a stage twice. -/
theorem nodup_keys_stages (h : Record builds) (hB : B ∈ builds) :
    (B.cls.stages.map Stage.key).Nodup := by
  rw [h.stages_eq hB]
  exact nodup_keys_firstByKey Stage.key _

/-- Some statement of the lineage declares the stage. -/
def DeclaredAlong (builds : List Build) (c : Class) (x : Stage) : Prop :=
  ∃ D ∈ builds, D.cls.own ∈ c.lineage ∧ x ∈ D.declared

theorem DeclaredAlong.eq_of_key_eq (h : Record builds) {c c' : Class}
    (hx : DeclaredAlong builds c x) (hy : DeclaredAlong builds c' y) (hkey : x.key = y.key) :
    x = y := by
  obtain ⟨_, hD, -, hx⟩ := hx
  obtain ⟨_, hE, -, hy⟩ := hy
  exact h.eq_of_key_eq hD hE hx hy hkey

/-- What a class puts together is what its lineage declares, if it is so for its bases. -/
theorem mem_gathered_iff_of_bases (h : Record builds) (hB : B ∈ builds)
    (hbases : ∀ b ∈ B.statement.bases, x ∈ b.stages ↔ DeclaredAlong builds b x) :
    x ∈ B.statement.bases.flatMap (fun b => b.stages) ++ B.declared ↔
      DeclaredAlong builds B.cls x := by
  rw [DeclaredAlong, h.exists_lineage_iff hB, List.mem_append, List.mem_flatMap]
  exact or_congr_left (exists_congr fun b => and_congr_right fun hb => hbases b hb)

/-- **No stage is lost and none is made up**, by induction along the record. -/
theorem mem_stages_iff_along (h : Record builds) : ∀ B ∈ builds, ∀ x,
    x ∈ B.cls.stages ↔ DeclaredAlong builds B.cls x := by
  refine h.induction (P := fun c => ∀ x, x ∈ c.stages ↔ DeclaredAlong builds c x) ?_
  intro B hB ih x
  have hgathered (x : Stage) := h.mem_gathered_iff_of_bases hB fun b hb => ih b hb x
  rw [h.stages_eq hB, mem_firstByKey_iff, hgathered]
  intro x hx y hy hkey
  exact ((hgathered x).mp hx).eq_of_key_eq h ((hgathered y).mp hy) hkey

theorem mem_base_stages_iff (h : Record builds) (hB : B ∈ builds) {b : Class}
    (hb : b ∈ B.statement.bases) : x ∈ b.stages ↔ DeclaredAlong builds b x := by
  obtain ⟨A, hA, rfl⟩ := List.mem_map.mp ((h.builtFrom hB).bases_mem b hb)
  exact h.mem_stages_iff_along A hA x

/-- What a class declares is new in it. -/
theorem not_mem_bases_of_declared (h : Record builds) (hB : B ∈ builds) (hx : x ∈ B.declared) :
    x ∉ B.statement.bases.flatMap (fun b => b.stages) := by
  intro hinherited
  obtain ⟨b, hb, hxb⟩ := List.mem_flatMap.mp hinherited
  obtain ⟨D, hD, hown, hxD⟩ := (h.mem_base_stages_iff hB hb).mp hxb
  obtain rfl := h.eq_of_mem_declared hD hB hxD hx rfl
  have hsub := h.history.lineage_sublist_of_mem_bases (h.builtFrom hB) hb
  have hnodup := h.history.lineage_ids_nodup (cls_mem hB)
  rw [Shape.lineage, List.map_cons, List.nodup_cons] at hnodup
  exact hnodup.1 (List.mem_map_of_mem (hsub.subset hown))

/-! ## 3. What has to come earlier -/

/-- **The one stage has to come before the other**: an ancestor declares it, or the same statement
declares it earlier. -/
inductive Earlier (builds : List Build) (y x : Stage) : Prop where
  | inherited {D E : Build} : D ∈ builds → E ∈ builds →
      Ancestor (builds.map Build.cls) D.cls E.cls → x ∈ D.declared → y ∈ E.declared →
      Earlier builds y x
  | own {D : Build} : D ∈ builds → x ∈ D.declared → y ∈ D.declared → Precedes D.declared y x →
      Earlier builds y x

/-- **Every class keeps to it.**  The induction is along the record; a stage of the class itself is
new, so that all that the bases have precedes it. -/
theorem precedes_of_earlier (h : Record builds) : ∀ B ∈ builds, ∀ y x, Earlier builds y x →
    Precedes B.cls.stages y x := by
  refine h.induction (P := fun c => ∀ y x, Earlier builds y x → Precedes c.stages y x) ?_
  intro B hB ih y x hearlier
  have hbases : Precedes (B.statement.bases.flatMap (fun b => b.stages)) y x :=
    Precedes.flatMap fun b hb => ih b hb y x hearlier
  have hgathered : Precedes (B.statement.bases.flatMap (fun b => b.stages) ++ B.declared) y x := by
    by_cases hx : x ∈ B.declared
    · cases hearlier with
      | @inherited D E hD hE hanc hxD hy =>
        obtain rfl := h.eq_of_mem_declared hD hB hxD hx rfl
        have hown : E.cls.own ∈ D.cls.ancestors :=
          (h.history.own_mem_ancestors_iff (cls_mem hD) (cls_mem hE)).mpr hanc
        have hinherited : y ∈ D.statement.bases.flatMap (fun b => b.stages) := by
          obtain ⟨b, hb, hEb⟩ := (h.builtFrom hD).exists_base_of_mem_ancestors hown
          exact List.mem_flatMap.mpr ⟨b, hb, (h.mem_base_stages_iff hB hb).mpr ⟨E, hE, hEb, hy⟩⟩
        exact precedes_append_of_mem hinherited (h.not_mem_bases_of_declared hB hx)
      | own hD hxD _ hprecedes =>
        obtain rfl := h.eq_of_mem_declared hD hB hxD hx rfl
        exact hbases.append hprecedes
    · exact hbases.append (precedes_of_not_mem hx)
  rw [h.stages_eq hB]
  refine hgathered.firstByKey fun z hz hkey => ?_
  obtain ⟨C, hC, -, hzC⟩ :=
    (h.mem_gathered_iff_of_bases hB fun b hb => h.mem_base_stages_iff hB hb).mp hz
  cases hearlier with
  | inherited _ hE _ _ hy => exact h.eq_of_key_eq hC hE hzC hy hkey
  | own hD _ hy _ => exact h.eq_of_key_eq hC hD hzC hy hkey

end Record

/-! ## 4. Running stages -/

namespace Pipeline

variable {s : Shape}

theorem findings_append_events (first second : Pipeline) :
    (findings s (first ++ second)).events =
      (findings s first).events ++ (findings s second).events := by
  induction first with
  | nil => rfl
  | cons check rest ih => simp only [List.cons_append, findings, ih, List.append_assoc]

/-- A report on stages is what they have to say, stage by stage. -/
theorem findings_stages (stages : List Stage) : findings s (stages.map (·.check)) =
    ⟨stages.flatMap fun x => (problems (x.check.run s).value).map fun e => (x.check.name, e),
      stages.flatMap fun x => (x.check.run s).events⟩ := by
  induction stages with
  | nil => rfl
  | cons x rest ih =>
    rw [List.map_cons, findings, ih, List.flatMap_cons, List.flatMap_cons]

/-- The standard checks leave no records. -/
theorem events_of_mem_standard {check : Check} (h : check ∈ Check.standard) :
    (check.run s).events = [] := by
  simp only [Check.standard, List.mem_cons, List.not_mem_nil, or_false] at h
  rcases h with rfl | rfl | rfl <;> rfl

theorem findings_events_eq_nil {checks : Pipeline}
    (h : ∀ check ∈ checks, (check.run s).events = []) : (findings s checks).events = [] := by
  induction checks with
  | nil => rfl
  | cons check rest ih =>
    obtain ⟨hcheck, hrest⟩ := List.forall_mem_cons.mp h
    rw [findings, hcheck, ih hrest, List.append_nil]

/-- **Further checks wait for the first ones**: a problem of the first ones ends the run, and without
one the run is that of the further checks. -/
theorem ensure_append {first : Pipeline} (more : Pipeline)
    (h : ∀ check ∈ first, (check.run s).events = []) :
    (∀ e, (ensure s first).value = .error e → ensure s (first ++ more) = ⟨.error e, []⟩) ∧
      ((ensure s first).value = .ok () → ensure s (first ++ more) = ensure s more) := by
  induction first with
  | nil =>
    refine ⟨fun e he => ?_, fun _ => rfl⟩
    cases he
  | cons check rest ih =>
    obtain ⟨hcheck, hrest⟩ := List.forall_mem_cons.mp h
    rw [List.cons_append, ensure, ensure]
    cases hfound : problems (check.run s).value with
    | nil =>
      simp only [hcheck, Traced.after, List.nil_append]
      exact ih hrest
    | cons e errors =>
      simp only [hcheck]
      refine ⟨fun e' he' => ?_, fun hpassed => ?_⟩
      · cases he'
        rfl
      · cases hpassed

/-- A run that finds no problem has run every check. -/
theorem events_ensure_of_ok {checks : Pipeline} (h : (ensure s checks).value = .ok ()) :
    (ensure s checks).events =
      checks.flatMap (fun check => (check.run s).events) ++ [.methodsOk s.name] := by
  induction checks with
  | nil => rfl
  | cons check rest ih =>
    rw [ensure] at h ⊢
    cases hfound : problems (check.run s).value with
    | nil =>
      simp only [hfound] at h ⊢
      rw [Traced.after, ih h, List.flatMap_cons, List.append_assoc]
    | cons e errors =>
      simp only [hfound] at h
      cases h

end Pipeline

/-! ## 5. A diamond with stages -/

namespace Layered

/-- A check that passes every class. -/
def check (name : String) : Check := .scripted name (.ok ()) none

def rootStatement : Definition := ⟨"Root", [], [.check (check "root")]⟩
def root : Class := .ofDefinition rootStatement 0 []

def leftStatement : Definition := ⟨"Left", [root], [.check (check "left")]⟩
def left : Class := .ofDefinition leftStatement 1 [root.own]

def rightStatement : Definition := ⟨"Right", [root], [.check (check "right")]⟩
def right : Class := .ofDefinition rightStatement 2 [root.own]

def leafStatement : Definition := ⟨"Leaf", [left, right], [.check (check "leaf")]⟩
def leaf : Class := .ofDefinition leafStatement 3 [left.own, right.own, root.own]

def builds : List Build :=
  [⟨leafStatement, leaf⟩, ⟨rightStatement, right⟩, ⟨leftStatement, left⟩, ⟨rootStatement, root⟩]

theorem builds_record : Record builds := by
  have hroot : Class.define 0 rootStatement = .ok root := Class.define_eq_ok_iff.mpr
    ⟨by decide, by decide, rfl, [], Linearization.merge?_of_isEmpty _ rfl, rfl⟩
  have hleft : Class.define 1 leftStatement = .ok left := Class.define_eq_ok_iff.mpr
    ⟨by decide, by decide, rfl, _, Definition.ancestors?_of_root rfl rfl, rfl⟩
  have hright : Class.define 2 rightStatement = .ok right := Class.define_eq_ok_iff.mpr
    ⟨by decide, by decide, rfl, _, Definition.ancestors?_of_root rfl rfl, rfl⟩
  have hleaf : Class.define 3 leafStatement = .ok leaf := Class.define_eq_ok_iff.mpr
    ⟨by decide, by decide, rfl, _,
      Definition.ancestors?_of_diamond rfl rfl rfl (by decide) (by decide) (by decide), rfl⟩
  exact (((Record.start.build (by simp [rootStatement]) hroot).build
    (by simp [leftStatement]) hleft).build (by simp [rightStatement]) hright).build
    (by simp [leafStatement]) hleaf

end Layered

/-! ## 6. The whole -/

namespace Record

variable {builds : List Build} {B : Build} {above : List Build}

/-- **What the stages of a class should be**, in terms of what its statement and those of its
ancestors declare.  `above` are the builds of its ancestors. -/
structure Staged (builds : List Build) (B : Build) (above : List Build) : Prop where
  /-- No stage is listed twice. -/
  once : (B.cls.stages.map Stage.key).Nodup
  /-- The stages are those that the lineage declares. -/
  declared : ∀ x, x ∈ B.cls.stages ↔ ∃ D ∈ B :: above, x ∈ D.declared
  /-- What an ancestor of a class of the lineage declares comes before what this class declares. -/
  ancestors_first : ∀ D ∈ B :: above, ∀ E ∈ builds,
    Ancestor (builds.map Build.cls) D.cls E.cls → ∀ x ∈ D.declared, ∀ y ∈ E.declared,
      [y, x].Sublist B.cls.stages
  /-- The stages of one statement keep their order. -/
  own_order : ∀ D ∈ B :: above, D.declared.Sublist B.cls.stages
  /-- The first base's stages come first, in its order. -/
  first_base : ∀ b, B.statement.bases.head? = some b → b.stages <+: B.cls.stages
  /-- A report runs the standard checks and then every stage once, in this order. -/
  reported : ∀ s, Pipeline.findings s B.cls.pipeline =
    ⟨(Pipeline.findings s Check.standard).value ++ B.cls.stages.flatMap fun x =>
        (Pipeline.problems (x.check.run s).value).map fun e => (x.check.name, e),
      B.cls.stages.flatMap fun x => (x.check.run s).events⟩
  /-- Up to the first problem it is the same: no stage is run before the standard checks have
  passed. -/
  ensured : ∀ s,
    (∀ e, (Pipeline.ensure s Check.standard).value = .error e →
      Pipeline.ensure s B.cls.pipeline = ⟨.error e, []⟩) ∧
    ((Pipeline.ensure s Check.standard).value = .ok () →
      Pipeline.ensure s B.cls.pipeline = Pipeline.ensure s (B.cls.stages.map (·.check)))
  /-- Without a problem, every stage has been run once. -/
  passed : ∀ s, (Pipeline.ensure s B.cls.pipeline).value = .ok () →
    (Pipeline.ensure s B.cls.pipeline).events =
      B.cls.stages.flatMap (fun x => (x.check.run s).events) ++ [.methodsOk s.name]

/-- **Stages are inherited once, and ancestors' stages come first**, in every class of every
record. -/
theorem exists_staged (h : Record builds) (hB : B ∈ builds) :
    ∃ above, Above builds B above ∧ Staged builds B above := by
  obtain ⟨above, ha⟩ := h.exists_above hB
  have hdeclared (x : Stage) : x ∈ B.cls.stages ↔ ∃ D ∈ B :: above, x ∈ D.declared :=
    (h.mem_stages_iff_along B hB x).trans (ha.exists_lineage_iff h hB)
  refine ⟨above, ha, {
    once := h.nodup_keys_stages hB
    declared := hdeclared
    ancestors_first := fun D hD E hE hanc x hx y hy => ?_
    own_order := fun D hD => ?_
    first_base := fun b hb => ?_
    reported := fun s => ?_
    ensured := fun s => Pipeline.ensure_append _ fun _ => Pipeline.events_of_mem_standard
    passed := fun s hpassed => ?_ }⟩
  · have hearlier : Earlier builds y x := .inherited (ha.mem_cons hB D hD) hE hanc hx hy
    exact (h.precedes_of_earlier B hB y x hearlier).sublist ((hdeclared x).mpr ⟨D, hD, hx⟩)
  · have hmem := ha.mem_cons hB D hD
    have hnodup := (D.statement.nodup_keys_stages D.cls.id).of_map Stage.key
    refine sublist_of_pairwise_precedes (fun x hx => (hdeclared x).mpr ⟨D, hD, hx⟩) ?_
    refine (pairwise_precedes_of_nodup hnodup).imp_of_mem fun {y x} hy hx hyx => ?_
    exact h.precedes_of_earlier B hB y x (.own hmem hx hy hyx)
  · obtain ⟨rest, hrest⟩ := List.head?_eq_some_iff.mp hb
    have hmem : b ∈ B.statement.bases := hrest ▸ List.mem_cons_self
    obtain ⟨A, hA, rfl⟩ := List.mem_map.mp ((h.builtFrom hB).bases_mem b hmem)
    rw [h.stages_eq hB, hrest, List.flatMap_cons, List.append_assoc]
    exact prefix_firstByKey_append _ (h.nodup_keys_stages hA) _
  · have hvalue := Pipeline.findings_append (s := s) Check.standard (B.cls.stages.map (·.check))
    have hevents :=
      Pipeline.findings_append_events (s := s) Check.standard (B.cls.stages.map (·.check))
    rw [Pipeline.findings_events_eq_nil fun _ => Pipeline.events_of_mem_standard] at hevents
    rw [Pipeline.findings_stages] at hvalue hevents
    exact congrArg₂ Traced.mk hvalue hevents
  · have hstandard : Check.standard.flatMap (fun check => (check.run s).events) = [] :=
      List.flatMap_eq_nil_iff.mpr fun _ => Pipeline.events_of_mem_standard
    rw [Pipeline.events_ensure_of_ok hpassed, Class.pipeline, List.flatMap_append, hstandard,
      List.nil_append, List.flatMap_map]

/-- The leaf of the diamond, which has the root's stage from both sides. -/
theorem exists_staged_leaf :
    (Record Layered.builds ∧ ⟨Layered.leafStatement, Layered.leaf⟩ ∈ Layered.builds) ∧
    ∃ above, Above Layered.builds ⟨Layered.leafStatement, Layered.leaf⟩ above ∧
      Staged Layered.builds ⟨Layered.leafStatement, Layered.leaf⟩ above :=
  ⟨⟨Layered.builds_record, List.mem_cons_self⟩,
    Layered.builds_record.exists_staged List.mem_cons_self⟩

/-- The root's stage comes first, and once. -/
example : Layered.leaf.stages.map (·.check.name) = ["root", "left", "right", "leaf"] := rfl

end Record

end MethodGuard
