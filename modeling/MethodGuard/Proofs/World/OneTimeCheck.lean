/-
# The structural check is passed once

Whatever clients do, in whatever order and however their constructions overlap, a class counts as
checked exactly when it has been admitted after passing its check at some turn, and there is one
such turn at most (`Clients.OneTimeCheck`).  Stages may answer differently at every turn: what
counts is the turn at which the check was run, and no check is run after it was passed.

One turn marks a class by a check of that very class and in no other way.  From this a run keeps
that the marked classes are those with such a turn in its log (`Clients.Valid.step`), and so being
marked can be told from the log.
-/
import MethodGuard.Proofs.World.Turns

namespace MethodGuard

/-! ## 1. The turns at which a class passes -/

/-- At turn `t` of the run the class was admitted after its check was run and passed. -/
def PassedAt (answers : Nat → Answers) (log : Log) (c : Class) (t : Nat) : Prop :=
  ∃ entry, log[t]? = some entry ∧ SelfChecked (answers t) c entry

theorem getElem?_concat_eq_some_iff {α : Type u} {list : List α} {x y : α} {i : Nat} :
    (list ++ [x])[i]? = some y ↔ list[i]? = some y ∨ i = list.length ∧ x = y := by
  rcases Nat.lt_trichotomy i list.length with hlt | rfl | hgt
  · rw [List.getElem?_append_left hlt]
    simp [Nat.ne_of_lt hlt]
  · simp
  · rw [List.getElem?_append_right (Nat.le_of_lt hgt), List.getElem?_eq_none (Nat.le_of_lt hgt)]
    have hne : i ≠ list.length := Nat.ne_of_gt hgt
    have hpos : i - list.length ≠ 0 := by omega
    simp [hne, hpos]

section Passed

variable {answers : Nat → Answers} {log : Log} {entry : Turn × List Event} {c : Class} {t : Nat}

theorem PassedAt.lt_length (h : PassedAt answers log c t) : t < log.length := by
  obtain ⟨entry, hentry, -⟩ := h
  exact (List.getElem?_eq_some_iff.mp hentry).1

/-- A further turn is one more at which the class may pass. -/
theorem passedAt_concat_iff : PassedAt answers (log ++ [entry]) c t ↔
    PassedAt answers log c t ∨ t = log.length ∧ SelfChecked (answers log.length) c entry := by
  simp only [PassedAt, getElem?_concat_eq_some_iff]
  constructor
  · rintro ⟨found, hfound | ⟨rfl, rfl⟩, hchecked⟩
    · exact Or.inl ⟨found, hfound, hchecked⟩
    · exact Or.inr ⟨rfl, hchecked⟩
  · rintro (⟨found, hfound, hchecked⟩ | ⟨rfl, hchecked⟩)
    · exact ⟨found, Or.inl hfound, hchecked⟩
    · exact ⟨entry, Or.inr ⟨rfl, rfl⟩, hchecked⟩

theorem exists_passedAt_concat_iff : (∃ t, PassedAt answers (log ++ [entry]) c t) ↔
    (∃ t, PassedAt answers log c t) ∨ SelfChecked (answers log.length) c entry := by
  simp only [passedAt_concat_iff, exists_or, exists_eq_left]

/-- Further turns do not change what had been passed before. -/
theorem exists_passedAt_lt_concat_iff (ht : t ≤ log.length) :
    (∃ t' < t, PassedAt answers (log ++ [entry]) c t') ↔ ∃ t' < t, PassedAt answers log c t' := by
  refine exists_congr fun t' => and_congr_right fun hlt => ?_
  rw [passedAt_concat_iff, or_iff_left]
  rintro ⟨rfl, -⟩
  exact absurd ht (Nat.not_le_of_lt hlt)

end Passed

/-! ## 2. The invariant -/

namespace Clients

/-- **What holds of every run of clients**, of its state and of its log. -/
structure Valid (answers : Nat → Answers) (log : Log) (K : Clients) : Prop where
  sound : K.Sound
  /-- Only built classes are asked for. -/
  known : ∀ c a answer events, (Turn.request c a answer, events) ∈ log → c ∈ K.classes
  /-- The marked classes are those that have passed at some turn. -/
  checked : ∀ id, id ∈ K.world.checked ↔ ∃ x, x.id = id ∧ ∃ t, PassedAt answers log x t
  /-- Every answer is as it should be, given the turns before. -/
  admissions : ∀ t c a answer events, log[t]? = some (.request c a answer, events) →
    Admission (answers t) c (∃ t' < t, PassedAt answers log c t') answer events
  /-- Initializers are run only of classes that have passed before. -/
  initialized : ∀ t c a events, log[t]? = some (.initializer c a, events) →
    ∃ t' < t, PassedAt answers log c t'

variable {answers : Nat → Answers} {log : Log} {K K' : Clients} {turn : Turn}
  {events : List Event} {c : Class}

theorem valid_initial (answers : Nat → Answers) : Valid answers [] initial where
  sound := sound_initial
  known := fun _ _ _ _ hmem => nomatch hmem
  checked := fun id => by simp [initial, Session.initial, World.initial, PassedAt]
  admissions := fun _ _ _ _ _ hentry => nomatch hentry
  initialized := fun _ _ _ _ hentry => nomatch hentry

namespace Valid

theorem mem_of_passedAt (h : Valid answers log K) {t : Nat} (hc : PassedAt answers log c t) :
    c ∈ K.classes := by
  obtain ⟨entry, hentry, ⟨a, rfl⟩, -, -⟩ := hc
  exact h.known _ _ _ _ (List.mem_of_getElem? hentry)

/-- **A built class is marked exactly when it has passed at some turn.** -/
theorem isChecked_iff (h : Valid answers log K) (hc : c ∈ K.classes) :
    K.world.isChecked c = true ↔ ∃ t, PassedAt answers log c t := by
  rw [World.isChecked_iff, h.checked]
  constructor
  · rintro ⟨x, hid, t, hx⟩
    exact h.sound.founded.history.eq_of_id_eq (h.mem_of_passedAt hx) hc hid ▸ ⟨t, hx⟩
  · exact fun hpassed => ⟨c, rfl, hpassed⟩

/-- Before a further turn, being marked is having passed at an earlier turn. -/
theorem isChecked_iff_lt (h : Valid answers log K) (hc : c ∈ K.classes)
    (entry : Turn × List Event) : K.world.isChecked c = true ↔
      ∃ t' < log.length, PassedAt answers (log ++ [entry]) c t' := by
  rw [h.isChecked_iff hc, exists_passedAt_lt_concat_iff (Nat.le_refl _)]
  exact ⟨fun ⟨t, ht⟩ => ⟨t, ht.lt_length, ht⟩, fun ⟨t, _, ht⟩ => ⟨t, ht⟩⟩

/-- **Every turn keeps the invariant.** -/
theorem step (h : Valid answers log K) (hstep : Step (answers log.length) K turn events K') :
    Valid answers (log ++ [(turn, events)]) K' := by
  have hlater {t : Nat} (ht : t < log.length) (x : Class) :
      (∃ t' < t, PassedAt answers (log ++ [(turn, events)]) x t') ↔
        ∃ t' < t, PassedAt answers log x t' :=
    exists_passedAt_lt_concat_iff (Nat.le_of_lt ht)
  refine ⟨h.sound.step hstep, ?_, fun id => ?_, ?_, ?_⟩
  · intro c a answer events' hmem
    rcases List.mem_append.mp hmem with hold | hnew
    · exact hstep.classes_subset c (h.known c a answer events' hold)
    · cases List.mem_singleton.mp hnew
      cases hstep with
      | request hc => exact h.sound.mem_of_knows hc
  · rw [hstep.mem_checked_iff, h.checked]
    simp only [exists_passedAt_concat_iff, and_or_left, exists_or]
  · intro t c a answer events' hentry
    rcases getElem?_concat_eq_some_iff.mp hentry with hold | ⟨rfl, hnew⟩
    · have ht : t < log.length := (List.getElem?_eq_some_iff.mp hold).1
      exact (h.admissions t c a answer events' hold).congr (hlater ht c).symm
    · cases hnew
      cases hstep with
      | request hc =>
        have hmem := h.sound.mem_of_knows hc
        exact (K.world.admission c _).congr (h.isChecked_iff_lt hmem _)
  · intro t c a events' hentry
    rcases getElem?_concat_eq_some_iff.mp hentry with hold | ⟨rfl, hnew⟩
    · have ht : t < log.length := (List.getElem?_eq_some_iff.mp hold).1
      exact (hlater ht c).mpr (h.initialized t c a events' hold)
    · cases hnew
      cases hstep with
      | initializer hunder hr =>
        have hmem : (c, a) ∈ K.underWay := hunder ▸ List.mem_append_right _ List.mem_cons_self
        obtain ⟨hcls, -, hid⟩ := h.sound.underWay _ hmem
        exact (h.isChecked_iff_lt hcls _).mp (World.isChecked_iff.mpr hid)

end Valid

/-- **The invariant holds after every run.** -/
theorem Runs.valid (hrun : Runs answers log K) : Valid answers log K := by
  induction hrun with
  | start => exact valid_initial answers
  | step _ hstep ih => exact ih.step hstep

/-! ## 3. Records -/

/-- What the turn of an admission of the class itself has recorded of passed checks. -/
def okRecordsOf (c : Class) (entry : Turn × List Event) : List Event :=
  match entry.1 with
  | .request x _ _ => if x.id = c.id then entry.2.filter Event.isMethodsOk else []
  | _ => []

theorem okRecordsOf_request {x : Class} {a : Arguments} {answer : Except InstantiateError Unit} :
    okRecordsOf c (.request x a answer, events) =
      if x.id = c.id then events.filter Event.isMethodsOk else [] := rfl

/-- What all admissions of the class have recorded of passed checks. -/
def okRecords (c : Class) (log : Log) : List Event := log.flatMap (okRecordsOf c)

/-- Who is asked for is known, and is answered as should be. -/
theorem Step.admission {answers : Answers} {a : Arguments} {answer : Except InstantiateError Unit}
    (hstep : Step answers K (.request c a answer) events K') :
    K.Knows c ∧ Admission answers c (K.world.isChecked c = true) answer events := by
  cases hstep with
  | request hc => exact ⟨hc, K.world.admission c answers⟩

/-- The check of a marked class is not run again. -/
theorem Step.not_selfChecked {answers : Answers} (hstep : Step answers K turn events K')
    (hmarked : K.world.isChecked c = true) : ¬ SelfChecked answers c (turn, events) := by
  intro hc
  obtain ⟨a, hentry⟩ := hc.admitted
  obtain rfl : turn = .request c a (.ok ()) := (Prod.mk.inj hentry).1
  cases hstep.admission.2 with
  | held => exact not_selfChecked_of_nil hc
  | passed _ hnot => exact hnot hmarked

section Records

variable {answers : Answers} (h : K.Sound) (hstep : Step answers K turn events K')
  (honly : ∀ x ∈ K.classes, x.id = c.id → x = c)
include h hstep honly

/-- A turn marks a class exactly when its check is run and passed in it. -/
theorem Step.isChecked_iff : K'.world.isChecked c = true ↔
    K.world.isChecked c = true ∨ SelfChecked answers c (turn, events) := by
  rw [World.isChecked_iff, World.isChecked_iff, hstep.mem_checked_iff]
  refine or_congr_right ⟨?_, fun hc => ⟨c, rfl, hc⟩⟩
  rintro ⟨x, hid, hx⟩
  obtain ⟨a, hentry⟩ := hx.admitted
  obtain rfl : turn = .request x a (.ok ()) := (Prod.mk.inj hentry).1
  exact honly x (h.mem_of_knows hstep.admission.1) hid ▸ hx

/-- A turn records that the class passed when it did, and only then. -/
theorem Step.okRecordsOf_eq (hquiet : answers.Quiet c) :
    (SelfChecked answers c (turn, events) → okRecordsOf c (turn, events) = [.methodsOk c.name]) ∧
    (¬ SelfChecked answers c (turn, events) → okRecordsOf c (turn, events) = []) := by
  have hfilter := Class.filter_isMethodsOk_selfCheck hquiet
  constructor
  · rintro ⟨⟨a, hentry⟩, -, hpasses⟩
    rw [hentry, okRecordsOf_request, if_pos rfl, hfilter, hpasses]
  · intro hnot
    cases turn with
    | request x a answer =>
      obtain ⟨hknows, hadmission⟩ := hstep.admission
      rw [okRecordsOf_request]
      split
      · rename_i hid
        obtain rfl := honly x (h.mem_of_knows hknows) hid
        cases hadmission with
        | isAbstract | held => rfl
        | passed habstract _ hpasses =>
          exact absurd (selfChecked_request_iff.mpr ⟨rfl, habstract, rfl, hpasses, rfl⟩) hnot
        | failed _ _ herror => rw [hfilter, herror]
      · rfl
    | initializer | unknown | act => rfl

end Records

variable {answers : Nat → Answers} {log : Log}

/-- **The admissions of a class record once at most that it passed**, and they have done so exactly
when it is marked. -/
theorem Runs.okRecords_eq (hrun : Runs answers log K) (hquiet : ∀ t, (answers t).Quiet c)
    (honly : ∀ x ∈ K.classes, x.id = c.id → x = c) :
    okRecords c log = if K.world.isChecked c then [.methodsOk c.name] else [] := by
  induction hrun with
  | start => rfl
  | @step log K K' turn events hrun hstep ih =>
    have hsound := hrun.valid.sound
    have hbefore : ∀ x ∈ K.classes, x.id = c.id → x = c :=
      fun x hx => honly x (hstep.classes_subset x hx)
    obtain ⟨hpassed, hother⟩ := hstep.okRecordsOf_eq hsound hbefore (hquiet _)
    have hflag := hstep.isChecked_iff hsound hbefore
    have hrecords : okRecords c (log ++ [(turn, events)]) =
        (if K.world.isChecked c then [.methodsOk c.name] else []) ++
          okRecordsOf c (turn, events) := by
      rw [← ih hbefore, okRecords, okRecords, List.flatMap_append, List.flatMap_singleton]
    rw [hrecords]
    by_cases hmarked : K.world.isChecked c = true
    · rw [if_pos hmarked, if_pos (hflag.mpr (Or.inl hmarked)),
        hother (hstep.not_selfChecked hmarked), List.append_nil]
    · by_cases hc : SelfChecked (answers log.length) c (turn, events)
      · rw [if_neg hmarked, if_pos (hflag.mpr (Or.inr hc)), hpassed hc, List.nil_append]
      · have hunmarked : ¬ K'.world.isChecked c = true := fun hK => (hflag.mp hK).elim hmarked hc
        rw [if_neg hmarked, if_neg hunmarked, hother hc, List.nil_append]

/-! ## 4. The whole -/

/-- **The check of every class is passed once, and by that class only.**  The stages answer as
`answers` says at each turn; being marked is the class's flag. -/
structure OneTimeCheck (answers : Nat → Answers) (log : Log) (K : Clients) : Prop where
  /-- A class is marked exactly when a construction of it, not being abstract, has passed the
  check, whatever became of its initializer. -/
  checked_iff : ∀ c ∈ K.classes, K.world.isChecked c = true ↔ ∃ t, PassedAt answers log c t
  /-- No class passes twice. -/
  once : ∀ c t t', PassedAt answers log c t → PassedAt answers log c t' → t = t'
  /-- The stages are run at every construction up to the one that passes, and at none after it;
  a failure leaves the next one to run them again. -/
  admissions : ∀ t c a answer events, log[t]? = some (.request c a answer, events) →
    Admission (answers t) c (∃ t' < t, PassedAt answers log c t') answer events
  /-- Of stages that do not say so themselves it is recorded once at most that they passed. -/
  records : ∀ c ∈ K.classes, (∀ t, (answers t).Quiet c) →
    okRecords c log = if K.world.isChecked c then [.methodsOk c.name] else []
  /-- The initializer is run of no class that is abstract or has not passed before. -/
  initialized : ∀ t c a events, log[t]? = some (.initializer c a, events) →
    c.isAbstract = false ∧ ∃ t' < t, PassedAt answers log c t'
  /-- Objects say that their class has passed, and it has. -/
  objects : ∀ o ∈ K.objects, o.selfValidated = true ∧ o.cls.isAbstract = false ∧
    ∃ t, PassedAt answers log o.cls t
  /-- Whatever is done next, no class loses its mark, and a class gets one exactly when its own
  check is run and passed. -/
  next : ∀ now turn events K', Step now K turn events K' → ∀ c ∈ K.classes,
    (K'.world.isChecked c = true ↔
      K.world.isChecked c = true ∨ SelfChecked now c (turn, events))

namespace Valid

/-- Of two turns at which a class passes, none is the earlier one. -/
theorem not_passedAt_of_lt (h : Valid answers log K) {t t' : Nat} (hlt : t < t')
    (ht : PassedAt answers log c t) : ¬ PassedAt answers log c t' := by
  rintro ⟨⟨turn, events⟩, hentry, hc⟩
  obtain ⟨a, hadmitted⟩ := hc.admitted
  obtain rfl : turn = .request c a (.ok ()) := (Prod.mk.inj hadmitted).1
  cases h.admissions t' c a _ events hentry with
  | held => exact not_selfChecked_of_nil hc
  | passed _ hnot => exact hnot ⟨t, hlt, ht⟩

theorem passedAt_unique (h : Valid answers log K) {t t' : Nat} (ht : PassedAt answers log c t)
    (ht' : PassedAt answers log c t') : t = t' := by
  rcases Nat.lt_trichotomy t t' with hlt | heq | hgt
  · exact absurd ht' (h.not_passedAt_of_lt hlt ht)
  · exact heq
  · exact absurd ht (h.not_passedAt_of_lt hgt ht')

theorem concrete_of_passedAt {t : Nat} (ht : PassedAt answers log c t) : c.isAbstract = false := by
  obtain ⟨entry, -, hc⟩ := ht
  exact hc.concrete

end Valid

/-- **The self-check of every run is done once**, whatever clients do and however their
constructions overlap. -/
theorem Runs.oneTimeCheck (hrun : Runs answers log K) : OneTimeCheck answers log K := by
  have h := hrun.valid
  have honly : ∀ c ∈ K.classes, ∀ x ∈ K.classes, x.id = c.id → x = c :=
    fun c hc x hx hid => h.sound.founded.history.eq_of_id_eq hx hc hid
  refine {
    checked_iff := fun c hc => h.isChecked_iff hc
    once := fun c t t' ht ht' => h.passedAt_unique ht ht'
    admissions := h.admissions
    records := fun c hc hquiet => hrun.okRecords_eq hquiet (honly c hc)
    initialized := fun t c a events hentry => ?_
    objects := fun o ho => ?_
    next := fun now turn events K' hstep c hc => hstep.isChecked_iff h.sound (honly c hc) }
  · obtain ⟨t', hlt, ht'⟩ := h.initialized t c a events hentry
    exact ⟨Valid.concrete_of_passedAt ht', t', hlt, ht'⟩
  · obtain ⟨hcls, habstract, hid, hvalidated⟩ := h.sound.objects o ho
    exact ⟨hvalidated, habstract, (h.isChecked_iff hcls).mp (World.isChecked_iff.mpr hid)⟩

end Clients

/-! ## 5. A class that is not ready at once -/

namespace Patient

open Clients

def statement : Definition := ⟨"Patient", [], [.check ⟨"Ready", fun _ => .pure (.ok ())⟩]⟩
def cls : Class := .ofDefinition statement 0 []

theorem cls_defined : Class.define 0 statement = .ok cls :=
  Class.define_eq_ok_iff.mpr ⟨by decide, by decide, rfl, [],
    Linearization.merge?_of_isEmpty _ rfl, rfl⟩

/-- The stage finds the class unready up to turn 1 and ready from then on. -/
def answers : Nat → Answers := fun t _ _ =>
  .pure (if t ≤ 1 then .error [.notCallable "Patient" "start"] else .ok ())

/-- A client is turned away; then two are admitted before the initializer is run for either. -/
theorem exists_runs : ∃ log K, Runs answers log K ∧ K.objects.length = 2 := by
  have hinit (n : Nat) : World.runInitializer? ⟨1, n, [0], .empty⟩ cls .empty =
      some ⟨.ok ⟨n, cls, .empty, true⟩, [], ⟨1, n + 1, [0], .empty⟩⟩ := rfl
  have hboth : [(cls, Arguments.empty), (cls, .empty)] = [] ++ (cls, .empty) :: [(cls, .empty)] :=
    rfl
  have hlast : [(cls, Arguments.empty)] = [] ++ (cls, .empty) :: [] := rfl
  have hfirstId : Class.define ([] : List Class).length statement = .ok cls := cls_defined
  have hdefine : Session.Step (Session.building []) (.define statement) [cls.builtEvent]
      (Session.building [cls]) := Session.step_building (by simp [statement]) hfirstId
  have hbuilt : Runs answers _ ⟨Session.building [cls], []⟩ := Runs.start.step (.act rfl hdefine)
  have hrefused := hbuilt.step (.request (a := .empty) (Or.inl List.mem_cons_self))
  have hfirst := hrefused.step (.request (a := .empty) (Or.inl List.mem_cons_self))
  have hsecond := hfirst.step (.request (a := .empty) (Or.inl List.mem_cons_self))
  have hdone := (hsecond.step (.initializer hboth (hinit 0))).step (.initializer hlast (hinit 1))
  exact ⟨_, _, hdone, rfl⟩

/-- The check is run twice, the two constructions that are admitted share one. -/
theorem oneTimeCheck_patient : ∃ log K, (Runs answers log K ∧ K.objects.length = 2) ∧
    OneTimeCheck answers log K := by
  obtain ⟨log, K, hrun, hobjects⟩ := exists_runs
  exact ⟨log, K, ⟨hrun, hobjects⟩, hrun.oneTimeCheck⟩

end Patient

end MethodGuard
