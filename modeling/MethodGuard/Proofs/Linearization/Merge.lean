/-
# What merging precedence lists computes

`merge?` walks its lists and changes them as it goes.  Here the order it gives is described
without that walk, by what is still to come at each place of the order: `IsC3 lists order` says
that every element of `order` is the head of the earliest list whose head stands in no tail, once
the elements before it are out of all lists, and that nothing is left over.  Main statements:

* `merge?_eq_some_iff`: the merged order is the one and only order that `IsC3` describes,
* `IsC3.nodup`, `IsC3.sublist`: it repeats nothing and keeps every list's order,
* `merge?_isSome_iff`: there is a merged order exactly when SOME order without repetitions keeps
  every list's order, so taking the first good head never runs into a dead end of its own making.

The last one needs no search for a cycle.  In any order that keeps the lists', the earliest
element that is still in a list heads every list it is in, so a good head exists at every step;
and dropping heads keeps the lists below the same order.
-/
import Mathlib.Data.List.Nodup
import MethodGuard.Class.Linearization

namespace MethodGuard

namespace Linearization

variable {α : Type u}

/-! ## 1. The order described -/

/-- Some list has the element in its tail. -/
def Blocked (lists : List (List α)) (x : α) : Prop := ∃ list ∈ lists, x ∈ list.tail

/-- The element heads the earliest list whose head stands in no list's tail. -/
def FirstFree (lists : List (List α)) (x : α) : Prop :=
  ¬ Blocked lists x ∧ ∃ before tail after, lists = before ++ (x :: tail) :: after ∧
    ∀ list ∈ before, ∀ y ∈ list.head?, Blocked lists y

section Described

variable [DecidableEq α]

/-- What is left of the lists when some elements are out. -/
def without (taken : List α) (lists : List (List α)) : List (List α) :=
  lists.map fun list => list.filter fun x => decide (x ∉ taken)

/-- **The C3 order of the lists.**  Every element is the first free head of what is left when the
elements before it are out, and at the end nothing is left. -/
structure IsC3 (lists : List (List α)) (order : List α) : Prop where
  free : ∀ taken x rest, order = taken ++ x :: rest → FirstFree (without taken lists) x
  covers : ∀ list ∈ lists, ∀ x ∈ list, x ∈ order

@[simp] theorem without_nil (lists : List (List α)) : without [] lists = lists := by
  simp [without]

theorem without_append (taken more : List α) (lists : List (List α)) :
    without more (without taken lists) = without (taken ++ more) lists := by
  simp only [without, List.map_map]
  refine List.map_congr_left fun list _ => ?_
  simp only [Function.comp_apply, List.filter_filter]
  refine List.filter_congr fun x _ => ?_
  simp [List.mem_append, not_or, Bool.and_comm]

theorem mem_without {taken : List α} {lists : List (List α)} {left : List α}
    (h : left ∈ without taken lists) :
    ∃ list ∈ lists, left = list.filter fun x => decide (x ∉ taken) := by
  obtain ⟨list, hlist, rfl⟩ := List.mem_map.mp h
  exact ⟨list, hlist, rfl⟩

end Described

theorem FirstFree.mem {lists : List (List α)} {x : α} (h : FirstFree lists x) :
    ∃ list ∈ lists, x ∈ list := by
  obtain ⟨-, before, tail, after, rfl, -⟩ := h
  exact ⟨x :: tail, by simp, by simp⟩

/-- In an order without repetitions no two elements come before each other. -/
theorem not_sublist_swap {order : List α} (h : order.Nodup) {x y : α}
    (hxy : [x, y].Sublist order) : ¬ [y, x].Sublist order := by
  intro hyx
  obtain ⟨before, after, rfl, hx, hy⟩ := List.cons_sublist_iff.mp hxy
  rw [List.singleton_sublist] at hy
  obtain ⟨-, -, hapart⟩ := List.nodup_append.mp h
  obtain ⟨front, back, he, hfront, hback⟩ := List.sublist_append_iff.mp hyx
  cases front with
  | nil =>
    rw [List.nil_append] at he
    exact hapart x hx x (hback.subset (he ▸ List.mem_cons_of_mem y List.mem_cons_self)) rfl
  | cons z front =>
    obtain ⟨rfl, -⟩ := List.cons.inj he
    exact hapart y (hfront.subset List.mem_cons_self) y hy rfl

/-! ## 2. The three ways a merge goes on -/

section Unfold

variable {κ : Type v} [DecidableEq κ] (key : α → κ)

theorem merge?_of_isEmpty {lists : List (List α)} (h : lists.all List.isEmpty = true) :
    merge? key lists = some [] := by
  rw [merge?, if_pos h]

theorem merge?_of_stuck {lists : List (List α)} (hne : ¬ lists.all List.isEmpty = true)
    (h : nextHead? key lists = none) : merge? key lists = none := by
  rw [merge?, if_neg hne]
  split
  · rfl
  · rename_i x hx
    rw [h] at hx
    cases hx

theorem not_isEmpty_of_nextHead? {lists : List (List α)} {x : α}
    (h : nextHead? key lists = some x) : ¬ lists.all List.isEmpty = true := by
  intro hall
  obtain ⟨list, hlist, hx⟩ := List.mem_filterMap.mp (nextHead?_mem key h)
  rw [List.isEmpty_iff.mp (List.all_eq_true.mp hall list hlist)] at hx
  cases hx

theorem merge?_of_nextHead? {lists : List (List α)} {x : α} (h : nextHead? key lists = some x) :
    merge? key lists = (merge? key (dropHeads key x lists)).map (x :: ·) := by
  rw [merge?, if_neg (not_isEmpty_of_nextHead? key h)]
  split
  · rename_i hnone
    rw [h] at hnone
    cases hnone
  · rename_i y hy
    rw [h] at hy
    cases hy
    rfl

end Unfold

/-! ## 3. One step of the merge -/

/-- Heads before a given one belong to lists before a given one. -/
theorem filterMap_head?_eq_append {lists : List (List α)} {before after : List α} {x : α} :
    lists.filterMap List.head? = before ++ x :: after →
    ∃ earlier tail later, lists = earlier ++ (x :: tail) :: later ∧
      earlier.filterMap List.head? = before := by
  intro h
  obtain ⟨earlier, rest, rfl, hbefore, hrest⟩ := List.filterMap_eq_append_iff.mp h
  obtain ⟨skipped, list, later, rfl, hskipped, hlist, -⟩ := List.filterMap_eq_cons_iff.mp hrest
  obtain ⟨tail, rfl⟩ : ∃ tail, list = x :: tail := by
    cases list with
    | nil => simp at hlist
    | cons y tail =>
      simp only [List.head?_cons, Option.some.injEq] at hlist
      exact ⟨tail, by rw [hlist]⟩
  refine ⟨earlier ++ skipped, tail, later, by simp, ?_⟩
  rw [List.filterMap_append, hbefore, List.filterMap_eq_nil_iff.mpr hskipped, List.append_nil]

section Step

variable [DecidableEq α]

theorem isGood_iff {lists : List (List α)} {x : α} :
    isGood id x lists = true ↔ ¬ Blocked lists x := by
  simp only [isGood, List.all_eq_true, decide_eq_true_eq, Blocked, id]
  constructor
  · rintro h ⟨list, hlist, hx⟩
    exact h list hlist x hx rfl
  · rintro h list hlist y hy rfl
    exact h ⟨list, hlist, hy⟩

/-- The step takes the first free head. -/
theorem nextHead?_eq_some_iff {lists : List (List α)} {x : α} :
    nextHead? id lists = some x ↔ FirstFree lists x := by
  rw [nextHead?, List.find?_eq_some_iff_append]
  simp only [isGood_iff, Bool.not_eq_true', ← Bool.not_eq_true, not_not]
  refine and_congr_right fun _ => ?_
  constructor
  · rintro ⟨before, after, hheads, hblocked⟩
    obtain ⟨earlier, tail, later, rfl, rfl⟩ := filterMap_head?_eq_append hheads
    refine ⟨earlier, tail, later, rfl, fun list hlist y hy => hblocked y ?_⟩
    exact List.mem_filterMap.mpr ⟨list, hlist, hy⟩
  · rintro ⟨earlier, tail, later, rfl, hblocked⟩
    refine ⟨earlier.filterMap List.head?, later.filterMap List.head?, by simp, fun y hy => ?_⟩
    obtain ⟨list, hlist, hy⟩ := List.mem_filterMap.mp hy
    exact hblocked list hlist y hy

theorem dropHead_eq_filter {list : List α} {x : α} (h : x ∉ list.tail) :
    dropHead id x list = list.filter fun y => decide (y ∉ [x]) := by
  cases list with
  | nil => rfl
  | cons y rest =>
    have hrest : rest.filter (fun z => decide (z ∉ [x])) = rest := by
      refine List.filter_eq_self.mpr fun z hz => ?_
      have hzx : z ≠ x := fun e => h (e ▸ hz)
      simpa using hzx
    by_cases hyx : y = x
    · simp only [dropHead, id, hyx, if_true, List.mem_singleton, not_true_eq_false, decide_false,
        Bool.false_eq_true, not_false_eq_true, List.filter_cons_of_neg]
      simpa using hrest.symm
    · simp only [dropHead, id, hyx, if_false]
      rw [List.filter_cons_of_pos (by simpa using hyx), hrest]

/-- Dropping a head that stands in no tail takes it out of all lists. -/
theorem dropHeads_eq_without {lists : List (List α)} {x : α} (h : ¬ Blocked lists x) :
    dropHeads id x lists = without [x] lists :=
  List.map_congr_left fun list hlist => dropHead_eq_filter fun hx => h ⟨list, hlist, hx⟩

/-! ## 4. The whole merge -/

theorem isC3_nil_iff {lists : List (List α)} : IsC3 lists [] ↔ lists.all List.isEmpty = true := by
  simp only [List.all_eq_true, List.isEmpty_iff]
  constructor
  · intro h list hlist
    refine List.eq_nil_iff_forall_not_mem.mpr fun x hx => ?_
    simpa using h.covers list hlist x hx
  · intro h
    refine ⟨fun taken x rest he => by simp at he, fun list hlist x hx => ?_⟩
    rw [h list hlist] at hx
    exact hx

/-- The C3 order of some lists is the first free head, and then the C3 order of the rest. -/
theorem isC3_cons_iff {lists : List (List α)} {x : α} {order : List α} :
    IsC3 lists (x :: order) ↔ FirstFree lists x ∧ IsC3 (without [x] lists) order := by
  constructor
  · intro h
    refine ⟨by simpa using h.free [] x order rfl, ⟨fun taken y rest he => ?_, ?_⟩⟩
    · rw [without_append]
      exact h.free ([x] ++ taken) y rest (by simp [he])
    · intro left hleft y hy
      obtain ⟨list, hlist, rfl⟩ := mem_without hleft
      rw [List.mem_filter] at hy
      have hyx : y ≠ x := by simpa using hy.2
      exact (List.mem_cons.mp (h.covers list hlist y hy.1)).resolve_left hyx
  · rintro ⟨hfree, h⟩
    refine ⟨fun taken y rest he => ?_, fun list hlist y hy => ?_⟩
    · cases taken with
      | nil =>
        obtain ⟨rfl, -⟩ := List.cons.inj he
        simpa using hfree
      | cons z taken =>
        obtain ⟨rfl, htail⟩ := List.cons.inj (he.trans (List.cons_append ..))
        have hnext := h.free taken y rest htail
        rwa [without_append] at hnext
    · by_cases hyx : y = x
      · exact hyx ▸ List.mem_cons_self
      · refine List.mem_cons_of_mem x (h.covers _ (List.mem_map.mpr ⟨list, hlist, rfl⟩) y ?_)
        exact List.mem_filter.mpr ⟨hy, by simpa using hyx⟩

/-- **The merge gives exactly the C3 order.** -/
theorem merge?_eq_some_iff {lists : List (List α)} {order : List α} :
    merge? id lists = some order ↔ IsC3 lists order := by
  induction order generalizing lists with
  | nil =>
    rw [isC3_nil_iff]
    refine ⟨fun h => ?_, merge?_of_isEmpty id⟩
    by_contra hne
    cases hx : nextHead? id lists with
    | none => rw [merge?_of_stuck id hne hx] at h; cases h
    | some x => rw [merge?_of_nextHead? id hx] at h; simp at h
  | cons x order ih =>
    rw [isC3_cons_iff, ← nextHead?_eq_some_iff]
    constructor
    · intro h
      cases hy : nextHead? id lists with
      | none =>
        by_cases hempty : lists.all List.isEmpty = true
        · rw [merge?_of_isEmpty id hempty] at h; simp at h
        · rw [merge?_of_stuck id hempty hy] at h; cases h
      | some y =>
        rw [merge?_of_nextHead? id hy] at h
        obtain ⟨rest, hrest, he⟩ := Option.map_eq_some_iff.mp h
        obtain ⟨rfl, rfl⟩ := List.cons.inj he
        rw [dropHeads_eq_without (nextHead?_eq_some_iff.mp hy).1] at hrest
        exact ⟨rfl, ih.mp hrest⟩
    · rintro ⟨hx, hrest⟩
      rw [merge?_of_nextHead? id hx, dropHeads_eq_without (nextHead?_eq_some_iff.mp hx).1,
        ih.mpr hrest]
      rfl

/-! ## 5. What the C3 order keeps -/

/-- The C3 order holds what the lists hold, and nothing else. -/
theorem IsC3.mem_iff {lists : List (List α)} {order : List α} (h : IsC3 lists order) {x : α} :
    x ∈ order ↔ ∃ list ∈ lists, x ∈ list := by
  refine ⟨fun hx => ?_, fun ⟨list, hlist, hx⟩ => h.covers list hlist x hx⟩
  obtain ⟨taken, rest, he⟩ := List.append_of_mem hx
  obtain ⟨left, hleft, hxl⟩ := (h.free taken x rest he).mem
  obtain ⟨list, hlist, rfl⟩ := mem_without hleft
  exact ⟨list, hlist, List.mem_of_mem_filter hxl⟩

/-- The C3 order has no element twice, whatever the lists do. -/
theorem IsC3.nodup {lists : List (List α)} {order : List α} (h : IsC3 lists order) :
    order.Nodup := by
  induction order generalizing lists with
  | nil => exact List.nodup_nil
  | cons x order ih =>
    obtain ⟨-, hrest⟩ := isC3_cons_iff.mp h
    refine List.nodup_cons.mpr ⟨fun hx => ?_, ih hrest⟩
    obtain ⟨left, hleft, hxl⟩ := hrest.mem_iff.mp hx
    obtain ⟨list, -, rfl⟩ := mem_without hleft
    simp at hxl

/-- The C3 order keeps every list's order. -/
theorem IsC3.sublist {lists : List (List α)} {order list : List α} (h : IsC3 lists order)
    (hlist : list ∈ lists) : list.Sublist order := by
  induction order generalizing lists list with
  | nil =>
    have hempty := List.all_eq_true.mp (isC3_nil_iff.mp h) list hlist
    rw [List.isEmpty_iff.mp hempty]
  | cons x order ih =>
    obtain ⟨hfree, hrest⟩ := isC3_cons_iff.mp h
    have hx : x ∉ list.tail := fun hx => hfree.1 ⟨list, hlist, hx⟩
    have hleft : (dropHead id x list).Sublist order := by
      rw [dropHead_eq_filter hx]
      exact ih hrest (List.mem_map.mpr ⟨list, hlist, rfl⟩)
    cases list with
    | nil => exact List.nil_sublist _
    | cons y rest =>
      by_cases hyx : y = x
      · subst hyx
        simp only [dropHead, id, if_true] at hleft
        exact hleft.cons_cons y
      · simp only [dropHead, id, hyx, if_false] at hleft
        exact hleft.cons x

/-! ## 6. When there is a merged order -/

/-- Lists below one order without repetitions have a good head, unless they are empty: the
earliest element of the order that is in a list. -/
theorem exists_free_head {lists : List (List α)} {order : List α} (hnodup : order.Nodup)
    (hbelow : ∀ list ∈ lists, list.Sublist order) (hne : ¬ lists.all List.isEmpty = true) :
    ∃ x, x ∈ lists.filterMap List.head? ∧ ¬ Blocked lists x := by
  induction order with
  | nil =>
    refine absurd (List.all_eq_true.mpr fun list hlist => ?_) hne
    exact List.isEmpty_iff.mpr (List.sublist_nil.mp (hbelow list hlist))
  | cons x order ih =>
    obtain ⟨hx, hnodup⟩ := List.nodup_cons.mp hnodup
    by_cases hin : ∃ list ∈ lists, x ∈ list
    · -- `x` is first in the order, so it is first wherever it is
      refine ⟨x, ?_, ?_⟩
      · obtain ⟨list, hlist, hxl⟩ := hin
        refine List.mem_filterMap.mpr ⟨list, hlist, ?_⟩
        rcases List.sublist_cons_iff.mp (hbelow list hlist) with hsub | ⟨rest, rfl, -⟩
        · exact absurd (hsub.subset hxl) hx
        · rfl
      · rintro ⟨list, hlist, hxl⟩
        exact hx ((hbelow list hlist).tail.subset hxl)
    · refine ih hnodup fun list hlist => ?_
      rcases List.sublist_cons_iff.mp (hbelow list hlist) with hsub | ⟨rest, rfl, -⟩
      · exact hsub
      · exact absurd ⟨_, hlist, List.mem_cons_self⟩ hin

theorem nextHead?_isSome {lists : List (List α)} {x : α} (hx : x ∈ lists.filterMap List.head?)
    (hgood : ¬ Blocked lists x) : ∃ y, nextHead? id lists = some y := by
  refine Option.isSome_iff_exists.mp (List.find?_isSome.mpr ⟨x, hx, ?_⟩)
  exact isGood_iff.mpr hgood

/-- **The merge rejects nothing that has an order**, and what it accepts has one. -/
theorem merge?_isSome_iff {lists : List (List α)} :
    (∃ order, merge? id lists = some order) ↔
      ∃ order : List α, order.Nodup ∧ ∀ list ∈ lists, list.Sublist order := by
  constructor
  · rintro ⟨order, h⟩
    have hC3 := merge?_eq_some_iff.mp h
    exact ⟨order, hC3.nodup, fun list hlist => hC3.sublist hlist⟩
  · rintro ⟨order, hnodup, hbelow⟩
    fun_induction merge? id lists with
    | case1 lists hempty => exact ⟨[], rfl⟩
    | case2 lists hempty hnone =>
      obtain ⟨x, hx, hgood⟩ := exists_free_head hnodup hbelow hempty
      obtain ⟨y, hy⟩ := nextHead?_isSome hx hgood
      rw [hnone] at hy
      cases hy
    | case3 lists hempty x hx ih =>
      have hleft : ∀ left ∈ dropHeads id x lists, left.Sublist order := by
        rw [dropHeads_eq_without (nextHead?_eq_some_iff.mp hx).1]
        intro left hleft
        obtain ⟨list, hlist, rfl⟩ := mem_without hleft
        exact List.filter_sublist.trans (hbelow list hlist)
      obtain ⟨rest, hrest⟩ := ih hleft
      exact ⟨x :: rest, by rw [hrest]; rfl⟩

end Step

/-! ## 7. Elements told apart by a key -/

/-- A list whose keys come in the order of another's comes in that order itself, where keys tell
the elements apart. -/
theorem sublist_of_map_sublist {κ : Type v} {key : α → κ} {list order : List α}
    (hinj : ∀ x ∈ list, ∀ y ∈ order, key x = key y → x = y)
    (h : (list.map key).Sublist (order.map key)) : list.Sublist order := by
  obtain ⟨part, hpart, he⟩ := List.sublist_map_iff.mp h
  have hsame : list = part := by
    refine List.ext_getElem (by simpa using congrArg List.length he) fun i hi hi' => ?_
    refine hinj _ (List.getElem_mem hi) _ (hpart.subset (List.getElem_mem hi')) ?_
    have hget := List.getElem_of_eq he (by simpa using hi)
    simpa using hget
  exact hsame ▸ hpart

section Keys

variable {κ : Type v} [DecidableEq κ] (key : α → κ)

theorem dropHead_sublist (x : α) (list : List α) : (dropHead key x list).Sublist list := by
  cases list with
  | nil => exact List.Sublist.refl []
  | cons y rest =>
    simp only [dropHead]
    split
    · exact List.sublist_cons_self y rest
    · exact List.Sublist.refl _

theorem isGood_map (lists : List (List α)) (x : α) :
    isGood id (key x) (lists.map (List.map key)) = isGood key x lists := by
  simp [isGood, List.all_map, ← List.map_tail, Function.comp_def]

theorem nextHead?_map (lists : List (List α)) :
    nextHead? id (lists.map (List.map key)) = (nextHead? key lists).map key := by
  have hheads : (lists.map (List.map key)).filterMap List.head?
      = (lists.filterMap List.head?).map key := by
    simp [List.filterMap_map, List.map_filterMap]
  rw [nextHead?, nextHead?, hheads, List.find?_map]
  congr 2
  funext x
  exact isGood_map key lists x

theorem dropHeads_map (lists : List (List α)) (x : α) :
    dropHeads id (key x) (lists.map (List.map key)) =
      (dropHeads key x lists).map (List.map key) := by
  simp only [dropHeads, List.map_map]
  refine List.map_congr_left fun list _ => ?_
  cases list with
  | nil => rfl
  | cons y rest =>
    simp only [Function.comp_apply, List.map_cons, dropHead, id]
    split <;> rfl

/-- The merge sees nothing of its elements but their keys. -/
theorem merge?_map (lists : List (List α)) :
    merge? id (lists.map (List.map key)) = (merge? key lists).map (List.map key) := by
  fun_induction merge? key lists with
  | case1 lists hempty =>
    exact merge?_of_isEmpty id (by simpa [List.all_map, Function.comp_def] using hempty)
  | case2 lists hempty hnone =>
    refine merge?_of_stuck id (by simpa [List.all_map, Function.comp_def] using hempty) ?_
    rw [nextHead?_map, hnone]
    rfl
  | case3 lists hempty x hx ih =>
    have hkey : nextHead? id (lists.map (List.map key)) = some (key x) := by
      rw [nextHead?_map, hx]
      rfl
    rw [merge?_of_nextHead? id hkey, dropHeads_map, ih, Option.map_map, Option.map_map]
    rfl

/-- Keys of a merged order are the C3 order of the lists' keys. -/
theorem isC3_of_merge? {lists : List (List α)} {order : List α}
    (h : merge? key lists = some order) :
    IsC3 (lists.map (List.map key)) (order.map key) := by
  rw [← merge?_eq_some_iff, merge?_map, h]
  rfl

/-- A merged order takes its elements, and not only their keys, from the lists. -/
theorem mem_of_merge? {lists : List (List α)} {order : List α} (h : merge? key lists = some order)
    {x : α} (hx : x ∈ order) : ∃ list ∈ lists, x ∈ list := by
  fun_induction merge? key lists generalizing order with
  | case1 lists hempty =>
    cases h
    cases hx
  | case2 lists hempty hnone => cases h
  | case3 lists hempty y hy ih =>
    obtain ⟨rest, hrest, rfl⟩ := Option.map_eq_some_iff.mp h
    rcases List.mem_cons.mp hx with rfl | hx
    · obtain ⟨list, hlist, hhead⟩ := List.mem_filterMap.mp (nextHead?_mem key hy)
      exact ⟨list, hlist, List.mem_of_mem_head? hhead⟩
    · obtain ⟨left, hleft, hxl⟩ := ih hrest hx
      obtain ⟨list, hlist, rfl⟩ := List.mem_map.mp hleft
      exact ⟨list, hlist, (dropHead_sublist key y list).subset hxl⟩

end Keys

end Linearization

end MethodGuard
