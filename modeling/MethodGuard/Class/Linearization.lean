/-
# Merging precedence lists

The ancestors of a class are put in one order that respects several: each base comes before its
own ancestors in their order, and the bases come in the order they were listed.  `merge?` does this
for any lists.  It takes, again and again, the head of the earliest list whose head stands in no
list's tail, and removes it from the heads; when lists are left and no head will do, the orders
contradict each other and there is no merged order.

Elements are told apart by a key.
-/

namespace MethodGuard

namespace Linearization

variable {α : Type u} {κ : Type v} [DecidableEq κ] (key : α → κ)

/-! ## 1. One step -/

/-- Whether an element stands in no list's tail. -/
def isGood (x : α) (lists : List (List α)) : Bool :=
  lists.all fun list => list.tail.all fun y => decide (key y ≠ key x)

/-- The first head that stands in no list's tail. -/
def nextHead? (lists : List (List α)) : Option α :=
  (lists.filterMap List.head?).find? fun x => isGood key x lists

/-- A list without its head, if that is the element. -/
def dropHead (x : α) : List α → List α
  | [] => []
  | y :: rest => if key y = key x then rest else y :: rest

/-- The lists without the element as their head. -/
def dropHeads (x : α) (lists : List (List α)) : List (List α) := lists.map (dropHead key x)

/-- The number of elements in all lists. -/
def totalLength (lists : List (List α)) : Nat := lists.flatten.length

theorem length_dropHead_le (x : α) (list : List α) :
    (dropHead key x list).length ≤ list.length := by
  cases list with
  | nil => simp [dropHead]
  | cons y rest =>
    simp only [dropHead]
    split
    · simp
    · exact Nat.le_refl _

@[simp] theorem dropHeads_cons (x : α) (list : List α) (rest : List (List α)) :
    dropHeads key x (list :: rest) = dropHead key x list :: dropHeads key x rest := rfl

@[simp] theorem totalLength_cons (list : List α) (rest : List (List α)) :
    totalLength (list :: rest) = list.length + totalLength rest := by
  simp [totalLength]

theorem totalLength_dropHeads_le (x : α) (lists : List (List α)) :
    totalLength (dropHeads key x lists) ≤ totalLength lists := by
  induction lists with
  | nil => simp [dropHeads]
  | cons list rest ih =>
    have h := length_dropHead_le key x list
    simp only [dropHeads_cons, totalLength_cons]
    omega

/-- Dropping an element that is some list's head leaves fewer elements. -/
theorem totalLength_dropHeads_lt {x : α} {lists : List (List α)}
    (h : x ∈ lists.filterMap List.head?) :
    totalLength (dropHeads key x lists) < totalLength lists := by
  induction lists with
  | nil => simp at h
  | cons list rest ih =>
    have hle := totalLength_dropHeads_le key x rest
    have hd := length_dropHead_le key x list
    simp only [dropHeads_cons, totalLength_cons]
    cases list with
    | nil =>
      simp only [List.filterMap_cons, List.head?_nil] at h
      have hlt := ih h
      omega
    | cons y tail =>
      simp only [List.filterMap_cons, List.head?_cons, List.mem_cons] at h
      rcases h with rfl | h
      · simp only [dropHead, if_true, List.length_cons]
        omega
      · have hlt := ih h
        omega

theorem nextHead?_mem {x : α} {lists : List (List α)} (h : nextHead? key lists = some x) :
    x ∈ lists.filterMap List.head? :=
  List.mem_of_find?_eq_some h

/-! ## 2. All steps -/

/-- One order that respects every list's, if the lists do not contradict each other. -/
def merge? (lists : List (List α)) : Option (List α) :=
  if lists.all List.isEmpty then some []
  else
    match _h : nextHead? key lists with
    | none => none
    | some x => (merge? (dropHeads key x lists)).map (x :: ·)
termination_by totalLength lists
decreasing_by exact totalLength_dropHeads_lt key (nextHead?_mem key _h)

end Linearization

end MethodGuard
