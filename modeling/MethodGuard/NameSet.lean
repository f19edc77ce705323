/-
# Sets of names in byte order

The names of a class's validated methods are reported in the byte order of their UTF-8 form,
which for strings is the same as the order of their characters' code points.  A `NameSet` keeps
its names strictly ascending, so that the order its readers rely on cannot be lost and two sets
with the same names are equal.
-/

namespace MethodGuard

/-- A set of names, listed in strictly ascending order. -/
structure NameSet where
  names : List String
  ascending : names.Pairwise (· < ·)

namespace NameSet

/-! ## 1. Insertion into an ascending list -/

/-- Put `name` where it belongs; a name already there is not repeated. -/
def insertSorted (name : String) : List String → List String
  | [] => [name]
  | x :: rest =>
    if name < x then name :: x :: rest
    else if name = x then x :: rest
    else x :: insertSorted name rest

/-- Of two different names one comes first. -/
theorem lt_of_not_lt_of_ne {a b : String} (h : ¬ a < b) (hne : a ≠ b) : b < a := by
  have hba : b ≤ a := String.not_lt.mp h
  exact Decidable.byContradiction fun h' => hne (String.le_antisymm (String.not_lt.mp h') hba)

theorem mem_insertSorted {name x : String} {names : List String} :
    x ∈ insertSorted name names ↔ x = name ∨ x ∈ names := by
  induction names with
  | nil => simp [insertSorted]
  | cons y rest ih =>
    simp only [insertSorted]
    split
    · simp
    · split
      · rename_i hxy
        subst hxy
        simp
      · simp only [List.mem_cons, ih]
        grind

theorem insertSorted_pairwise {name : String} {names : List String}
    (h : names.Pairwise (· < ·)) : (insertSorted name names).Pairwise (· < ·) := by
  induction names with
  | nil => simp [insertSorted]
  | cons x rest ih =>
    rw [List.pairwise_cons] at h
    simp only [insertSorted]
    split
    · rename_i hlt
      rw [List.pairwise_cons, List.pairwise_cons]
      refine ⟨fun y hy => ?_, h⟩
      rcases List.mem_cons.mp hy with rfl | hy
      · exact hlt
      · exact String.lt_trans hlt (h.1 y hy)
    · split
      · exact List.pairwise_cons.mpr h
      · rename_i hnlt hne
        rw [List.pairwise_cons]
        refine ⟨fun y hy => ?_, ih h.2⟩
        rcases mem_insertSorted.mp hy with rfl | hy
        · exact lt_of_not_lt_of_ne hnlt hne
        · exact h.1 y hy

/-! ## 2. The sets -/

/-- The set without names. -/
def empty : NameSet := ⟨[], List.Pairwise.nil⟩

instance : Inhabited NameSet := ⟨empty⟩

/-- The set with one more name. -/
def insert (s : NameSet) (name : String) : NameSet :=
  ⟨insertSorted name s.names, insertSorted_pairwise s.ascending⟩

/-- The set with all the names of a list added. -/
def insertAll (s : NameSet) (names : List String) : NameSet := names.foldl insert s

/-- The set of the names of a list. -/
def ofList (names : List String) : NameSet := empty.insertAll names

/-- The names of either set. -/
def union (s t : NameSet) : NameSet := s.insertAll t.names

/-- Whether a name is in the set. -/
def contains (s : NameSet) (name : String) : Bool := s.names.contains name

/-- Whether the set has no names. -/
def isEmpty (s : NameSet) : Bool := s.names.isEmpty

instance : Membership String NameSet := ⟨fun s name => name ∈ s.names⟩

theorem mem_def {s : NameSet} {name : String} : name ∈ s ↔ name ∈ s.names := Iff.rfl

theorem contains_iff {s : NameSet} {name : String} : s.contains name = true ↔ name ∈ s := by
  simp [contains, mem_def]

theorem mem_insert {s : NameSet} {name x : String} : x ∈ s.insert name ↔ x = name ∨ x ∈ s :=
  mem_insertSorted

theorem mem_insertAll {s : NameSet} {names : List String} {x : String} :
    x ∈ s.insertAll names ↔ x ∈ s ∨ x ∈ names := by
  induction names generalizing s with
  | nil => simp [insertAll]
  | cons y rest ih =>
    have h : s.insertAll (y :: rest) = (s.insert y).insertAll rest := rfl
    rw [h, ih, mem_insert, List.mem_cons]
    grind

theorem mem_union {s t : NameSet} {x : String} : x ∈ s.union t ↔ x ∈ s ∨ x ∈ t :=
  mem_insertAll

theorem mem_ofList {names : List String} {x : String} : x ∈ ofList names ↔ x ∈ names := by
  rw [ofList, mem_insertAll]
  simp [mem_def, empty]

end NameSet

end MethodGuard
