/-
# Values equal up to the order of entries

The program compares maps by look-up: as many entries on both sides, and every key of the first with
an equal value in the second.  That reads from left to right, and nothing about it shows that it
could be read from right to left, or that two comparisons can be chained.

`Value.UpToOrder` says when two values are equal without saying how to find out: maps have the same
keys, in whatever order, with equal values under each; numbers are the same one, or both zero.
Where maps do not repeat keys, this is the program's equality (`Value.equal_iff_upToOrder`), which
so inherits that the relation is symmetric and transitive.

The check looks at the entries of a map in their order, and yet it lets pass both of two equal
values or neither (`Value.equal_values_alike`).
-/
import Mathlib.Data.List.Perm.Subperm
import MethodGuard.Proofs.TypeSpec.Inhabits
import MethodGuard.Proofs.Value.Equality

namespace MethodGuard

/-! ## 1. Numbers -/

namespace Double

variable {a b : Double}

/-- A zero is a number. -/
theorem not_isNaN_of_isZero (h : a.isZero = true) : ¬ a.isNaN = true := by
  rw [isZero, beq_iff_eq] at h
  rw [isNaN, Bool.and_eq_true, beq_iff_eq]
  rintro ⟨hexponent, -⟩
  simp only [exponentField, signBit, hiddenBit] at h hexponent
  omega

theorem equal_iff : a.equal b = true ↔
    (¬ a.isNaN = true ∧ a = b) ∨ (a.isZero = true ∧ b.isZero = true) := by
  simp only [equal, Bool.and_eq_true, Bool.or_eq_true, Bool.not_eq_true', beq_iff_eq]
  constructor
  · rintro ⟨⟨ha, -⟩, hbits | hzeros⟩
    · exact .inl ⟨Bool.eq_false_iff.mp ha, congrArg mk hbits⟩
    · exact .inr hzeros
  · rintro (⟨ha, rfl⟩ | ⟨ha, hb⟩)
    · exact ⟨⟨Bool.eq_false_iff.mpr ha, Bool.eq_false_iff.mpr ha⟩, .inl rfl⟩
    · exact ⟨⟨Bool.eq_false_iff.mpr (not_isNaN_of_isZero ha),
        Bool.eq_false_iff.mpr (not_isNaN_of_isZero hb)⟩, .inr ⟨ha, hb⟩⟩

end Double

namespace Value

/-! ## 2. The relation -/

/-- **Values that differ in the order of entries and the sign of zeros alone.** -/
inductive UpToOrder : Value → Value → Prop where
  | none : UpToOrder .none .none
  | boolean (b : Bool) : UpToOrder (.boolean b) (.boolean b)
  | integer (i : Int64) : UpToOrder (.integer i) (.integer i)
  | float {d : Double} : ¬ d.isNaN = true → UpToOrder (.float d) (.float d)
  | zeros {a b : Double} : a.isZero = true → b.isZero = true → UpToOrder (.float a) (.float b)
  | string (s : String) : UpToOrder (.string s) (.string s)
  | list {as bs : List Value} : as.length = bs.length →
      (∀ (i : Nat) (a b : Value), as[i]? = some a → bs[i]? = some b → UpToOrder a b) →
      UpToOrder (.list as) (.list bs)
  | map {as bs : List (String × Value)} : (as.map Prod.fst).Perm (bs.map Prod.fst) →
      (∀ (key : String) (a b : Value), (key, a) ∈ as → (key, b) ∈ bs → UpToOrder a b) →
      UpToOrder (.map as) (.map bs)

variable {a b c : Value} {as bs : List Value} {t : TypeSpec}

theorem UpToOrder.symm (h : a.UpToOrder b) : b.UpToOrder a := by
  induction h with
  | none => exact .none
  | boolean b => exact .boolean b
  | integer i => exact .integer i
  | float hd => exact .float hd
  | zeros ha hb => exact .zeros hb ha
  | string s => exact .string s
  | list hlength _ ih => exact .list hlength.symm fun i b a hb ha => ih i a b ha hb
  | map hkeys _ ih => exact .map hkeys.symm fun key b a hb ha => ih key a b ha hb

/-- A key that one of two lists of entries has, the other has too. -/
theorem exists_entry_of_perm {key : String} {a : Value} {as bs : List (String × Value)}
    (hkeys : (as.map Prod.fst).Perm (bs.map Prod.fst)) (ha : (key, a) ∈ as) :
    ∃ b, (key, b) ∈ bs := by
  have hkey : key ∈ bs.map Prod.fst := hkeys.mem_iff.mp (List.mem_map_of_mem (f := Prod.fst) ha)
  obtain ⟨⟨_, b⟩, hb, rfl⟩ := List.mem_map.mp hkey
  exact ⟨b, hb⟩

/-- A place that one of two lists has, the other has too. -/
theorem exists_item_of_length_eq {α : Type u} {β : Type v} {as : List α} {bs : List β} {i : Nat}
    {a : α} (hlength : as.length = bs.length) (ha : as[i]? = some a) : ∃ b, bs[i]? = some b := by
  have hi : i < bs.length := hlength ▸ (List.getElem?_eq_some_iff.mp ha).1
  exact ⟨bs[i], List.getElem?_eq_getElem hi⟩

theorem UpToOrder.trans (hab : a.UpToOrder b) (hbc : b.UpToOrder c) : a.UpToOrder c := by
  induction hab generalizing c with
  | none => exact hbc
  | boolean => exact hbc
  | integer => exact hbc
  | float => exact hbc
  | zeros ha hb =>
    cases hbc with
    | float => exact .zeros ha hb
    | zeros _ hc => exact .zeros ha hc
  | string => exact hbc
  | list hlength _ ih =>
    cases hbc with
    | list hlength' h =>
      refine .list (hlength.trans hlength') fun i a c ha hc => ?_
      obtain ⟨b, hb⟩ := exists_item_of_length_eq hlength ha
      exact ih i a b ha hb (h i b c hb hc)
  | map hkeys _ ih =>
    cases hbc with
    | map hkeys' h =>
      refine .map (hkeys.trans hkeys') fun key a c ha hc => ?_
      obtain ⟨b, hb⟩ := exists_entry_of_perm hkeys ha
      exact ih key a b ha hb (h key b c hb hc)

/-- **What inhabits a descriptor does so up to order.** -/
theorem UpToOrder.inhabits (h : a.UpToOrder b) (ha : a.Inhabits t) : b.Inhabits t := by
  -- the rules of inhabitants go to elements, which the two values share by place or by key
  induction ha generalizing b with
  | any => exact .any b
  | none =>
    cases h with
    | none => exact .none
  | boolean x =>
    cases h with
    | boolean => exact .boolean x
  | integer i =>
    cases h with
    | integer => exact .integer i
  | float =>
    cases h with
    | float => exact .float _
    | zeros => exact .float _
  | widened i =>
    cases h with
    | integer => exact .widened i
  | string s =>
    cases h with
    | string => exact .string s
  | list _ ih =>
    cases h with
    | list hlength h =>
      refine .list fun b hb => ?_
      obtain ⟨i, hb⟩ := List.mem_iff_getElem?.mp hb
      obtain ⟨a, ha⟩ := exists_item_of_length_eq hlength.symm hb
      exact ih a (List.mem_of_getElem? ha) (h i a b ha hb)
  | map _ ih =>
    cases h with
    | map hkeys h =>
      refine .map fun (key, b) hb => ?_
      obtain ⟨a, ha⟩ := exists_entry_of_perm hkeys.symm hb
      exact ih (key, a) ha (h key a b ha hb)
  | absent =>
    cases h with
    | none => exact .absent _
  | present _ ih => exact .present (ih h)
  | member ht _ ih => exact .member ht (ih h)

/-! ## 3. The program's equality -/

theorem equalItems_iff : equalItems as bs = true ↔ as.length = bs.length ∧
    ∀ (i : Nat) (a b : Value), as[i]? = some a → bs[i]? = some b → a.equal b = true := by
  induction as generalizing bs with
  | nil =>
    cases bs with
    | nil => exact iff_of_true rfl ⟨rfl, nofun⟩
    | cons b bs => exact iff_of_false nofun nofun
  | cons a as ih =>
    cases bs with
    | nil => exact iff_of_false nofun nofun
    | cons b bs =>
      rw [equalItems, Bool.and_eq_true, ih, List.length_cons, List.length_cons, Nat.succ_inj]
      constructor
      · rintro ⟨hab, hlength, h⟩
        refine ⟨hlength, fun i x y hx hy => ?_⟩
        cases i with
        | zero =>
          cases hx
          cases hy
          exact hab
        | succ i => exact h i x y hx hy
      · rintro ⟨hlength, h⟩
        exact ⟨h 0 a b rfl rfl, hlength, fun i x y hx hy => h (i + 1) x y hx hy⟩

theorem entriesWithin_iff {as bs : List (String × Value)} : entriesWithin as bs = true ↔
    ∀ entry ∈ as, ∃ b, bs.lookup entry.1 = some b ∧ entry.2.equal b = true := by
  induction as with
  | nil => exact iff_of_true rfl nofun
  | cons entry as ih =>
    obtain ⟨key, a⟩ := entry
    rw [entriesWithin, Bool.and_eq_true, ih, List.forall_mem_cons]
    refine and_congr_left fun _ => ?_
    cases bs.lookup key with
    | none => exact iff_of_false nofun nofun
    | some b => simp only [Option.some.injEq, exists_eq_left']

theorem equal_list_iff : (Value.list as).equal (.list bs) = true ↔ as.length = bs.length ∧
    ∀ (i : Nat) (a b : Value), as[i]? = some a → bs[i]? = some b → a.equal b = true := by
  rw [equal, equalItems_iff]

/-- **Maps without repeated keys are equal** when they have the same keys with equal values under
each. -/
theorem equal_map_iff {as bs : List (String × Value)} (has : (as.map Prod.fst).Nodup)
    (hbs : (bs.map Prod.fst).Nodup) : (Value.map as).equal (.map bs) = true ↔
    (as.map Prod.fst).Perm (bs.map Prod.fst) ∧
      ∀ (key : String) (a b : Value), (key, a) ∈ as → (key, b) ∈ bs → a.equal b = true := by
  have hfound : ∀ {key b}, bs.lookup key = some b ↔ (key, b) ∈ bs :=
    OrderedMap.find?_eq_some_iff_mem (m := ⟨bs⟩) hbs
  rw [equal, Bool.and_eq_true, beq_iff_eq, entriesWithin_iff]
  constructor
  · rintro ⟨hlength, h⟩
    -- the keys of the left are among those of the right, and as many: there are no others
    have hsubset : as.map Prod.fst ⊆ bs.map Prod.fst := fun key hkey => by
      obtain ⟨entry, hentry, rfl⟩ := List.mem_map.mp hkey
      obtain ⟨b, hb, -⟩ := h entry hentry
      exact List.mem_map.mpr ⟨(entry.1, b), hfound.mp hb, rfl⟩
    refine ⟨(List.subperm_of_subset has hsubset).perm_of_length_le ?_, fun key a b ha hb => ?_⟩
    · rw [List.length_map, List.length_map]
      exact Nat.le_of_eq hlength.symm
    · obtain ⟨b', hb', hequal⟩ := h (key, a) ha
      rw [hfound.mpr hb, Option.some.injEq] at hb'
      exact hb' ▸ hequal
  · rintro ⟨hkeys, h⟩
    refine ⟨by simpa using hkeys.length_eq, fun (key, a) ha => ?_⟩
    obtain ⟨b, hb⟩ := exists_entry_of_perm hkeys ha
    exact ⟨b, hfound.mpr hb, h key a b ha hb⟩

theorem upToOrder_list_iff : (Value.list as).UpToOrder (.list bs) ↔ as.length = bs.length ∧
    ∀ (i : Nat) (a b : Value), as[i]? = some a → bs[i]? = some b → a.UpToOrder b := by
  constructor
  · intro h
    cases h with
    | list hlength h => exact ⟨hlength, h⟩
  · rintro ⟨hlength, h⟩
    exact .list hlength h

theorem upToOrder_map_iff {as bs : List (String × Value)} :
    (Value.map as).UpToOrder (.map bs) ↔ (as.map Prod.fst).Perm (bs.map Prod.fst) ∧
      ∀ (key : String) (a b : Value), (key, a) ∈ as → (key, b) ∈ bs → a.UpToOrder b := by
  constructor
  · intro h
    cases h with
    | map hkeys h => exact ⟨hkeys, h⟩
  · rintro ⟨hkeys, h⟩
    exact .map hkeys h

theorem upToOrder_float_iff {a b : Double} : (Value.float a).UpToOrder (.float b) ↔
    (¬ a.isNaN = true ∧ a = b) ∨ (a.isZero = true ∧ b.isZero = true) := by
  constructor
  · intro h
    cases h with
    | float ha => exact .inl ⟨ha, rfl⟩
    | zeros ha hb => exact .inr ⟨ha, hb⟩
  · rintro (⟨ha, rfl⟩ | ⟨ha, hb⟩)
    · exact .float ha
    · exact .zeros ha hb

mutual

/-- **The program's equality is equality up to order**, where maps do not repeat keys. -/
theorem equal_iff_upToOrder : (a : Value) → {b : Value} → a.DistinctKeys → b.DistinctKeys →
    (a.equal b = true ↔ a.UpToOrder b)
  | .none, b, _, _ => by
    cases b with
    | none => exact iff_of_true rfl .none
    | _ => exact iff_of_false nofun nofun
  | .boolean x, b, _, _ => by
    cases b with
    | boolean y =>
      rw [equal, beq_iff_eq]
      exact ⟨fun h => h ▸ .boolean x, fun h => by cases h; rfl⟩
    | _ => exact iff_of_false nofun nofun
  | .integer i, b, _, _ => by
    cases b with
    | integer j =>
      rw [equal, beq_iff_eq]
      exact ⟨fun h => h ▸ .integer i, fun h => by cases h; rfl⟩
    | _ => exact iff_of_false nofun nofun
  | .float d, b, _, _ => by
    cases b with
    | float e => rw [equal, Double.equal_iff, upToOrder_float_iff]
    | _ => exact iff_of_false nofun nofun
  | .string s, b, _, _ => by
    cases b with
    | string t =>
      rw [equal, beq_iff_eq]
      exact ⟨fun h => h ▸ .string s, fun h => by cases h; rfl⟩
    | _ => exact iff_of_false nofun nofun
  | .list as, b, .list has, hb => by
    cases hb with
    | @list bs hbs =>
      have hitem : ∀ (i : Nat) (a b : Value), as[i]? = some a → bs[i]? = some b →
          (a.equal b = true ↔ a.UpToOrder b) := fun i a b ha hb =>
        have ha := List.mem_of_getElem? ha
        equal_iff_upToOrder_of_mem as a ha (has a ha) b (hbs b (List.mem_of_getElem? hb))
      rw [equal_list_iff, upToOrder_list_iff]
      exact and_congr_right fun _ =>
        ⟨fun h i a b ha hb => (hitem i a b ha hb).mp (h i a b ha hb),
          fun h i a b ha hb => (hitem i a b ha hb).mpr (h i a b ha hb)⟩
    | _ => exact iff_of_false nofun nofun
  | .map as, b, .map hkeys has, hb => by
    cases hb with
    | @map bs hkeys' hbs =>
      have hentry : ∀ (key : String) (a b : Value), (key, a) ∈ as → (key, b) ∈ bs →
          (a.equal b = true ↔ a.UpToOrder b) := fun key a b ha hb =>
        equal_iff_upToOrder_of_mem_entries as (key, a) ha (has (key, a) ha) b (hbs (key, b) hb)
      rw [equal_map_iff hkeys hkeys', upToOrder_map_iff]
      exact and_congr_right fun _ =>
        ⟨fun h key a b ha hb => (hentry key a b ha hb).mp (h key a b ha hb),
          fun h key a b ha hb => (hentry key a b ha hb).mpr (h key a b ha hb)⟩
    | _ => exact iff_of_false nofun nofun

theorem equal_iff_upToOrder_of_mem : (as : List Value) → ∀ a ∈ as, a.DistinctKeys →
    ∀ b : Value, b.DistinctKeys → (a.equal b = true ↔ a.UpToOrder b)
  | [] => nofun
  | a :: as => List.forall_mem_cons.mpr
    ⟨fun ha _ hb => equal_iff_upToOrder a ha hb, equal_iff_upToOrder_of_mem as⟩

theorem equal_iff_upToOrder_of_mem_entries : (as : List (String × Value)) → ∀ entry ∈ as,
    entry.2.DistinctKeys → ∀ b : Value, b.DistinctKeys →
      (entry.2.equal b = true ↔ entry.2.UpToOrder b)
  | [] => nofun
  | (_, a) :: as => List.forall_mem_cons.mpr
    ⟨fun ha _ hb => equal_iff_upToOrder a ha hb, equal_iff_upToOrder_of_mem_entries as⟩

end

/-! ## 4. Equal values and the check -/

/-- **Equal values are checked alike**, and equality is an equivalence on values without NaN.  Of
values whose maps do not repeat keys, equal are those that differ in the order of entries and the
sign of zeros alone; the exhaustive check lets pass both or neither. -/
theorem equal_values_alike :
    (∀ a b : Value, a.DistinctKeys → b.DistinctKeys →
      (a.equal b = true ↔ a.UpToOrder b) ∧
        (a.equal b = true → ∀ t : TypeSpec,
          t.check .allItems a = .ok () ↔ t.check .allItems b = .ok ())) ∧
      Equivalence fun a b : {v : Value // v.DistinctKeys ∧ ¬ v.HoldsNaN} =>
        a.val.equal b.val = true := by
  refine ⟨fun a b ha hb => ⟨equal_iff_upToOrder a ha hb, fun h t => ?_⟩, ?_⟩
  · have hab := (equal_iff_upToOrder a ha hb).mp h
    rw [TypeSpec.check_allItems_eq_ok_iff, TypeSpec.check_allItems_eq_ok_iff]
    exact ⟨hab.inhabits, hab.symm.inhabits⟩
  · refine ⟨fun a => ?_, fun {a b} hab => ?_, fun {a b c} hab hbc => ?_⟩
    · exact (equal_self_iff a.val a.property.1).mpr a.property.2
    · rw [equal_iff_upToOrder _ a.property.1 b.property.1] at hab
      exact (equal_iff_upToOrder _ b.property.1 a.property.1).mpr hab.symm
    · rw [equal_iff_upToOrder _ a.property.1 b.property.1] at hab
      rw [equal_iff_upToOrder _ b.property.1 c.property.1] at hbc
      exact (equal_iff_upToOrder _ a.property.1 c.property.1).mpr (hab.trans hbc)

/-- A map in a map, and a zero. -/
def shelf : Value :=
  .map [("box", .map [("size", .list [.integer 1]), ("lid", .none)]),
    ("weight", .float (Double.zero false))]

/-- The same with both maps the other way round, and the other zero. -/
def turnedShelf : Value :=
  .map [("weight", .float (Double.zero true)),
    ("box", .map [("lid", .none), ("size", .list [.integer 1])])]

/-- What is on a shelf. -/
def shelved : TypeSpec := .map (.union [.float, .map (.optional (.list .integer))])

theorem equal_values_alike_shelf :
    ((shelf.DistinctKeys ∧ ¬ shelf.HoldsNaN) ∧ (turnedShelf.DistinctKeys ∧ ¬ turnedShelf.HoldsNaN) ∧
      shelf.equal turnedShelf = true ∧ shelved.check .allItems shelf = .ok ()) ∧
    shelf.UpToOrder turnedShelf ∧ shelved.check .allItems turnedShelf = .ok () ∧
      turnedShelf.equal shelf = true := by
  have hbox : (Value.map [("size", .list [.integer 1]), ("lid", .none)]).DistinctKeys :=
    .map (by decide) (by simp [DistinctKeys.list, DistinctKeys.integer, DistinctKeys.none])
  have hturned : (Value.map [("lid", .none), ("size", .list [.integer 1])]).DistinctKeys :=
    .map (by decide) (by simp [DistinctKeys.list, DistinctKeys.integer, DistinctKeys.none])
  have hkeys : shelf.DistinctKeys := .map (by decide) (by simp [hbox, DistinctKeys.float])
  have hkeys' : turnedShelf.DistinctKeys := .map (by decide) (by simp [hturned, DistinctKeys.float])
  have hnumbers : ¬ shelf.HoldsNaN := (equal_self_iff shelf hkeys).mp (by decide)
  have hnumbers' : ¬ turnedShelf.HoldsNaN := (equal_self_iff turnedShelf hkeys').mp (by decide)
  have hequal : shelf.equal turnedShelf = true := by decide
  have hpasses : shelved.check .allItems shelf = .ok () := rfl
  obtain ⟨halike, hequivalence⟩ := equal_values_alike
  have hpair := halike shelf turnedShelf hkeys hkeys'
  refine ⟨⟨⟨hkeys, hnumbers⟩, ⟨hkeys', hnumbers'⟩, hequal, hpasses⟩, hpair.1.mp hequal,
    (hpair.2 hequal shelved).mp hpasses, ?_⟩
  exact hequivalence.symm (x := ⟨shelf, hkeys, hnumbers⟩) (y := ⟨turnedShelf, hkeys', hnumbers'⟩)
    hequal

end Value

end MethodGuard
