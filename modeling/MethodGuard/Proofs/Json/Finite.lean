/-
# The numbers of a text are finite

No text means data with a NaN or an infinity in it: a literal that is too large for a float is
refused, and the steps by which the others are scaled stay among the finite numbers
(`NumberLiteral.isFinite_float?`).  The integers of a text are those of its significands, so that
none is too large to be rounded to a finite number either (`Json.finite_read?`).
-/
import MethodGuard.Proofs.Number.Finite
import MethodGuard.Proofs.Value.Integer

namespace MethodGuard

/-- **Data whose numbers are all finite**, its integers none that 64 bits do not hold. -/
inductive Json.Finite : Json → Prop where
  | null : Finite .null
  | boolean (b : Bool) : Finite (.boolean b)
  | integer {n : Int} : n.natAbs < UInt64.size → Finite (.integer n)
  | float {d : Double} : d.isFinite = true → Finite (.float d)
  | string (s : String) : Finite (.string s)
  | array {items : List Json} : (∀ item ∈ items, Finite item) → Finite (.array items)
  | object {members : List (String × Json)} : (∀ m ∈ members, Finite m.2) →
      Finite (.object members)

theorem NumberLiteral.finite_meaning? {n : NumberLiteral} {j : Json} (h : n.meaning? = some j) :
    j.Finite := by
  by_cases hwhole : n.isWhole = true ∧ valueOf n.whole < UInt64.size
  · have hvalue : Int.natAbs (valueOf n.whole) < UInt64.size := hwhole.2
    rw [meaning?_of_whole hwhole.1 hwhole.2] at h
    obtain rfl := Option.some.inj h
    split
    · split
      · exact .float (Double.isFinite_neg (Double.isFinite_ofInt hvalue))
      · exact .integer (by rwa [Int.natAbs_neg])
    · exact .integer hvalue
  · rw [meaning?_of_not_whole hwhole] at h
    obtain ⟨d, hd, rfl⟩ := Option.map_eq_some_iff.mp h
    have hfinite := isFinite_float? hd
    split
    · exact .float (Double.isFinite_neg hfinite)
    · exact .float hfinite

/-- What is in one of two lists of related elements has a partner in the other. -/
theorem exists_of_mem_right {α : Type u} {β : Type v} {R : α → β → Prop} {as : List α} {bs : List β}
    (h : List.Forall₂ R as bs) {b : β} (hb : b ∈ bs) : ∃ a ∈ as, R a b := by
  induction h with
  | nil => cases hb
  | @cons a b' as bs hab _ ih =>
    rcases List.mem_cons.mp hb with rfl | hb
    · exact ⟨a, List.mem_cons_self, hab⟩
    · obtain ⟨x, hx, hxb⟩ := ih hb
      exact ⟨x, List.mem_cons_of_mem _ hx, hxb⟩

/-- **What a text means is finite.** -/
theorem Written.finite_meaning? : (depth : Nat) → (w : Written) → ∀ {j : Json},
    w.meaning? depth = some j → j.Finite
  | _, .null, j, h => by
    rw [meaning?] at h
    cases h
    exact .null
  | _, .boolean b, j, h => by
    rw [meaning?] at h
    cases h
    exact .boolean b
  | _, .number n, j, h => NumberLiteral.finite_meaning? (by rwa [meaning?] at h)
  | _, .string pieces, j, h => by
    rw [meaning?] at h
    obtain ⟨s, -, rfl⟩ := Option.map_eq_some_iff.mp h
    exact .string s
  | 0, .array _, _, h => nomatch h
  | 0, .object _, _, h => nomatch h
  | depth + 1, .array ws, j, h => by
    rw [meaning?] at h
    obtain ⟨items, hitems, rfl⟩ := Option.map_eq_some_iff.mp h
    refine .array fun item hitem => ?_
    obtain ⟨w, -, hw⟩ := exists_of_mem_right (mapM_eq_some_iff.mp hitems) hitem
    exact finite_meaning? depth w hw
  | depth + 1, .object ms, j, h => by
    rw [meaning?_object] at h
    obtain ⟨members, hmembers, rfl⟩ := Option.map_eq_some_iff.mp h
    refine .object fun m hm => ?_
    obtain ⟨written, -, hwritten⟩ := exists_of_mem_right (mapM_eq_some_iff.mp hmembers) hm
    rw [member?] at hwritten
    split at hwritten
    · rename_i key value _ hvalue
      obtain rfl := Option.some.inj hwritten
      exact finite_meaning? depth written.2 hvalue
    · cases hwritten

theorem Json.finite_read? {text : String} {j : Json} (h : read? text = some j) : j.Finite := by
  obtain ⟨w, -, hw⟩ := Option.bind_eq_some_iff.mp h
  exact Written.finite_meaning? _ w hw

end MethodGuard
