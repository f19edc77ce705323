/-
# Which literals are integers

A number in a JSON text becomes an integer or a float by the way it is written.  It is an integer
exactly when it has neither a fraction nor an exponent, is not minus zero, and 64 bits hold it
(`NumberLiteral.WritesInteger`); no other literal becomes one, and no other piece of a text does
(`Written.meaning?_eq_integer_iff`).

A literal's digits are taken into a significand of 64 bits, which holds more integers than a value
does.  So there are two bounds: what the significand has no room for is a float already when it is
read (`accumulate_snd_eq_zero_iff`), and what is above the greatest integer becomes one after that.
-/
import Mathlib.Data.List.Forall2
import MethodGuard.Proofs.Value.RoundTrip

namespace MethodGuard

/-! ## 1. Literals -/

namespace NumberLiteral

/-- The integer that the whole part of a number stands for, with its sign. -/
def wholeValue (n : NumberLiteral) : Int :=
  if n.negative then -(valueOf n.whole : Int) else valueOf n.whole

/-- **The literal is written as an integer of 64 bits**: no fraction, no exponent, and not minus
zero. -/
structure WritesInteger (n : NumberLiteral) (i : Int64) : Prop where
  fraction : n.fraction = none
  exponent : n.exponent = none
  not_minusZero : ¬ (n.negative = true ∧ valueOf n.whole = 0)
  value : n.wholeValue = i.toInt

/-- Digits are all taken in exactly when the significand has room for their value. -/
theorem accumulate_snd_eq_zero_iff {digits : List Nat} {s : Nat} (hs : s < UInt64.size) :
    (accumulate s digits).2 = 0 ↔ digits.foldl (fun n d => n * 10 + d) s < UInt64.size := by
  refine ⟨fun h => ?_, fun h => by rw [accumulate_eq h]⟩
  induction digits generalizing s with
  | nil => exact hs
  | cons d digits ih =>
    rw [accumulate] at h
    split at h
    · rename_i hroom
      exact ih hroom h
    · cases h

variable {n : NumberLiteral} {i : Int64}

/-- What a number without fraction and exponent means, if the significand has room for it. -/
theorem meaning?_of_whole (hwhole : n.isWhole = true) (hroom : valueOf n.whole < UInt64.size) :
    n.meaning? = some (
      if n.negative = true then
        if valueOf n.whole = 0 ∨ 0x8000000000000000 < valueOf n.whole then
          .float (Double.ofInt (valueOf n.whole)).neg
        else .integer (-(valueOf n.whole : Int))
      else .integer (valueOf n.whole)) := by
  rw [meaning?, accumulate_eq hroom]
  simp only [hwhole, Bool.true_and, beq_self_eq_true, if_true, Bool.or_eq_true, decide_eq_true_eq]
  rw [← valueOf]
  split
  · split <;> rfl
  · rfl

/-- Any other number is a float. -/
theorem meaning?_of_not_whole
    (h : ¬ (n.isWhole = true ∧ valueOf n.whole < UInt64.size)) :
    n.meaning? = n.float?.map fun f => .float (if n.negative then f.neg else f) := by
  have hleft : (n.isWhole && (accumulate 0 n.whole).2 == 0) = false := by
    rw [← Bool.not_eq_true, Bool.and_eq_true, beq_iff_eq,
      accumulate_snd_eq_zero_iff (by decide)]
    exact h
  simp only [meaning?, hleft, Bool.false_eq_true, if_false]

/-- **A literal becomes an integer exactly when it is written as one.** -/
theorem meaning?_eq_integer_iff : n.meaning? = some (.integer i.toInt) ↔ n.WritesInteger i := by
  have hmin := Int64.le_toInt i
  have hmax := Int64.toInt_lt i
  have hsize : UInt64.size = 0x10000000000000000 := rfl
  by_cases h : n.isWhole = true ∧ valueOf n.whole < UInt64.size
  · rw [meaning?_of_whole h.1 h.2, Option.some.injEq]
    obtain ⟨hfraction, hexponent⟩ : n.fraction = none ∧ n.exponent = none := by
      simpa [isWhole] using h.1
    have hwritten : n.WritesInteger i ↔
        ¬ (n.negative = true ∧ valueOf n.whole = 0) ∧ n.wholeValue = i.toInt :=
      ⟨fun h => ⟨h.not_minusZero, h.value⟩, fun h => ⟨hfraction, hexponent, h.1, h.2⟩⟩
    rw [hwritten, wholeValue]
    by_cases hnegative : n.negative = true
    · rw [if_pos hnegative, if_pos hnegative]
      split
      · rename_i hlarge
        refine iff_of_false nofun fun h => ?_
        rcases hlarge with hzero | hlarge
        · exact h.1 ⟨hnegative, hzero⟩
        · have hvalue := h.2
          omega
      · rename_i hlarge
        rw [Json.integer.injEq]
        exact (and_iff_right fun h => hlarge (Or.inl h.2)).symm
    · rw [if_neg hnegative, if_neg hnegative, Json.integer.injEq]
      exact (and_iff_right fun h => hnegative h.1).symm
  · rw [meaning?_of_not_whole h]
    refine iff_of_false ?_ fun hwritten => h ⟨?_, ?_⟩
    · cases n.float? <;> simp
    · simp [isWhole, hwritten.fraction, hwritten.exponent]
    · have hvalue := hwritten.value
      rw [wholeValue] at hvalue
      split at hvalue <;> omega

/-- A literal means a number. -/
theorem meaning?_cases {j : Json} (h : n.meaning? = some j) :
    (∃ m, j = .integer m) ∨ ∃ d, j = .float d := by
  by_cases hwhole : n.isWhole = true ∧ valueOf n.whole < UInt64.size
  · rw [meaning?_of_whole hwhole.1 hwhole.2] at h
    obtain rfl := Option.some.inj h
    split
    · split
      · exact Or.inr ⟨_, rfl⟩
      · exact Or.inl ⟨_, rfl⟩
    · exact Or.inl ⟨_, rfl⟩
  · rw [meaning?_of_not_whole hwhole] at h
    obtain ⟨d, -, rfl⟩ := Option.map_eq_some_iff.mp h
    exact Or.inr ⟨_, rfl⟩

end NumberLiteral

/-! ## 2. Values -/

namespace Value

theorem ofInt_eq_integer_iff {n : Int} {i : Int64} : ofInt n = .integer i ↔ n = i.toInt := by
  constructor
  · intro h
    rw [ofInt] at h
    split at h
    · rename_i hfits
      rw [← Value.integer.inj h, toInt_ofInt_of_fits hfits]
    · cases h
  · rintro rfl
    exact ofInt_toInt i

theorem ofJson_eq_integer_iff {j : Json} {i : Int64} :
    ofJson j = .integer i ↔ j = .integer i.toInt := by
  cases j with
  | integer n => rw [ofJson, ofInt_eq_integer_iff, Json.integer.injEq]
  | _ => exact iff_of_false nofun nofun

end Value

/-! ## 3. Texts -/

/-- Results of a list, when there is one for every item. -/
theorem mapM_eq_some_iff {α : Type u} {β : Type v} {f : α → Option β} {as : List α} {bs : List β} :
    as.mapM f = some bs ↔ List.Forall₂ (fun a b => f a = some b) as bs := by
  induction as generalizing bs with
  | nil => cases bs <;> simp
  | cons a as ih =>
    simp only [List.mapM_cons, Option.bind_eq_bind, Option.bind_eq_some_iff, Option.pure_def,
      Option.some.injEq]
    constructor
    · rintro ⟨b, hb, bs', hbs, rfl⟩
      exact .cons hb (ih.mp hbs)
    · rintro (_ | ⟨hb, hbs⟩)
      exact ⟨_, hb, _, ih.mpr hbs, rfl⟩

namespace Written

theorem meaning?_number (n : NumberLiteral) (depth : Nat) :
    (number n).meaning? depth = n.meaning? := by
  cases depth <;> rfl

/-- **A part of a text is an integer exactly when it is a literal written as one**, whatever is
allowed to nest around it. -/
theorem meaning?_eq_integer_iff {w : Written} {depth : Nat} {i : Int64} :
    (w.meaning? depth).map Value.ofJson = some (.integer i) ↔
      ∃ n, w = .number n ∧ n.WritesInteger i := by
  have hmap : (w.meaning? depth).map Value.ofJson = some (.integer i) ↔
      w.meaning? depth = some (.integer i.toInt) := by
    simp only [Option.map_eq_some_iff, Value.ofJson_eq_integer_iff, exists_eq_right]
  rw [hmap]
  cases w with
  | number n =>
    rw [meaning?_number, NumberLiteral.meaning?_eq_integer_iff]
    exact ⟨fun h => ⟨n, rfl, h⟩, fun ⟨_, hn, h⟩ => Written.number.inj hn ▸ h⟩
  | _ =>
    refine iff_of_false (fun h => ?_) nofun
    cases depth <;> simp [Written.meaning?] at h

theorem meaning?_eq_array_iff {w : Written} {depth : Nat} {items : List Json} :
    w.meaning? (depth + 1) = some (.array items) ↔
      ∃ ws, w = .array ws ∧ List.Forall₂ (fun w j => w.meaning? depth = some j) ws items := by
  cases w with
  | array ws => simp [meaning?, mapM_eq_some_iff]
  | number n =>
    refine iff_of_false (fun h => ?_) (by simp)
    rw [meaning?_number] at h
    rcases NumberLiteral.meaning?_cases h with ⟨_, hj⟩ | ⟨_, hj⟩ <;> cases hj
  | _ => simp [meaning?]

/-- **Parts of a text are integers exactly when they are literals written as integers.** -/
theorem forall₂_integers_iff {ws : List Written} {depth : Nat} {numbers : List Int64} :
    (∃ items, List.Forall₂ (fun w j => w.meaning? depth = some j) ws items ∧
        items.map Value.ofJson = numbers.map .integer) ↔
      ∃ literals : List NumberLiteral, ws = literals.map .number ∧
        List.Forall₂ NumberLiteral.WritesInteger literals numbers := by
  induction ws generalizing numbers with
  | nil =>
    constructor
    · rintro ⟨items, hitems, hnumbers⟩
      cases hitems
      obtain rfl := List.map_eq_nil_iff.mp hnumbers.symm
      exact ⟨[], rfl, .nil⟩
    · rintro ⟨literals, hliterals, h⟩
      obtain rfl := List.map_eq_nil_iff.mp hliterals.symm
      cases h
      exact ⟨[], .nil, rfl⟩
  | cons w ws ih =>
    constructor
    · rintro ⟨items, hitems, hnumbers⟩
      cases hitems with
      | @cons _ j _ rest hj hrest =>
        obtain ⟨i, others, rfl, hi, hothers⟩ := List.map_eq_cons_iff.mp hnumbers.symm
        have hvalue : (w.meaning? depth).map Value.ofJson = some (.integer i) := by
          rw [hj, Option.map_some, hi]
        obtain ⟨n, rfl, hn⟩ := meaning?_eq_integer_iff.mp hvalue
        obtain ⟨literals, rfl, hliterals⟩ := ih.mp ⟨rest, hrest, hothers.symm⟩
        exact ⟨n :: literals, rfl, .cons hn hliterals⟩
    · rintro ⟨literals, hliterals, h⟩
      obtain ⟨n, rest, rfl, rfl, rfl⟩ := List.map_eq_cons_iff.mp hliterals.symm
      cases h with
      | cons hn hrest =>
        obtain ⟨items, hitems, hvalues⟩ := ih.mpr ⟨rest, rfl, hrest⟩
        obtain ⟨j, hj, hvalue⟩ := Option.map_eq_some_iff.mp
          (meaning?_eq_integer_iff.mpr ⟨n, rfl, hn⟩ : ((number n).meaning? depth).map _ = _)
        exact ⟨j :: items, .cons hj hitems, by rw [List.map_cons, hvalue, hvalues, List.map_cons]⟩

end Written

end MethodGuard
