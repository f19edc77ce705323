/-
# Rounding stays finite

`Double.ofRatio` is the one place where anything is rounded, and it never gives a NaN: what lies
beyond the finite numbers becomes an infinity (`isFinite_of_not_isInfinite`).  What does not lie
beyond them stays finite: a quotient that is at most the greatest finite number is rounded to a
finite number (`isFinite_ofRatio`).

Both sides of a quotient are counted in units of the least number, `2 ^ (-1074)`.  A scale is then a
power of two, and the two branches that `scaleOf` and `roundAt` have for it are one (`scaleOf_eq`,
`roundAt_eq`).
-/
import Mathlib.Algebra.Ring.Nat
import MethodGuard.Json.Number

namespace MethodGuard

namespace Double

/-! ## 1. Fields -/

variable {negative : Bool} {magnitude : Nat}

theorem toNat_bits_ofSignMagnitude (h : magnitude < signBit) :
    (ofSignMagnitude negative magnitude).bits.toNat =
      if negative then signBit + magnitude else magnitude := by
  rw [ofSignMagnitude, UInt64.toNat_ofNat']
  have hsize : 2 ^ 64 = signBit + signBit := rfl
  split <;> omega

theorem exponentField_ofSignMagnitude (h : magnitude < signBit) :
    (ofSignMagnitude negative magnitude).exponentField = magnitude / hiddenBit := by
  rw [exponentField, toNat_bits_ofSignMagnitude h]
  simp only [signBit, hiddenBit] at h ⊢
  split <;> omega

theorem isFinite_iff {d : Double} : d.isFinite = true ↔ d.exponentField ≠ 2047 := by
  simp [isFinite]

theorem isFinite_ofSignMagnitude (h : magnitude < infinityMagnitude) :
    (ofSignMagnitude negative magnitude).isFinite = true := by
  simp only [infinityMagnitude, hiddenBit] at h
  rw [isFinite_iff, exponentField_ofSignMagnitude (by simp only [signBit]; omega), hiddenBit]
  omega

theorem isFinite_zero (negative : Bool) : (zero negative).isFinite = true :=
  isFinite_ofSignMagnitude (by decide)

theorem isInfinite_infinity (negative : Bool) : (infinity negative).isInfinite = true := by
  cases negative <;> decide

/-- The exponent field has its place below the sign. -/
theorem exponentField_eq (d : Double) :
    d.exponentField = d.bits.toNat % signBit / hiddenBit := by
  rw [exponentField]
  simp only [signBit, hiddenBit]
  omega

theorem isFinite_neg {d : Double} (h : d.isFinite = true) : d.neg.isFinite = true := by
  rw [isFinite_iff, exponentField_eq] at h
  have hlt : d.bits.toNat % signBit < signBit := Nat.mod_lt _ (by decide)
  rw [isFinite_iff, neg, exponentField_ofSignMagnitude hlt]
  exact h

theorem not_isNaN_of_isFinite {d : Double} (h : d.isFinite = true) : ¬ d.isNaN = true := by
  rw [isFinite_iff] at h
  simp [isNaN, h]

/-! ## 2. Rounding a quotient -/

variable {num den k : Nat}

/-- What is at most a whole number is not rounded beyond it. -/
theorem divNearestEven_le (hden : 0 < den) (h : num ≤ k * den) : divNearestEven num den ≤ k := by
  have hdiv : num / den ≤ k := Nat.div_le_of_le_mul (by rwa [Nat.mul_comm])
  have hmod : den * (num / den) + num % den = num := Nat.div_add_mod num den
  simp only [divNearestEven, Bool.or_eq_true, Bool.and_eq_true, decide_eq_true_eq, beq_iff_eq]
  split
  · refine Nat.lt_of_le_of_ne hdiv fun heq => ?_
    rw [heq, Nat.mul_comm] at hmod
    omega
  · exact hdiv

theorem divNearestEven_mul_right (hk : 0 < k) (num den : Nat) :
    divNearestEven (num * k) (den * k) = divNearestEven num den := by
  have hgt : 2 * (num % den * k) > den * k ↔ 2 * (num % den) > den := by
    rw [← Nat.mul_assoc]
    exact Nat.mul_lt_mul_right hk
  have heq : 2 * (num % den * k) = den * k ↔ 2 * (num % den) = den := by
    rw [← Nat.mul_assoc]
    exact Nat.mul_left_inj (Nat.ne_of_gt hk)
  simp only [divNearestEven, Nat.mul_div_mul_right _ _ hk, Nat.mul_mod_mul_right, Bool.or_eq_true,
    Bool.and_eq_true, decide_eq_true_eq, beq_iff_eq, hgt, heq]

/-- The scale at which a mantissa is a whole number. -/
@[irreducible] def unitScale : Nat := 1074

/-- The scale of the greatest finite numbers. -/
@[irreducible] def greatestScale : Nat := 2045

/-- The greatest finite number. -/
def greatest : Nat := (2 ^ 53 - 1) * 2 ^ (greatestScale - unitScale)

theorem shiftLeft_sub_mul {m n : Nat} (h : m ≤ n) (a : Nat) :
    a <<< (n - m) * 2 ^ m = a * 2 ^ n := by
  rw [Nat.shiftLeft_eq, Nat.mul_assoc, ← Nat.pow_add, Nat.sub_add_cancel h]

theorem roundAt_eq (num den scale : Nat) :
    roundAt num den scale = divNearestEven (num * 2 ^ unitScale) (den * 2 ^ scale) := by
  rw [roundAt, ← unitScale]
  split
  · rename_i h
    rw [← divNearestEven_mul_right (Nat.two_pow_pos unitScale), shiftLeft_sub_mul h]
  · rename_i h
    rw [← divNearestEven_mul_right (Nat.two_pow_pos scale), shiftLeft_sub_mul (Nat.le_of_not_le h)]

/-- The first guess of a scale. -/
def guess (num den : Nat) : Nat := num.log2 + unitScale - (den.log2 + 52)

theorem scaleOf_eq (num den : Nat) : scaleOf num den =
    if num * 2 ^ unitScale / (den * 2 ^ guess num den) < hiddenBit then guess num den - 1
    else guess num den := by
  rw [scaleOf, ← unitScale, ← guess]
  generalize guess num den = scale
  have hshort : (if unitScale ≤ scale then num / den <<< (scale - unitScale) < hiddenBit
        else num <<< (unitScale - scale) / den < hiddenBit) ↔
      num * 2 ^ unitScale / (den * 2 ^ scale) < hiddenBit := by
    split
    · rename_i h
      rw [← shiftLeft_sub_mul h, Nat.mul_div_mul_right _ _ (Nat.two_pow_pos unitScale)]
    · rename_i h
      rw [← shiftLeft_sub_mul (Nat.le_of_not_le h),
        Nat.mul_div_mul_right _ _ (Nat.two_pow_pos scale)]
  simp only [hshort]

/-- One scale further, a mantissa has one bit less. -/
theorem mul_two_pow_succ (a b scale : Nat) :
    a * (b * 2 ^ (scale + 1)) = 2 * a * (b * 2 ^ scale) := by
  rw [Nat.pow_succ, ← Nat.mul_assoc b, ← Nat.mul_assoc a, Nat.mul_comm, ← Nat.mul_assoc 2]

/-- **The scale leaves a mantissa of at most 53 bits.** -/
theorem lt_mul_scaleOf (hden : den ≠ 0) :
    num * 2 ^ unitScale < 2 ^ 53 * (den * 2 ^ scaleOf num den) := by
  have hguess : num * 2 ^ unitScale < 2 ^ 53 * (den * 2 ^ guess num den) := by
    have hexponent : num.log2 + 1 + unitScale ≤ 53 + (den.log2 + guess num den) := by
      simp only [guess]
      omega
    calc num * 2 ^ unitScale < 2 ^ (num.log2 + 1) * 2 ^ unitScale :=
          Nat.mul_lt_mul_of_pos_right Nat.lt_log2_self (Nat.two_pow_pos _)
      _ = 2 ^ (num.log2 + 1 + unitScale) := (Nat.pow_add 2 _ _).symm
      _ ≤ 2 ^ (53 + (den.log2 + guess num den)) := Nat.pow_le_pow_right (by decide) hexponent
      _ = 2 ^ 53 * (2 ^ den.log2 * 2 ^ guess num den) := by rw [Nat.pow_add, Nat.pow_add]
      _ ≤ 2 ^ 53 * (den * 2 ^ guess num den) :=
          Nat.mul_le_mul_left _ (Nat.mul_le_mul_right _ (Nat.log2_self_le hden))
  have hbits : 2 * hiddenBit = 2 ^ 53 := by decide
  rw [scaleOf_eq]
  split
  · rename_i hshort
    cases hscale : guess num den with
    | zero =>
      rw [hscale] at hguess
      exact hguess
    | succ scale =>
      rw [hscale, Nat.div_lt_iff_lt_mul (Nat.mul_pos (Nat.pos_of_ne_zero hden)
        (Nat.two_pow_pos _)), mul_two_pow_succ, hbits] at hshort
      exact hshort
  · exact hguess

theorem greatest_mul : greatest * 2 ^ unitScale = (2 ^ 53 - 1) * 2 ^ greatestScale := by
  have hle : unitScale ≤ greatestScale := by simp [unitScale, greatestScale]
  rw [greatest, Nat.mul_assoc, ← Nat.pow_add, Nat.sub_add_cancel hle]

theorem greatest_lt : greatest < 2 ^ (53 + (greatestScale - unitScale)) := by
  rw [greatest, Nat.pow_add]
  exact Nat.mul_lt_mul_of_pos_right (by decide) (Nat.two_pow_pos _)

/-- What is not beyond the finite numbers has one of their scales. -/
theorem scaleOf_le (hnum : num ≠ 0) (hden : den ≠ 0) (h : num ≤ greatest * den) :
    scaleOf num den ≤ greatestScale := by
  have hlog : num.log2 < 53 + (greatestScale - unitScale) + (den.log2 + 1) := by
    rw [Nat.log2_lt hnum, Nat.pow_add]
    exact Nat.lt_of_le_of_lt h (Nat.mul_lt_mul'' greatest_lt Nat.lt_log2_self)
  have hguess : guess num den ≤ greatestScale + 1 := by
    simp only [guess, greatestScale, unitScale] at hlog ⊢
    omega
  rw [scaleOf_eq]
  split
  · omega
  · rename_i hlong
    refine Nat.le_of_lt_succ (Nat.lt_of_le_of_ne hguess fun heq => hlong ?_)
    have hplace (scale : Nat) : 0 < den * 2 ^ scale :=
      Nat.mul_pos (Nat.pos_of_ne_zero hden) (Nat.two_pow_pos _)
    rw [heq, Nat.div_lt_iff_lt_mul (hplace _), mul_two_pow_succ]
    calc num * 2 ^ unitScale ≤ greatest * den * 2 ^ unitScale := Nat.mul_le_mul_right _ h
      _ = (2 ^ 53 - 1) * (den * 2 ^ greatestScale) := by
        rw [Nat.mul_right_comm, greatest_mul, Nat.mul_assoc, Nat.mul_comm den]
      _ < 2 * hiddenBit * (den * 2 ^ greatestScale) :=
        Nat.mul_lt_mul_of_pos_right (by decide) (hplace _)

/-- **A quotient that is not beyond the finite numbers is rounded to one of them.** -/
theorem isFinite_ofRatio (negative : Bool) (hden : den ≠ 0) (h : num ≤ greatest * den) :
    (ofRatio negative num den).isFinite = true := by
  unfold ofRatio
  split
  · exact isFinite_zero negative
  · rename_i hnum
    have hplace : 0 < den * 2 ^ scaleOf num den :=
      Nat.mul_pos (Nat.pos_of_ne_zero hden) (Nat.two_pow_pos _)
    have hscale := scaleOf_le hnum hden h
    refine isFinite_ofSignMagnitude (Nat.lt_of_le_of_lt (Nat.min_le_left _ _) ?_)
    rw [roundAt_eq]
    rcases Nat.lt_or_eq_of_le hscale with hlt | heq
    · have hround : divNearestEven (num * 2 ^ unitScale) (den * 2 ^ scaleOf num den) ≤
          2 ^ 53 := divNearestEven_le hplace (Nat.le_of_lt (lt_mul_scaleOf hden))
      simp only [infinityMagnitude, hiddenBit, greatestScale] at hlt hround ⊢
      omega
    · have hround : divNearestEven (num * 2 ^ unitScale) (den * 2 ^ scaleOf num den) ≤
          2 ^ 53 - 1 := by
        refine divNearestEven_le hplace ?_
        rw [heq, Nat.mul_comm den, ← Nat.mul_assoc, ← greatest_mul, Nat.mul_right_comm]
        exact Nat.mul_le_mul_right _ h
      simp only [infinityMagnitude, hiddenBit, greatestScale] at heq hround ⊢
      omega

/-- Rounding gives a number or an infinity. -/
theorem isFinite_of_not_isInfinite (negative : Bool) (num den : Nat)
    (h : ¬ (ofRatio negative num den).isInfinite = true) :
    (ofRatio negative num den).isFinite = true := by
  unfold ofRatio at h ⊢
  split
  · exact isFinite_zero negative
  · rename_i hnum
    rw [if_neg hnum] at h
    refine isFinite_ofSignMagnitude (Nat.lt_of_le_of_ne (Nat.min_le_right _ _) fun heq => h ?_)
    simp only [heq]
    exact isInfinite_infinity negative

/-! ## 3. Arithmetic on finite numbers -/

theorem isFinite_ofInt {n : Int} (h : n.natAbs < UInt64.size) : (ofInt n).isFinite = true := by
  have hsize : UInt64.size ≤ greatest := by decide +kernel
  refine isFinite_ofRatio _ (by decide) ?_
  rw [Nat.mul_one]
  exact Nat.le_of_lt (Nat.lt_of_lt_of_le h hsize)

/-- The ratio of a finite number is not beyond the finite numbers. -/
theorem ratio_le {d : Double} (h : d.isFinite = true) :
    d.ratio.2 ≠ 0 ∧ d.ratio.1 ≤ greatest * d.ratio.2 := by
  have hmantissa : d.mantissa ≤ 2 ^ 53 - 1 := by
    have hfraction : d.fractionField < hiddenBit := Nat.mod_lt _ (by decide)
    simp only [mantissa, hiddenBit] at hfraction ⊢
    split <;> omega
  have hscale : d.scale ≤ greatestScale := by
    have hfield : d.exponentField < 2048 := Nat.mod_lt _ (by decide)
    rw [isFinite_iff] at h
    simp only [scale, greatestScale]
    omega
  rw [ratio, ← unitScale]
  split
  · refine ⟨Nat.one_ne_zero, ?_⟩
    rw [Nat.shiftLeft_eq, Nat.mul_one, greatest]
    have hplace : 2 ^ (d.scale - unitScale) ≤ 2 ^ (greatestScale - unitScale) :=
      Nat.pow_le_pow_right (by decide) (Nat.sub_le_sub_right hscale _)
    exact Nat.mul_le_mul hmantissa hplace
  · rw [Nat.shiftLeft_eq, Nat.one_mul]
    refine ⟨Nat.ne_of_gt (Nat.two_pow_pos _), ?_⟩
    calc d.mantissa ≤ 2 ^ 53 - 1 := hmantissa
      _ ≤ greatest := Nat.le_mul_of_pos_right _ (Nat.two_pow_pos _)
      _ ≤ greatest * 2 ^ (unitScale - d.scale) := Nat.le_mul_of_pos_right _ (Nat.two_pow_pos _)

/-- Dividing by what is at least one does not go beyond the finite numbers. -/
theorem isFinite_divMagnitude {a b : Double} (ha : a.isFinite = true)
    (hb : b.ratio.2 ≠ 0 ∧ b.ratio.2 ≤ b.ratio.1) : (a.divMagnitude b).isFinite = true := by
  obtain ⟨hden, hle⟩ := ratio_le ha
  have hnum : b.ratio.1 ≠ 0 := fun h => hb.1 (Nat.le_zero.mp (h ▸ hb.2))
  refine isFinite_ofRatio _ (Nat.mul_ne_zero hden hnum) ?_
  calc a.ratio.1 * b.ratio.2 ≤ greatest * a.ratio.2 * b.ratio.1 := Nat.mul_le_mul hle hb.2
    _ = greatest * (a.ratio.2 * b.ratio.1) := Nat.mul_assoc ..

end Double

/-! ## 4. Literals -/

namespace NumberLiteral

/-- A power of ten is at least one. -/
theorem ratio_powerOfTen {k : Nat} (h : k ≤ 308) :
    (powerOfTen k).ratio.2 ≠ 0 ∧ (powerOfTen k).ratio.2 ≤ (powerOfTen k).ratio.1 := by
  have hall : ∀ k < 309, (powerOfTen k).ratio.2 ≠ 0 ∧
      (powerOfTen k).ratio.2 ≤ (powerOfTen k).ratio.1 := by decide +kernel
  exact hall k (Nat.lt_succ_of_le h)

/-- **Scaling keeps a number finite**, or finds it too large. -/
theorem isFinite_scale? {f d : Double} {e : Int} (hf : f.isFinite = true)
    (h : scale? f e = some d) : d.isFinite = true := by
  fun_induction scale? f e with
  | case1 => cases h
  | case2 f e he hpos product hinfinite =>
    obtain rfl := Option.some.inj h
    exact Double.isFinite_of_not_isInfinite _ _ _ hinfinite
  | case3 f e he hneg =>
    obtain rfl := Option.some.inj h
    exact Double.isFinite_divMagnitude hf (ratio_powerOfTen he)
  | case4 =>
    obtain rfl := Option.some.inj h
    exact hf
  | case5 => cases h
  | case6 f e he hzero hneg ih =>
    exact ih (Double.isFinite_divMagnitude hf (ratio_powerOfTen (Nat.le_refl _))) h

theorem accumulate_fst_lt {digits : List Nat} {s : Nat} (hs : s < UInt64.size) :
    (accumulate s digits).1 < UInt64.size := by
  induction digits generalizing s with
  | nil => exact hs
  | cons d digits ih =>
    rw [accumulate]
    split
    · rename_i hroom
      exact ih hroom
    · exact hs

theorem significand_fst_lt (n : NumberLiteral) : n.significand.1 < UInt64.size :=
  accumulate_fst_lt (accumulate_fst_lt (by decide))

/-- **The float of a literal is a finite number.** -/
theorem isFinite_float? {n : NumberLiteral} {d : Double} (h : n.float? = some d) :
    d.isFinite = true := by
  have hs : (Double.ofInt n.significand.1).isFinite = true :=
    Double.isFinite_ofInt (by rw [Int.natAbs_natCast]; exact n.significand_fst_lt)
  unfold float? at h
  simp only at h
  split at h
  · exact isFinite_scale? hs h
  · split at h
    · exact isFinite_scale? hs h
    · split at h
      · obtain rfl := Option.some.inj h
        exact Double.isFinite_zero false
      · cases h

end NumberLiteral

end MethodGuard
