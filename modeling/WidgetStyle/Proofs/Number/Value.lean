import Mathlib.Algebra.Order.Field.Rat
import WidgetStyle.Proofs.Number.Range

/-!
# The values of binary numbers

A binary number has a rational value, and its exponent bits tell that it is finite.  Clamping
brings a number into the interval from zero to one.  Rounding does not carry a quotient past a
number that is itself a multiple of the rounding step.
-/

namespace WidgetStyle.Number

/-! ## Rounding below a bound -/

theorem roundRatio_le {numerator denominator top : Nat} (within : numerator ≤ top * denominator) :
    roundRatio numerator denominator ≤ top := by
  rcases Nat.eq_zero_or_pos denominator with rfl | positive
  · rw [Nat.mul_zero, Nat.le_zero] at within
    rw [within]
    exact Nat.zero_le top
  · rcases Nat.lt_or_eq_of_le within with below | exactly
    · have cut : numerator / denominator < top := by
        rwa [Nat.div_lt_iff_lt_mul positive]
      exact Nat.le_trans (roundRatio_le_div_add_one _ _) cut
    · rw [exactly, roundRatio, Nat.mul_div_cancel _ positive, Nat.mul_mod_left]
      simp [positive]

theorem roundRatio_mul_mul {common : Nat} (positive : 0 < common) (numerator denominator : Nat) :
    roundRatio (common * numerator) (common * denominator) = roundRatio numerator denominator := by
  have doubled : 2 * (common * (numerator % denominator)) =
      common * (2 * (numerator % denominator)) := Nat.mul_left_comm _ _ _
  simp only [roundRatio, Nat.mul_div_mul_left _ _ positive, Nat.mul_mod_mul_left, doubled,
    Nat.mul_lt_mul_left positive]

namespace Binary64

/-! ## Finite values -/

/-- The exponent bits are not all ones, so the number is neither infinite nor undefined. -/
def IsFinite (value : Binary64) : Prop :=
  value.toBits / binadeSize % 2048 ≠ 2047

/-- The number as a fraction. -/
def toRat (value : Binary64) : ℚ :=
  if value.negative then -(value.units / unitsOfOne) else value.units / unitsOfOne

theorem isFinite (value : Binary64) : value.IsFinite := by
  have bound := value.rank_lt
  have size : binadeSize = 4503599627370496 := rfl
  have sign : Nat.pow 2 63 = 9223372036854775808 := rfl
  rw [rankLimit, size] at bound
  rw [IsFinite, toBits, sign, size]
  split <;> omega

theorem toRat_nonneg {value : Binary64} (positive : value.negative = false) :
    0 ≤ value.toRat := by
  rw [toRat, positive]
  exact div_nonneg (Nat.cast_nonneg _) (Nat.cast_nonneg _)

/-! ## Units of ranks -/

theorem unitsOfOne_eq : unitsOfOne = 2 ^ fractionPlaces := by
  rw [unitsOfOne, Nat.pow_eq]

/-- A mantissa of at most 53 bits, or the power of two after these, is worth its steps. -/
theorem units_of_rank {value : Binary64} {scale mantissa : Nat}
    (rank : value.rank = scale * binadeSize + mantissa)
    (full : scale = 0 ∨ binadeSize ≤ mantissa) (short : mantissa ≤ 2 * binadeSize) :
    value.units = mantissa * 2 ^ scale := by
  have size : binadeSize = 4503599627370496 := rfl
  rw [size] at rank full short
  rw [units, rank, size, Nat.pow_eq]
  by_cases flat : scale * 4503599627370496 + mantissa < 4503599627370496
  · have lowest : scale = 0 := by omega
    rw [if_pos flat, lowest, Nat.zero_mul, Nat.zero_add, Nat.pow_zero, Nat.mul_one]
  · rw [if_neg flat]
    -- The power of two after the mantissas of 53 bits belongs to the next binade.
    rcases Nat.lt_or_eq_of_le short with inside | next
    · have binade : (scale * 4503599627370496 + mantissa) / 4503599627370496 - 1 = scale := by
        omega
      have steps : 4503599627370496 + (scale * 4503599627370496 + mantissa) % 4503599627370496 =
          mantissa := by omega
      rw [binade, steps]
    · have binade : (scale * 4503599627370496 + mantissa) / 4503599627370496 - 1 = scale + 1 := by
        omega
      have steps : (scale * 4503599627370496 + mantissa) % 4503599627370496 = 0 := by omega
      rw [binade, steps, next, Nat.pow_succ', Nat.add_zero, ← Nat.mul_assoc, Nat.mul_comm _ 2]

/-- Rounding does not pass a whole number of at most 53 bits. -/
theorem units_le_of_ofRatio? {value : Binary64} {numerator whole : Nat}
    (read : ofRatio? numerator unitsOfOne = some value) (short : whole < 2 ^ 53)
    (within : numerator ≤ whole * unitsOfOne) : value.units ≤ whole * unitsOfOne := by
  have positive : 0 < unitsOfOne := by
    rw [unitsOfOne_eq]
    exact Nat.two_pow_pos fractionPlaces
  have rank : value.rank = (numerator.log2 - 52) * binadeSize +
      roundRatio numerator (2 ^ (numerator.log2 - 52)) := by
    rw [ofRatio?, ofRank?] at read
    split at read
    · cases read
      simp only [rankOfRatio, Nat.mul_comm numerator unitsOfOne, Nat.mul_div_cancel_left _ positive,
        roundRatio_mul_mul positive, Nat.pow_eq]
    · cases read
  have full : numerator.log2 - 52 = 0 ∨
      binadeSize ≤ roundRatio numerator (2 ^ (numerator.log2 - 52)) := by
    rcases Nat.lt_or_ge numerator.log2 52 with low | high
    · exact .inl (Nat.sub_eq_zero_of_le (Nat.le_of_lt low))
    · exact .inr (le_roundRatio_log2 high)
  -- The whole number is a multiple of the rounding step, which is at most one.
  have coarse : numerator.log2 - 52 ≤ fractionPlaces := by
    have bounded : numerator < 2 ^ (53 + fractionPlaces) := by
      rw [Nat.pow_add, ← unitsOfOne_eq]
      exact Nat.lt_of_le_of_lt within (Nat.mul_lt_mul_of_pos_right short positive)
    rcases Nat.eq_zero_or_pos numerator with rfl | nonzero
    · simp
    · have digits := (Nat.log2_lt nonzero.ne').mpr bounded
      omega
  have stepped : whole * unitsOfOne =
      whole * 2 ^ (fractionPlaces - (numerator.log2 - 52)) * 2 ^ (numerator.log2 - 52) := by
    rw [unitsOfOne_eq, Nat.mul_assoc, ← Nat.pow_add, Nat.sub_add_cancel coarse]
  rw [stepped] at within ⊢
  rw [units_of_rank rank full (roundRatio_log2_le numerator)]
  exact Nat.mul_le_mul_right _ (roundRatio_le within)

/-! ## The unit interval -/

/-- Up to the start of a binade there are no more units than at its start. -/
theorem units_le_two_pow {value : Binary64} {binade : Nat}
    (below : value.rank ≤ (binade + 1) * binadeSize) : value.units ≤ 2 ^ 52 * 2 ^ binade := by
  have size : binadeSize = 4503599627370496 := rfl
  have steps : 2 ^ 52 = 4503599627370496 := rfl
  rw [size] at below
  rw [units, size, steps, Nat.pow_eq]
  by_cases small : value.rank < 4503599627370496
  · rw [if_pos small]
    exact Nat.le_trans (Nat.le_of_lt small) (Nat.le_mul_of_pos_right _ (Nat.two_pow_pos _))
  · rw [if_neg small]
    rcases Nat.lt_or_ge (value.rank / 4503599627370496) (binade + 1) with inside | last
    · have filled : 4503599627370496 + value.rank % 4503599627370496 ≤ 4503599627370496 * 2 := by
        omega
      have lower : binade = binade - 1 + 1 := by omega
      rw [lower, Nat.pow_succ', ← Nat.mul_assoc]
      exact Nat.mul_le_mul filled (Nat.pow_le_pow_right (by decide) (by omega))
    · have start : value.rank % 4503599627370496 = 0 := by omega
      have top : value.rank / 4503599627370496 - 1 = binade := by omega
      rw [start, top, Nat.add_zero]

theorem units_le_of_rank_le {value : Binary64} (below : value.rank ≤ one.rank) :
    value.units ≤ unitsOfOne := by
  have split : fractionPlaces = 52 + (fractionPlaces - 52) := by decide +kernel
  have start : one.rank = (fractionPlaces - 52 + 1) * binadeSize := by decide +kernel
  rw [start] at below
  rw [unitsOfOne_eq, split, Nat.pow_add]
  exact units_le_two_pow below

/-- Clamping gives one of the two ends, or the number itself when it lies between them. -/
theorem clampToUnit_cases (value : Binary64) :
    value.clampToUnit = zero ∨ value.clampToUnit = one ∨
      value.clampToUnit = value ∧ (value.negative = false ∨ value.rank = 0) ∧
        value.rank ≤ one.rank := by
  rw [clampToUnit]
  split
  · exact .inl rfl
  · rename_i sign
    split
    · exact .inr (.inl rfl)
    · rename_i small
      refine .inr (.inr ⟨rfl, ?_, Nat.not_lt.mp small⟩)
      cases negative : value.negative with
      | false => exact .inl rfl
      | true => simpa [negative] using sign


/-- No sign but that of zero is negative, and there are at most as many units as in one. -/
structure InUnit (value : Binary64) : Prop where
  sign : value.negative = false ∨ value.rank = 0
  rank : value.rank ≤ one.rank

theorem inUnit_one : one.InUnit :=
  ⟨.inl rfl, Nat.le_refl _⟩

theorem inUnit_clampToUnit (value : Binary64) : value.clampToUnit.InUnit := by
  rcases value.clampToUnit_cases with low | high | ⟨same, sign, rank⟩
  · rw [low]
    exact ⟨.inl rfl, Nat.zero_le _⟩
  · rw [high]
    exact inUnit_one
  · rw [same]
    exact ⟨sign, rank⟩

theorem InUnit.toRat_mem {value : Binary64} (inUnit : value.InUnit) :
    0 ≤ value.toRat ∧ value.toRat ≤ 1 := by
  have units : (value.units : ℚ) / unitsOfOne ≤ 1 :=
    div_le_one_of_le₀ (Nat.cast_le.mpr (units_le_of_rank_le inUnit.rank)) (Nat.cast_nonneg _)
  have nonneg : 0 ≤ (value.units : ℚ) / unitsOfOne :=
    div_nonneg (Nat.cast_nonneg _) (Nat.cast_nonneg _)
  rw [toRat]
  rcases inUnit.sign with positive | nothing
  · simp only [positive, Bool.false_eq_true, if_false]
    exact ⟨nonneg, units⟩
  · have zero : value.units = 0 := by
      rw [Binary64.units, nothing]
      rfl
    simp only [zero, Nat.cast_zero, zero_div, neg_zero, ite_self]
    exact ⟨le_rfl, zero_le_one⟩

/-- A share of at most one times a whole number is rounded to at most that number. -/
theorem nearestNat_le {share product : Binary64} {whole : Nat} (inUnit : share.InUnit)
    (short : whole < 2 ^ 53) (read : share.timesNat? whole = some product) :
    product.nearestNat ≤ whole := by
  have within : share.units * whole ≤ whole * unitsOfOne := by
    rw [Nat.mul_comm]
    exact Nat.mul_le_mul_left whole (units_le_of_rank_le inUnit.rank)
  exact roundRatio_le (units_le_of_ofRatio? read short within)

end Binary64

end WidgetStyle.Number
