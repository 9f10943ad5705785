import Mathlib.Tactic.Ring
import WidgetStyle.Number.Binary64

/-!
# The range of binary numbers

A whole number is past the largest finite binary number when it is nearer to two to
the power of 1024 than to that number, and also when it is equally near to both, since
then the even neighbour is the upper one.
-/

namespace WidgetStyle.Number

/-- Rounding reaches an even number from half a step below it on. -/
theorem le_roundRatio_iff {numerator half top : Nat} (positive : 0 < half)
    (even : top % 2 = 0) :
    top ≤ roundRatio numerator (2 * half) ↔ top * (2 * half) ≤ numerator + half := by
  have division := Nat.div_add_mod numerator (2 * half)
  have short := Nat.mod_lt numerator (by omega : 0 < 2 * half)
  unfold roundRatio
  generalize numerator / (2 * half) = quotient at *
  generalize numerator % (2 * half) = remainder at *
  rw [← division]
  rcases Nat.lt_trichotomy (quotient + 1) top with below | same | above
  · -- Even one step up is not enough.
    have far : (quotient + 2) * (2 * half) ≤ top * (2 * half) := Nat.mul_le_mul_right _ below
    have step : (quotient + 2) * (2 * half) = 2 * half * quotient + 4 * half := by ring
    simp only
    constructor
    · intro reached
      split at reached
      · omega
      · split at reached <;> omega
    · intro reached
      omega
  · -- A tie goes up, since the upper neighbour is even.
    have odd : quotient % 2 = 1 := by omega
    have step : (quotient + 1) * (2 * half) = 2 * half * quotient + 2 * half := by ring
    rw [← same, step]
    simp only
    split
    · omega
    · split <;> omega
  · have near : top * (2 * half) ≤ quotient * (2 * half) :=
      Nat.mul_le_mul_right _ (by omega)
    have step : quotient * (2 * half) = 2 * half * quotient := by ring
    simp only
    constructor
    · intro _
      omega
    · intro _
      split
      · omega
      · split <;> omega

/-! ## The first binary digit -/

theorem log2_mul_two_pow {number : Nat} (nonzero : number ≠ 0) (places : Nat) :
    (number * 2 ^ places).log2 = number.log2 + places := by
  have nonzero' : number * 2 ^ places ≠ 0 :=
    Nat.mul_ne_zero nonzero (Nat.two_pow_pos places).ne'
  have positive : 0 < 2 ^ places := Nat.two_pow_pos places
  have shifted : number.log2 + places + 1 = number.log2 + 1 + places := by omega
  rw [Nat.log2_eq_iff nonzero', shifted, Nat.pow_add, Nat.pow_add]
  exact ⟨Nat.mul_le_mul_right _ (Nat.log2_self_le nonzero),
    Nat.mul_lt_mul_of_pos_right Nat.lt_log2_self positive⟩

/-- A number rounded to 53 binary digits has no more digits, or it is the next power. -/
theorem roundRatio_log2_le (number : Nat) :
    roundRatio number (2 ^ (number.log2 - 52)) ≤ 2 ^ 53 := by
  have short : number < 2 ^ (53 + (number.log2 - 52)) :=
    Nat.lt_of_lt_of_le Nat.lt_log2_self (Nat.pow_le_pow_right (by decide) (by omega))
  have cut : number / 2 ^ (number.log2 - 52) < 2 ^ 53 := by
    rw [Nat.div_lt_iff_lt_mul (Nat.two_pow_pos _), ← Nat.pow_add]
    exact short
  exact Nat.le_trans (roundRatio_le_div_add_one _ _) cut

theorem le_roundRatio_log2 {number : Nat} (long : 52 ≤ number.log2) :
    2 ^ 52 ≤ roundRatio number (2 ^ (number.log2 - 52)) := by
  have nonzero : number ≠ 0 := by
    rintro rfl
    exact absurd long (by decide)
  refine Nat.le_trans ?_ (div_le_roundRatio _ _)
  rw [Nat.le_div_iff_mul_le (Nat.two_pow_pos _), ← Nat.pow_add, Nat.add_sub_cancel' long]
  exact Nat.log2_self_le nonzero

/-! ## Ranks of whole numbers -/

/-- The ranks past the binade of the digit `last` are reached from half a step below the
next power of two on, whatever the number of places that ranks are counted in. -/
theorem le_rank_iff {last places units : Nat} (wide : 53 ≤ last)
    (counted : units = Nat.pow 2 places) (number : Nat) :
    (last + places - 50) * 2 ^ 52 ≤
        ((number * units).log2 - 52) * 2 ^ 52 +
          roundRatio (number * units) (2 ^ ((number * units).log2 - 52)) ↔
      2 ^ (last + 1) ≤ number + 2 ^ (last - 53) := by
  rw [Nat.pow_eq] at counted
  have half : 2 ^ (last - 53) < 2 ^ last := Nat.pow_lt_pow_right (by decide) (by omega)
  have doubled : 2 ^ (last + 1) = 2 * 2 ^ last := Nat.pow_succ'
  rcases Nat.eq_zero_or_pos number with rfl | positive
  · have rounded := roundRatio_log2_le 0
    simp only [Nat.zero_mul, Nat.log2_zero] at rounded ⊢
    omega
  have place := log2_mul_two_pow positive.ne' places
  rw [← counted] at place
  rcases Nat.lt_trichotomy number.log2 last with below | same | above
  · have small : number < 2 ^ last :=
      Nat.lt_of_lt_of_le Nat.lt_log2_self (Nat.pow_le_pow_right (by decide) below)
    have rounded := roundRatio_log2_le (number * units)
    omega
  · -- The step is a power of two, and half a step is the power before it.
    have step : (number * units).log2 - 52 = last - 53 + places + 1 := by omega
    have reached := @le_roundRatio_iff (number * units) (2 ^ (last - 53 + places)) (2 ^ 53)
      (Nat.two_pow_pos _) (by decide)
    have wholes : 2 ^ 53 * (2 * 2 ^ (last - 53 + places)) = 2 ^ (last + 1) * 2 ^ places := by
      rw [← Nat.pow_succ', ← Nat.pow_add, ← Nat.pow_add]
      congr 1
      omega
    have halves : number * 2 ^ places + 2 ^ (last - 53 + places) =
        (number + 2 ^ (last - 53)) * 2 ^ places := by
      rw [Nat.pow_add, Nat.add_mul]
    rw [wholes, counted, halves, Nat.mul_le_mul_right_iff (Nat.two_pow_pos places), ← counted]
      at reached
    rw [step, @Nat.pow_succ' 2 (last - 53 + places), ← reached]
    omega
  · have large : 2 ^ (last + 1) ≤ number :=
      Nat.le_trans (Nat.pow_le_pow_right (by decide) above) (Nat.log2_self_le positive.ne')
    have rounded := @le_roundRatio_log2 (number * units) (by omega)
    have room : 0 < 2 ^ (last - 53) := Nat.two_pow_pos _
    omega

namespace Binary64

/-- The least whole number that is too large: half a step below two to the power of
1024. -/
def leastExcess : Nat := Nat.pow 2 (topPlace + 1) - Nat.pow 2 (topPlace - 53)

theorem rankOfRatio_one (number : Nat) :
    rankOfRatio number 1 =
      ((number * unitsOfOne).log2 - 52) * 2 ^ 52 +
        roundRatio (number * unitsOfOne) (2 ^ ((number * unitsOfOne).log2 - 52)) := by
  simp only [rankOfRatio, Nat.div_one, Nat.one_mul, binadeSize, Nat.pow_eq]

/-- A whole number is too large from that number on. -/
theorem ofNat?_eq_none_iff {number : Nat} : ofNat? number = none ↔ leastExcess ≤ number := by
  have wide : 53 ≤ topPlace := by decide +kernel
  have reached := le_rank_iff wide unitsOfOne.eq_1 number
  have limit : rankLimit = (topPlace + fractionPlaces - 50) * 2 ^ 52 := by decide +kernel
  rw [← rankOfRatio_one, ← limit] at reached
  rw [ofNat?, ofRatio?, ofRank?, leastExcess, Nat.pow_eq, Nat.pow_eq]
  split
  · simp only [reduceCtorEq, false_iff]
    omega
  · simp only [true_iff]
    omega

end Binary64

end WidgetStyle.Number
