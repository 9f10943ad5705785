/-!
# Rounding a quotient

The one rounding rule of the library: to the nearest whole number, and to the
even neighbour when both are equally near.
-/

namespace WidgetStyle.Number

/-- The quotient rounded to the nearest whole number, a tie to the even one. -/
def roundRatio (numerator denominator : Nat) : Nat :=
  let quotient := numerator / denominator
  let remainder := numerator % denominator
  if 2 * remainder < denominator then quotient
  else if denominator < 2 * remainder then quotient + 1
  else quotient + quotient % 2

/-- Rounding moves the quotient down to its floor or up to the next number. -/
theorem div_le_roundRatio (numerator denominator : Nat) :
    numerator / denominator ≤ roundRatio numerator denominator := by
  unfold roundRatio
  grind

theorem roundRatio_le_div_add_one (numerator denominator : Nat) :
    roundRatio numerator denominator ≤ numerator / denominator + 1 := by
  unfold roundRatio
  grind

end WidgetStyle.Number
