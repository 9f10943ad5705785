import WidgetStyle.Number.Rounding

/-!
# Binary floating point

The finite numbers of the 64-bit binary format as exact values.  A magnitude is
given by its rank among the finite magnitudes in ascending order, which is also
its bit pattern without the sign.  So comparing magnitudes is comparing ranks,
and the step to the next larger magnitude, across exponents too, adds one.
-/

namespace WidgetStyle.Number

/-- How many magnitudes there are in a binade, 2^52. -/
def binadeSize : Nat := Nat.pow 2 52

/-- How many finite magnitudes there are, so also the first rank past them. -/
def rankLimit : Nat := 2047 * binadeSize

/-- The binary places behind the point that the least positive number needs. -/
@[irreducible]
def fractionPlaces : Nat := 1074

/-- The place of the first binary digit of the largest numbers, ones being at place zero. -/
@[irreducible]
def topPlace : Nat := 1023

/-- How many times the least positive number goes into one. -/
def unitsOfOne : Nat := Nat.pow 2 fractionPlaces

/-- A finite number of the 64-bit binary format; zero has two signs. -/
structure Binary64 where
  negative : Bool
  rank : Nat
  rank_lt : rank < rankLimit
deriving DecidableEq, Repr

namespace Binary64

/-- The positive number of a rank, or none when the rank is past the largest
finite one. -/
def ofRank? (rank : Nat) : Option Binary64 :=
  if h : rank < rankLimit then some ⟨false, rank, h⟩ else none

/-- Positive zero. -/
def zero : Binary64 :=
  ⟨false, 0, by decide⟩

/-- The number one, at the start of the binade with exponent zero. -/
def one : Binary64 :=
  ⟨false, 1023 * binadeSize, by decide⟩

instance : Inhabited Binary64 := ⟨zero⟩

/-- The magnitude in units of the least positive number.  Ranks below the first
full binade are their own units, and so are those in it; the step doubles from
each binade to the next. -/
def units (value : Binary64) : Nat :=
  if value.rank < binadeSize then value.rank
  else
    (binadeSize + value.rank % binadeSize) * Nat.pow 2 (value.rank / binadeSize - 1)

/-- The 64 bits of the number. -/
def toBits (value : Binary64) : Nat :=
  (if value.negative then Nat.pow 2 63 else 0) + value.rank

/-- The rank that is nearest to a quotient.  The step of the binade that holds
the quotient is 2^scale units, and rounding up to the next binade carries
into the rank as it should. -/
def rankOfRatio (numerator denominator : Nat) : Nat :=
  let scale := (numerator * unitsOfOne / denominator).log2 - 52
  scale * binadeSize + roundRatio (numerator * unitsOfOne) (denominator * Nat.pow 2 scale)

/-- The number nearest to a quotient, a tie to the one of even rank; none when
that is past the largest finite number. -/
def ofRatio? (numerator denominator : Nat) : Option Binary64 :=
  ofRank? (rankOfRatio numerator denominator)

/-- The number nearest to a whole number. -/
def ofNat? (number : Nat) : Option Binary64 :=
  ofRatio? number 1

/-- The number with the given sign. -/
def withSign (negative : Bool) (value : Binary64) : Binary64 :=
  { value with negative }

/-- Whether two numbers have the same value: the two zeros do. -/
def sameValue (left right : Binary64) : Bool :=
  left.rank == right.rank && (left.negative == right.negative || left.rank == 0)

/-- The number moved into the interval from zero to one.  A negative zero lies
in it and stays as it is. -/
def clampToUnit (value : Binary64) : Binary64 :=
  if value.negative && value.rank != 0 then zero
  else if one.rank < value.rank then one
  else value

/-- The magnitude times a whole number, rounded. -/
def timesNat? (value : Binary64) (factor : Nat) : Option Binary64 :=
  ofRatio? (value.units * factor) unitsOfOne

/-- The whole number nearest to the magnitude. -/
def nearestNat (value : Binary64) : Nat :=
  roundRatio value.units unitsOfOne

end Binary64

end WidgetStyle.Number
