import WidgetStyle.Number.Binary64
import WidgetStyle.Text.Blank
import WidgetStyle.Text.Digit

/-!
# Decimal numerals

Numbers as people write them: a sign, digits of any script with a point among
them, and a power of ten.  A single underscore may stand between two digits, and
blanks around the numeral are no part of it.  Words for infinity or for no
number at all are not numerals here, since only finite numbers are of use.
-/

namespace WidgetStyle.Number

open WidgetStyle.Text

/-- The number `digits * 10 ^ exponent`, with a sign. -/
structure Decimal where
  negative : Bool
  digits : Nat
  exponent : Int
deriving DecidableEq, Repr

namespace Decimal

/-- Blanks that may surround a numeral: all but the information separators. -/
def isOuterBlank (character : Char) : Bool :=
  isBlank character &&
    !(decide (0x1c ≤ character.toNat) && decide (character.toNat ≤ 0x1f))

/-- Whether the text starts with a digit. -/
def startsWithDigit (text : List Char) : Bool :=
  match text with
  | [] => false
  | character :: _ => isDigit character

/-- The digits at the start of the text, and what follows them.  An underscore
that stands between two digits is dropped. -/
def readDigits (afterDigit : Bool) : List Char → List Char × List Char
  | [] => ([], [])
  | character :: rest =>
      if isDigit character then
        let (digits, remaining) := readDigits true rest
        (character :: digits, remaining)
      else if afterDigit && character == '_' && startsWithDigit rest then
        readDigits false rest
      else ([], character :: rest)

/-- An optional sign, true for minus, and what follows it. -/
def readSign : List Char → Bool × List Char
  | '-' :: rest => (true, rest)
  | '+' :: rest => (false, rest)
  | text => (false, text)

/-- The fraction digits after an optional point, and what follows them. -/
def readFraction : List Char → List Char × List Char
  | '.' :: rest => readDigits false rest
  | text => ([], text)

/-- The power of ten of a numeral whose digits have been read: nothing at all,
or a mark, an optional sign and digits to the end. -/
def readExponent? (text : List Char) : Option Int :=
  match text with
  | [] => some 0
  | mark :: rest =>
      if mark == 'e' || mark == 'E' then
        let (negative, unsigned) := readSign rest
        match readDigits false unsigned with
        | ([], _) => none
        | (digits, []) =>
            let magnitude : Int := digitsValue digits
            some (if negative then -magnitude else magnitude)
        | (_, _ :: _) => none
      else none

/-- A numeral without blanks around it. -/
def ofNumeral? (text : List Char) : Option Decimal :=
  let (negative, unsigned) := readSign text
  let (whole, afterWhole) := readDigits false unsigned
  let (fraction, afterFraction) := readFraction afterWhole
  if whole.isEmpty && fraction.isEmpty then none
  else
    (readExponent? afterFraction).map fun power =>
      { negative, digits := digitsValue (whole ++ fraction),
        exponent := power - fraction.length }

/-- A numeral with blanks around it. -/
def ofText? (text : List Char) : Option Decimal :=
  let started := text.dropWhile isOuterBlank
  ofNumeral? (started.reverse.dropWhile isOuterBlank).reverse

/-- The rank of the magnitude nearest to the number.  Numbers of 10^400 and
more are past all finite numbers, and those below 10^-400 round to zero, so the
power of ten is only computed in between. -/
def rank (number : Decimal) : Nat :=
  if number.digits = 0 then 0
  else
    match number.exponent with
    | .ofNat power =>
        if 400 < power then rankLimit
        else Binary64.rankOfRatio (number.digits * Nat.pow 10 power) 1
    | .negSucc power =>
        if 400 + number.digits.log2 < power then 0
        else Binary64.rankOfRatio number.digits (Nat.pow 10 (power + 1))

/-- The nearest binary number, or none when the number is too large. -/
def toBinary? (number : Decimal) : Option Binary64 :=
  (Binary64.ofRank? number.rank).map (Binary64.withSign number.negative)

end Decimal

/-- The binary number nearest to the numeral in the text, if it is finite. -/
def readNumber? (text : List Char) : Option Binary64 :=
  (Decimal.ofText? text).bind Decimal.toBinary?

end WidgetStyle.Number
