/-!
# Decimal digits

Every script's decimal digits form a run of ten code points in the order of
their values, so the zeros alone fix the table.  A text of digits in any mix of
scripts denotes the number that its digits spell in base ten.  Numbers are turned
from texts and into texts up to a number of digits only; beyond that the attempt
fails, whatever the digits are.
-/

namespace WidgetStyle.Text

/-- The code points of the digit zero, one for each run of decimal digits. -/
def digitZeros : List Nat :=
  [0x0030, 0x0660, 0x06f0, 0x07c0, 0x0966, 0x09e6, 0x0a66, 0x0ae6, 0x0b66, 0x0be6, 0x0c66,
   0x0ce6, 0x0d66, 0x0de6, 0x0e50, 0x0ed0, 0x0f20, 0x1040, 0x1090, 0x17e0, 0x1810, 0x1946,
   0x19d0, 0x1a80, 0x1a90, 0x1b50, 0x1bb0, 0x1c40, 0x1c50, 0xa620, 0xa8d0, 0xa900, 0xa9d0,
   0xa9f0, 0xaa50, 0xabf0, 0xff10, 0x104a0, 0x10d30, 0x11066, 0x110f0, 0x11136, 0x111d0, 0x112f0,
   0x11450, 0x114d0, 0x11650, 0x116c0, 0x11730, 0x118e0, 0x11950, 0x11c50, 0x11d50, 0x11da0,
   0x16a60, 0x16ac0, 0x16b50, 0x1d7ce, 0x1d7d8, 0x1d7e2, 0x1d7ec, 0x1d7f6, 0x1e140, 0x1e2f0,
   0x1e950, 0x1fbf0]

/-- The value of a decimal digit of any script. -/
def digitValue? (character : Char) : Option Nat :=
  (digitZeros.find? fun start =>
    decide (start ≤ character.toNat) && decide (character.toNat < start + 10)).map
      fun start => character.toNat - start

/-- Whether the character is a decimal digit of any script. -/
def isDigit (character : Char) : Bool :=
  (digitValue? character).isSome

/-- The number that the digits spell in base ten, most significant first.
A character that is no digit counts as zero; callers pass digits only. -/
def digitsValue (digits : List Char) : Nat :=
  digits.foldl (fun number character => 10 * number + (digitValue? character).getD 0) 0

/-! ## The limit -/

/-- The most digits that a number can have as a text. -/
def maxDigits : Nat := 4300

/-- A number with more digits than that.  Where it is read the digits have been
counted, and where it is written they have not. -/
inductive TooManyDigits where
  | read (digits : Nat)
  | written
deriving DecidableEq, Repr

/-- The wording of the error. -/
def TooManyDigits.message (excess : TooManyDigits) : String :=
  let count :=
    match excess with
    | .read digits => ": value has " ++ toString digits ++ " digits"
    | .written => ""
  "Exceeds the limit (" ++ toString maxDigits ++ " digits) for integer string conversion" ++
    count ++ "; use sys.set_int_max_str_digits() to increase the limit"

/-- The digits again, unless they are too many.  Zeros at the front count. -/
def checkDigits (digits : List Char) : Except TooManyDigits (List Char) :=
  if digits.length ≤ maxDigits then .ok digits else .error (.read digits.length)

/-- Whether a number has few enough digits to be written. -/
def isWritable (number : Int) : Bool :=
  decide ((Nat.toDigits 10 number.natAbs).length ≤ maxDigits)

/-- The number spelt by a text that consists of one or more decimal digits. -/
def wholeNumber? (text : List Char) : Except TooManyDigits (Option Nat) :=
  if text.isEmpty || !text.all isDigit then .ok none
  else (checkDigits text).map fun digits => some (digitsValue digits)

end WidgetStyle.Text
