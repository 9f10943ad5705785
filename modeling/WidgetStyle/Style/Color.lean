import WidgetStyle.Number.Decimal
import WidgetStyle.Text.Lowercase

/-!
# Colours

A colour has red, green and blue channels and an opacity channel, each from 0 to
255.  The colour of all zeros is fully transparent and means that no colour is
set.  Colours are read from a name, from hexadecimal digits or from a list of
channels.
-/

namespace WidgetStyle

open WidgetStyle.Text WidgetStyle.Number

/-- Red, green, blue and alpha. -/
structure Color where
  red : Nat := 0
  green : Nat := 0
  blue : Nat := 0
  alpha : Nat := 0
deriving DecidableEq, Repr

namespace Color

/-- The opaque colour with the given channels. -/
def opaqueOf (red green blue : Nat) : Color :=
  { red, green, blue, alpha := 255 }

/-- The opaque colour whose channels are the three lowest bytes of the code, red
first.  The code may be negative, as a number in two's complement. -/
def ofCode (code : Int) : Color :=
  opaqueOf (code / 0x10000 % 0x100).toNat (code / 0x100 % 0x100).toNat (code % 0x100).toNat

/-- The colours that have a name. -/
def named : List (String × Color) :=
  [("black", opaqueOf 0 0 0), ("white", opaqueOf 255 255 255), ("red", opaqueOf 255 0 0),
    ("green", opaqueOf 0 128 0), ("lime", opaqueOf 0 255 0), ("blue", opaqueOf 0 0 255),
    ("yellow", opaqueOf 255 255 0), ("cyan", opaqueOf 0 255 255),
    ("magenta", opaqueOf 255 0 255), ("gray", opaqueOf 128 128 128),
    ("grey", opaqueOf 128 128 128), ("orange", opaqueOf 255 165 0),
    ("purple", opaqueOf 128 0 128), ("transparent", {})]

/-- The value of a hexadecimal digit in lower case. -/
def hexValue? (character : Char) : Option Nat :=
  if '0' ≤ character ∧ character ≤ '9' then some (character.toNat - '0'.toNat)
  else if 'a' ≤ character ∧ character ≤ 'f' then some (character.toNat - 'a'.toNat + 10)
  else none

/-- Six hexadecimal digits, or three that each stand for a pair. -/
def ofHexDigits? (digits : List Char) : Option Color :=
  match digits.mapM hexValue? with
  | some [r, g, b] => some (opaqueOf (17 * r) (17 * g) (17 * b))
  | some [r₁, r₂, g₁, g₂, b₁, b₂] =>
      some (opaqueOf (16 * r₁ + r₂) (16 * g₁ + g₂) (16 * b₁ + b₂))
  | _ => none

/-- A channel of one to three digits with blanks around it. -/
def readChannel? (text : List Char) : Option (Nat × List Char) :=
  let start := skipBlanks text
  let digits := start.takeWhile isDigit
  if digits.isEmpty || decide (3 < digits.length) then none
  else some (digitsValue digits, skipBlanks (start.dropWhile isDigit))

/-- A share of one: digits, or digits on both sides of a point of which the
first may be missing. -/
def readShare? (text : List Char) : Option (Decimal × List Char) :=
  let whole := text.takeWhile isDigit
  match text.dropWhile isDigit with
  | '.' :: rest =>
      let fraction := rest.takeWhile isDigit
      if fraction.isEmpty then none
      else
        some (⟨false, digitsValue (whole ++ fraction), -fraction.length⟩, rest.dropWhile isDigit)
  | rest => if whole.isEmpty then none else some (⟨false, digitsValue whole, 0⟩, rest)

/-- The alpha channel of a share.  Shares over one count as one, and the product
with 255 is rounded to a binary number before it is rounded to a channel. -/
def alphaOfShare (share : Decimal) : Nat :=
  match share.toBinary? with
  | none => 255
  | some value =>
      match value.clampToUnit.timesNat? 255 with
      | none => 255
      | some product => product.nearestNat

/-- What follows the third channel: the end, or a comma and a share. -/
def readAlpha? (text : List Char) : Option Nat :=
  match text with
  | [')'] => some 255
  | ',' :: rest =>
      match readShare? (skipBlanks rest) with
      | some (share, remaining) =>
          if skipBlanks remaining = [')'] then some (alphaOfShare share) else none
      | none => none
  | _ => none

/-- What follows the word `rgb` or `rgba`: channels in parentheses.  Both words
take three channels with or without a share. -/
def readChannels? (text : List Char) : Option Color :=
  match text with
  | '(' :: opened =>
      match readChannel? opened with
      | some (red, ',' :: afterRed) =>
          match readChannel? afterRed with
          | some (green, ',' :: afterGreen) =>
              match readChannel? afterGreen with
              | some (blue, afterBlue) =>
                  match readAlpha? afterBlue with
                  | some alpha =>
                      if red ≤ 255 ∧ green ≤ 255 ∧ blue ≤ 255 then
                        some { red, green, blue, alpha }
                      else none
                  | none => none
              | none => none
          | _ => none
      | _ => none
  | _ => none

/-- The colour that the text denotes, in any case and with blanks around it. -/
def parse? (text : List Char) : Option Color :=
  let word := lower (trim text)
  match named.lookup (String.ofList word) with
  | some color => some color
  | none =>
      match word with
      | '#' :: digits => ofHexDigits? digits
      | 'r' :: 'g' :: 'b' :: 'a' :: rest => readChannels? rest
      | 'r' :: 'g' :: 'b' :: rest => readChannels? rest
      | _ => none

end Color

end WidgetStyle
