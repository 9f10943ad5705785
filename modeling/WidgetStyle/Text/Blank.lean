/-!
# Blanks

White space of every script, and the operations that take it away: skipping it,
trimming a text, and cutting a text into words.
-/

namespace WidgetStyle.Text

/-- The code points of white space.  The information separators U+001C to
U+001F are among them; the zero-width space is not. -/
def blankCodes : List Nat :=
  [0x09, 0x0a, 0x0b, 0x0c, 0x0d, 0x1c, 0x1d, 0x1e, 0x1f, 0x20, 0x85, 0xa0,
   0x1680, 0x2000, 0x2001, 0x2002, 0x2003, 0x2004, 0x2005, 0x2006, 0x2007,
   0x2008, 0x2009, 0x200a, 0x2028, 0x2029, 0x202f, 0x205f, 0x3000]

/-- Whether the character is white space. -/
def isBlank (character : Char) : Bool :=
  blankCodes.contains character.toNat

/-- The text from its first character that is no blank. -/
def skipBlanks (text : List Char) : List Char :=
  text.dropWhile isBlank

/-- The text up to its last character that is no blank. -/
def trimEnd (text : List Char) : List Char :=
  (text.reverse.dropWhile isBlank).reverse

/-- The text without the blanks at its two ends. -/
def trim (text : List Char) : List Char :=
  trimEnd (skipBlanks text)

/-- A string without the blanks at its two ends. -/
def trimString (text : String) : String :=
  String.ofList (trim text.toList)

/-- The maximal runs of characters that are no blanks. -/
def words (text : List Char) : List (List Char) :=
  (text.splitOnP isBlank).filter fun word => !word.isEmpty

theorem length_skipBlanks_le (text : List Char) :
    (skipBlanks text).length ≤ text.length :=
  (List.dropWhile_suffix isBlank).length_le

end WidgetStyle.Text
