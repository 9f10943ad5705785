/-!
# Ranges of code points

A property of characters is written down as a list of inclusive ranges of code
points, as the character database publishes it.  The tables built on this type
list the properties beyond ASCII; inside ASCII each property is a short rule.
-/

namespace WidgetStyle.Text

/-- An inclusive range of code points. -/
structure CodeRange where
  first : Nat
  last : Nat
deriving DecidableEq, Repr

namespace CodeRange

/-- Whether the code point lies in the range. -/
def contains (range : CodeRange) (code : Nat) : Bool :=
  decide (range.first ≤ code) && decide (code ≤ range.last)

/-- Whether some range of the list holds the character. -/
def covers (ranges : List CodeRange) (character : Char) : Bool :=
  ranges.any fun range => range.contains character.toNat

end CodeRange

end WidgetStyle.Text
