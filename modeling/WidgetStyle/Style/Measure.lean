import WidgetStyle.Keyword
import WidgetStyle.Number.Decimal
import WidgetStyle.Text.Affix
import WidgetStyle.Text.Lowercase

/-!
# Measures

Lengths on the cell grid: whole cell counts, sizes that are fixed, relative or
left to the layout, and the spacing on the four sides of a box.
-/

namespace WidgetStyle

open WidgetStyle.Text WidgetStyle.Number

/-! ## Errors -/

/-- Why a node cannot be styled: a number has too many digits, a count of cells is
larger than any binary number, or a rule is no longer in the sheet. -/
inductive StyleError where
  | tooManyDigits (excess : TooManyDigits)
  | sizeTooLarge (cells : Nat)
  | missingRule
deriving DecidableEq, Repr

/-- The wording of the error, whatever the count. -/
def StyleError.message : StyleError → String
  | tooManyDigits excess => excess.message
  | sizeTooLarge _ => "int too large to convert to float"
  | missingRule => "list index out of range"

/-! ## Cells -/

/-- A count of cells: decimal digits, which may be followed by the unit. -/
def parseCells? (text : List Char) : Except StyleError (Option Nat) :=
  (wholeNumber? (dropEnding ['p', 'x'] text)).mapError .tooManyDigits

/-! ## Sizes -/

/-- The size along one axis: left to the layout, a count of cells, or a share of
the parent in percent. -/
inductive Size where
  | auto
  | fixed (cells : Binary64)
  | percent (share : Binary64)
deriving DecidableEq, Repr

namespace Size

/-- A count of cells as a size. -/
def ofCells (cells : Nat) : Except StyleError Size :=
  (Binary64.ofNat? cells).elim (.error (.sizeTooLarge cells)) fun value => .ok (.fixed value)

/-- The size that the text denotes, in any case and with blanks around it. -/
def parse? (text : List Char) : Except StyleError (Option Size) :=
  let word := lower (trim text)
  if word = ['a', 'u', 't', 'o'] then .ok (some .auto)
  else
    match dropEnding? ['%'] word with
    | some number => .ok ((readNumber? number).map .percent)
    | none =>
        match parseCells? word with
        | .error error => .error error
        | .ok none => .ok none
        | .ok (some cells) => (ofCells cells).map some

/-- Whether two sizes have the same kind and value. -/
def sameValue : Size → Size → Bool
  | auto, auto => true
  | fixed left, fixed right => left.sameValue right
  | percent left, percent right => left.sameValue right
  | _, _ => false

end Size

/-! ## Spacing -/

/-- A side of a box, clockwise from the top. -/
inductive Side where
  | top
  | right
  | bottom
  | left
deriving DecidableEq, Repr

instance : Keyword Side where
  all := [.top, .right, .bottom, .left]
  name
    | .top => "top"
    | .right => "right"
    | .bottom => "bottom"
    | .left => "left"
  complete value := by cases value <;> decide
  distinct := by decide

/-- Cell counts for the four sides. -/
structure Spacing where
  top : Nat := 0
  right : Nat := 0
  bottom : Nat := 0
  left : Nat := 0
deriving DecidableEq, Repr

namespace Spacing

/-- The count on one side. -/
def read (spacing : Spacing) : Side → Nat
  | .top => spacing.top
  | .right => spacing.right
  | .bottom => spacing.bottom
  | .left => spacing.left

/-- The spacing with another count on one side. -/
def write (spacing : Spacing) (side : Side) (cells : Nat) : Spacing :=
  match side with
  | .top => { spacing with top := cells }
  | .right => { spacing with right := cells }
  | .bottom => { spacing with bottom := cells }
  | .left => { spacing with left := cells }

/-- A written count is read back, and the other sides are left alone. -/
@[simp] theorem read_write (spacing : Spacing) (side other : Side) (cells : Nat) :
    (spacing.write side cells).read other = if other = side then cells else spacing.read other := by
  cases side <;> cases other <;> rfl

/-- One to four counts, clockwise; a missing one repeats its opposite side, and
the first stands for all that have no opposite. -/
def ofCounts? : List Nat → Option Spacing
  | [all] => some ⟨all, all, all, all⟩
  | [vertical, horizontal] => some ⟨vertical, horizontal, vertical, horizontal⟩
  | [top, horizontal, bottom] => some ⟨top, horizontal, bottom, horizontal⟩
  | [top, right, bottom, left] => some ⟨top, right, bottom, left⟩
  | _ => none

/-- The counts that some words denote, unless one denotes none.  Words behind that
one are not looked at. -/
def readCounts : List (List Char) → Except StyleError (Option (List Nat))
  | [] => .ok (some [])
  | word :: rest =>
      match parseCells? word with
      | .error error => .error error
      | .ok none => .ok none
      | .ok (some cells) => (readCounts rest).map fun counts => counts.map (cells :: ·)

/-- Counts between blanks. -/
def parse? (text : List Char) : Except StyleError (Option Spacing) :=
  (readCounts (words text)).map fun counts => counts.bind ofCounts?

end Spacing

end WidgetStyle
