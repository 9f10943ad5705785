import WidgetStyle.Style.Color
import WidgetStyle.Style.Keywords
import WidgetStyle.Style.Measure

/-!
# Styles

A style gives every field a value.  Only a field whose value differs from the
default is set, and nothing tells a default that was written from one that was
not.  The values that a declaration can write one at a time are the
slots: each field is one slot, except for padding and margin, which have a slot
for each side.
-/

namespace WidgetStyle

open WidgetStyle.Number

/-- All that is known about the look of a widget. -/
structure Style where
  display : Display := .flex
  position : Position := .static
  flexDirection : FlexDirection := .row
  justifyContent : JustifyContent := .start
  alignItems : AlignItems := .start
  gap : Nat := 0
  width : Size := .auto
  height : Size := .auto
  minWidth : Size := .auto
  minHeight : Size := .auto
  maxWidth : Size := .auto
  maxHeight : Size := .auto
  padding : Spacing := {}
  margin : Spacing := {}
  color : Color := {}
  background : Color := {}
  borderStyle : BorderStyle := .none
  borderColor : Color := {}
  opacity : Binary64 := Binary64.one
  visible : Bool := true
deriving DecidableEq, Repr

/-- The two boxes around the content that have a count on each side. -/
inductive Box where
  | padding
  | margin
deriving DecidableEq, Repr

/-- A place in a style that is written as one. -/
inductive Slot where
  | display
  | position
  | flexDirection
  | justifyContent
  | alignItems
  | gap
  | width
  | height
  | minWidth
  | minHeight
  | maxWidth
  | maxHeight
  | edge (box : Box) (side : Side)
  | color
  | background
  | borderStyle
  | borderColor
  | opacity
  | visible
deriving DecidableEq, Repr

namespace Slot

/-- The values that a slot can hold. -/
abbrev Value : Slot → Type
  | display => Display
  | position => Position
  | flexDirection => FlexDirection
  | justifyContent => JustifyContent
  | alignItems => AlignItems
  | gap => Nat
  | width | height | minWidth | minHeight | maxWidth | maxHeight => Size
  | edge _ _ => Nat
  | color | background | borderColor => Color
  | borderStyle => BorderStyle
  | opacity => Binary64
  | visible => Bool

instance (slot : Slot) : DecidableEq slot.Value := by
  cases slot <;> exact inferInstance

/-- Whether two values of a slot are equal as values: numbers are compared by
what they denote, so the two zeros are one value. -/
def sameValue : (slot : Slot) → slot.Value → slot.Value → Bool
  | width, left, right | height, left, right | minWidth, left, right
  | minHeight, left, right | maxWidth, left, right | maxHeight, left, right =>
      Size.sameValue left right
  | opacity, left, right => Binary64.sameValue left right
  | display, left, right | position, left, right | flexDirection, left, right
  | justifyContent, left, right | alignItems, left, right | gap, left, right
  | edge _ _, left, right | color, left, right | background, left, right
  | borderStyle, left, right | borderColor, left, right | visible, left, right =>
      decide (left = right)

end Slot

/-- A slot with a value to be written into it. -/
structure Assignment where
  slot : Slot
  value : slot.Value

namespace Style

/-- The spacing of one box. -/
def spacing (style : Style) : Box → Spacing
  | .padding => style.padding
  | .margin => style.margin

/-- The value in a slot. -/
def read (style : Style) : (slot : Slot) → slot.Value
  | .display => style.display
  | .position => style.position
  | .flexDirection => style.flexDirection
  | .justifyContent => style.justifyContent
  | .alignItems => style.alignItems
  | .gap => style.gap
  | .width => style.width
  | .height => style.height
  | .minWidth => style.minWidth
  | .minHeight => style.minHeight
  | .maxWidth => style.maxWidth
  | .maxHeight => style.maxHeight
  | .edge box side => (style.spacing box).read side
  | .color => style.color
  | .background => style.background
  | .borderStyle => style.borderStyle
  | .borderColor => style.borderColor
  | .opacity => style.opacity
  | .visible => style.visible

/-- The style with another value in one slot. -/
def write (style : Style) : (slot : Slot) → slot.Value → Style
  | .display, value => { style with display := value }
  | .position, value => { style with position := value }
  | .flexDirection, value => { style with flexDirection := value }
  | .justifyContent, value => { style with justifyContent := value }
  | .alignItems, value => { style with alignItems := value }
  | .gap, value => { style with gap := value }
  | .width, value => { style with width := value }
  | .height, value => { style with height := value }
  | .minWidth, value => { style with minWidth := value }
  | .minHeight, value => { style with minHeight := value }
  | .maxWidth, value => { style with maxWidth := value }
  | .maxHeight, value => { style with maxHeight := value }
  | .edge .padding side, value => { style with padding := style.padding.write side value }
  | .edge .margin side, value => { style with margin := style.margin.write side value }
  | .color, value => { style with color := value }
  | .background, value => { style with background := value }
  | .borderStyle, value => { style with borderStyle := value }
  | .borderColor, value => { style with borderColor := value }
  | .opacity, value => { style with opacity := value }
  | .visible, value => { style with visible := value }

/-- A written value is read back. -/
@[simp] theorem read_write (style : Style) (slot : Slot) (value : slot.Value) :
    (style.write slot value).read slot = value := by
  cases slot with
  | edge box side => cases box <;> cases side <;> rfl
  | _ => rfl

/-- Writing a slot leaves the other slots alone. -/
theorem read_write_of_ne (style : Style) {slot other : Slot} (value : slot.Value)
    (different : other ≠ slot) : (style.write slot value).read other = style.read other := by
  cases slot with
  | edge box side =>
      cases other with
      | edge otherBox otherSide =>
          cases box <;> cases otherBox <;> simp_all [write, read, spacing]
      | _ => cases box <;> rfl
  | _ => cases other <;> simp_all [write, read, spacing]

/-- The style after an assignment. -/
def assign (style : Style) (assignment : Assignment) : Style :=
  style.write assignment.slot assignment.value

/-- The style after some assignments in order. -/
def assignAll (style : Style) (assignments : List Assignment) : Style :=
  assignments.foldl assign style

end Style

end WidgetStyle
