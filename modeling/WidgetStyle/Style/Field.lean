import WidgetStyle.Style.Basic

/-!
# Fields

Merging and inheritance work field by field.  A field is set when one of its
slots differs from the default, and a set field is carried over as a whole.
-/

namespace WidgetStyle

/-- A named field of a style. -/
inductive Field where
  | display
  | position
  | flexDirection
  | justifyContent
  | alignItems
  | gap
  | width
  | height
  | minWidth
  | minHeight
  | maxWidth
  | maxHeight
  | padding
  | margin
  | color
  | background
  | borderStyle
  | borderColor
  | opacity
  | visible
deriving DecidableEq, Repr

namespace Field

instance : Keyword Field where
  all := [.display, .position, .flexDirection, .justifyContent, .alignItems, .gap, .width,
    .height, .minWidth, .minHeight, .maxWidth, .maxHeight, .padding, .margin, .color,
    .background, .borderStyle, .borderColor, .opacity, .visible]
  name
    | .display => "display"
    | .position => "position"
    | .flexDirection => "flex_direction"
    | .justifyContent => "justify_content"
    | .alignItems => "align_items"
    | .gap => "gap"
    | .width => "width"
    | .height => "height"
    | .minWidth => "min_width"
    | .minHeight => "min_height"
    | .maxWidth => "max_width"
    | .maxHeight => "max_height"
    | .padding => "padding"
    | .margin => "margin"
    | .color => "color"
    | .background => "background"
    | .borderStyle => "border_style"
    | .borderColor => "border_color"
    | .opacity => "opacity"
    | .visible => "visible"
  complete value := by cases value <;> decide
  distinct := by decide

/-- The slots of a box, clockwise. -/
def slotsOfBox (box : Box) : List Slot :=
  (Keyword.all : List Side).map (Slot.edge box)

/-- The slots that make up a field. -/
def slots : Field → List Slot
  | display => [.display]
  | position => [.position]
  | flexDirection => [.flexDirection]
  | justifyContent => [.justifyContent]
  | alignItems => [.alignItems]
  | gap => [.gap]
  | width => [.width]
  | height => [.height]
  | minWidth => [.minWidth]
  | minHeight => [.minHeight]
  | maxWidth => [.maxWidth]
  | maxHeight => [.maxHeight]
  | padding => slotsOfBox .padding
  | margin => slotsOfBox .margin
  | color => [.color]
  | background => [.background]
  | borderStyle => [.borderStyle]
  | borderColor => [.borderColor]
  | opacity => [.opacity]
  | visible => [.visible]

/-- The fields that a child takes from its parent unless told otherwise. -/
def inheritedByDefault : List Field :=
  [.color, .opacity, .visible]

end Field

namespace Style

/-- Whether the field differs from its default. -/
def isSet (style : Style) (field : Field) : Bool :=
  field.slots.any fun slot => decide (style.read slot ≠ ({} : Style).read slot)

/-- The style with one field taken from another style. -/
def take (style : Style) (field : Field) (source : Style) : Style :=
  field.slots.foldl (fun result slot => result.write slot (source.read slot)) style

/-- The style in which the set fields of another one take over. -/
def overlay (style other : Style) : Style :=
  (Keyword.all.filter other.isSet).foldl (fun result field => result.take field other) style

/-- What a child starts from: the given fields of the parent, and defaults. -/
def inherit (parent : Style) (fields : List Field) : Style :=
  fields.foldl (fun result field => result.take field parent) {}

/-- Whether all slots of two styles are equal as values. -/
def sameValue (left right : Style) : Bool :=
  (Keyword.all : List Field).all fun field =>
    field.slots.all fun slot => slot.sameValue (left.read slot) (right.read slot)

end Style

end WidgetStyle
