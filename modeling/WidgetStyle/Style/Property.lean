import WidgetStyle.Style.Basic
import WidgetStyle.Style.Variables

/-!
# Properties

What a declaration writes.  A property names a slot, all sides of a box, or the
border; its value is read without a look at the style, so a declaration is a
list of assignments that are the same for every style.  A value that cannot be
read, or an unknown property, writes nothing.
-/

namespace WidgetStyle

open WidgetStyle.Text WidgetStyle.Number

/-- What a property sets. -/
inductive Property where
  | slot (slot : Slot)
  | box (box : Box)
  | border
deriving DecidableEq, Repr

namespace Property

/-- The properties that are looked up by their whole names. -/
def plain : List (String × Property) :=
  [("display", .slot .display), ("position", .slot .position),
    ("flex-direction", .slot .flexDirection), ("justify-content", .slot .justifyContent),
    ("align-items", .slot .alignItems), ("gap", .slot .gap),
    ("width", .slot .width), ("height", .slot .height),
    ("min-width", .slot .minWidth), ("min-height", .slot .minHeight),
    ("max-width", .slot .maxWidth), ("max-height", .slot .maxHeight),
    ("padding", .box .padding), ("margin", .box .margin),
    ("color", .slot .color), ("background", .slot .background),
    ("background-color", .slot .background), ("border-style", .slot .borderStyle),
    ("border-color", .slot .borderColor), ("opacity", .slot .opacity),
    ("visibility", .slot .visible)]

/-- The boxes under their names. -/
def boxes : List (String × Box) :=
  [("padding", .padding), ("margin", .margin)]

/-- The side of a box, whose name is the box before the first hyphen and the side after it. -/
def edge? (name : String) : Option Property :=
  let box := boxes.lookup (String.ofList (name.toList.takeWhile (· != '-')))
  let side : Option Side :=
    Keyword.ofName? (String.ofList ((name.toList.dropWhile (· != '-')).drop 1))
  box.bind fun box => side.map fun side => .slot (.edge box side)

/-- The property with the given name in lower case: a plain one, else a side of a box, else
the border. -/
def dispatch? (name : String) : Option Property :=
  (plain.lookup name).or ((edge? name).or (if name = "border" then some .border else none))

/-- All names of properties: the plain ones, those of the sides, and the border. -/
def supported : List String :=
  plain.map Prod.fst ++
    (boxes.flatMap fun box =>
      (Keyword.all : List Side).map fun side => box.1 ++ "-" ++ Keyword.name side) ++
    ["border"]

end Property

/-- Whether the text says that a widget is shown. -/
def parseVisibility? (text : List Char) : Option Bool :=
  let word := String.ofList (lower (trim text))
  if word = "visible" then some true
  else if word = "hidden" then some false
  else none

/-- The value for a slot that the text denotes. -/
def Slot.parse? (slot : Slot) (text : List Char) : Except StyleError (Option slot.Value) :=
  match slot with
  | .display => .ok (parseKeyword? Display text)
  | .position => .ok (parseKeyword? Position text)
  | .flexDirection => .ok (parseKeyword? FlexDirection text)
  | .justifyContent => .ok (parseKeyword? JustifyContent text)
  | .alignItems => .ok (parseKeyword? AlignItems text)
  | .borderStyle => .ok (parseKeyword? BorderStyle text)
  | .gap => parseCells? (trim text)
  | .edge _ _ => parseCells? (trim text)
  | .width => Size.parse? text
  | .height => Size.parse? text
  | .minWidth => Size.parse? text
  | .minHeight => Size.parse? text
  | .maxWidth => Size.parse? text
  | .maxHeight => Size.parse? text
  | .color => .ok (Color.parse? text)
  | .background => .ok (Color.parse? text)
  | .borderColor => .ok (Color.parse? text)
  | .opacity => .ok ((readNumber? text).map Binary64.clampToUnit)
  | .visible => .ok (parseVisibility? text)

/-- The assignments of the border property: a line, and a colour if one follows
the first word.  A colour that cannot be read spoils the line as well. -/
def borderAssignments? (text : List Char) : Option (List Assignment) :=
  let start := skipBlanks text
  let word := start.takeWhile fun character => !isBlank character
  let rest := skipBlanks (start.dropWhile fun character => !isBlank character)
  match parseKeyword? BorderStyle word with
  | none => none
  | some line =>
      if rest.isEmpty then some [⟨.borderStyle, line⟩]
      else
        (Color.parse? rest).map fun color => [⟨.borderStyle, line⟩, ⟨.borderColor, color⟩]

namespace Property

/-- What the property writes for a value, nothing when the value cannot be
read. -/
def assignments? (property : Property) (text : List Char) :
    Except StyleError (Option (List Assignment)) :=
  match property with
  | .slot target =>
      (target.parse? text).map fun value => value.map fun value => [⟨target, value⟩]
  | .box target =>
      (Spacing.parse? text).map fun value => value.map fun spacing =>
        (Keyword.all : List Side).map fun side => ⟨.edge target side, spacing.read side⟩
  | .border => .ok (borderAssignments? text)

end Property

/-- What a declaration writes: the property is known by its name in any case,
and the value is what its reference stands for. -/
def declarationAssignments? (name value : String) (bindings : Variables) :
    Except StyleError (Option (List Assignment)) :=
  match Property.dispatch? (String.ofList (lower (trim name.toList))) with
  | none => .ok none
  | some property => property.assignments? (trim (bindings.expand value).toList)

namespace Style

/-- The style after a declaration, or nothing when the declaration does not
apply. -/
def declare? (style : Style) (name value : String) (bindings : Variables) :
    Except StyleError (Option Style) :=
  (declarationAssignments? name value bindings).map fun assignments =>
    assignments.map style.assignAll

end Style

end WidgetStyle
