import WidgetStyle.Selector.Basic
import WidgetStyle.Text.Lowercase
import WidgetStyle.Tree.Node

/-!
# Matching one node

Whether a node meets the conditions of a compound.  The attributes of a widget
are its classes, its element id, its type, and some of its flags; any other
attribute name matches nothing.
-/

namespace WidgetStyle

open WidgetStyle.Text

/-! ## Attribute texts -/

/-- Whether one text occurs inside another. -/
def isInside (part : List Char) : List Char → Bool
  | [] => part.isEmpty
  | character :: rest => part.isPrefixOf (character :: rest) || isInside part rest

namespace Comparison

/-- Whether the comparison holds between the text of an attribute and the text
of a condition.  The text of an attribute is one word. -/
def holds (comparison : Comparison) (subject value : List Char) : Bool :=
  match comparison with
  | equals | containsWord => subject == value
  | startsWith => value.isPrefixOf subject
  | endsWith => value.isSuffixOf subject
  | contains => isInside value subject
  | startsWithWord => subject == value || (value ++ ['-']).isPrefixOf subject

/-- Whether the comparison holds between two strings, which may be lowered
first, each by itself. -/
def compare (comparison : Comparison) (ignoreCase : Bool) (subject value : String) : Bool :=
  if ignoreCase then comparison.holds (lower subject.toList) (lower value.toList)
  else comparison.holds subject.toList value.toList

/-- The comparisons that the element id takes part in. -/
def appliesToId : Comparison → Bool
  | equals | startsWith | endsWith | contains => true
  | containsWord | startsWithWord => false

/-- The comparisons that the widget type takes part in. -/
def appliesToType : Comparison → Bool
  | equals | contains => true
  | containsWord | startsWithWord | startsWith | endsWith => false

end Comparison

/-! ## Attributes -/

/-- The attributes of a widget.  A toggle has a text that says whether it is on;
a presence can only be asked for. -/
inductive WidgetAttribute where
  | classes
  | elementId
  | widgetType
  | toggle (flag : Flag)
  | presence (flag : Flag)
deriving DecidableEq, Repr

namespace WidgetAttribute

/-- The attributes under their names. -/
def table : List (String × WidgetAttribute) :=
  [("class", classes), ("id", elementId), ("type", widgetType),
    ("disabled", toggle .disabled), ("checked", toggle .checked),
    ("selected", toggle .selected), ("focused", presence .focused),
    ("focus", presence .focused), ("hovered", presence .hovered), ("hover", presence .hovered)]

/-- The attribute with the given name. -/
def ofName? (name : String) : Option WidgetAttribute :=
  table.lookup name

/-- Whether the node has the attribute. -/
def isPresent (feature : WidgetAttribute) (identity : Identity) (flags : Flags) : Bool :=
  match feature with
  | classes => !identity.classes.isEmpty
  | elementId => identity.elementId.isSome
  | widgetType => !identity.widgetType.isEmpty
  | toggle flag => flags.read flag
  | presence flag => flags.read flag

/-- The classes of a widget as one text. -/
def joinedClasses (identity : Identity) : String :=
  String.intercalate " " (sortNames identity.classes)

/-- Whether the text says that a toggle is on. -/
def saysOn (ignoreCase : Bool) (value : String) : Bool :=
  ["true", "1", ""].contains (if ignoreCase then lowerString value else value)

/-- Whether the attribute of a node compares well with a text.  For equality the
classes are one text, for the other comparisons each class is tried.  A missing
element id counts as empty. -/
def comparesWell (feature : WidgetAttribute) (comparison : Comparison)
    (value : Option String) (ignoreCase : Bool) (identity : Identity) (flags : Flags) : Bool :=
  match feature, value with
  | classes, some value =>
      if comparison = .equals then
        comparison.compare ignoreCase (joinedClasses identity) value
      else identity.classes.any fun name => comparison.compare ignoreCase name value
  | elementId, some value =>
      comparison.appliesToId &&
        comparison.compare ignoreCase (identity.elementId.getD "") value
  | widgetType, some value =>
      comparison.appliesToType && comparison.compare ignoreCase identity.widgetType value
  | toggle flag, value =>
      decide (comparison = .equals) && flags.read flag == saysOn ignoreCase (value.getD "")
  | presence _, _ => false
  | _, none => false

end WidgetAttribute

namespace AttributeCondition

/-- Whether the node meets the condition. -/
def holdsOf (condition : AttributeCondition) (node : Node) : Bool :=
  match WidgetAttribute.ofName? condition.name with
  | none => false
  | some feature =>
      match condition.test with
      | .present => feature.isPresent node.identity node.flags
      | .compare comparison value ignoreCase =>
          feature.comparesWell comparison value ignoreCase node.identity node.flags

end AttributeCondition

/-! ## Pseudo-classes -/

namespace StateClass

/-- Whether the fact holds of the node. -/
def holdsOf (fact : StateClass) (node : Node) : Bool :=
  match fact with
  | focus => node.flags.focused
  | hover => node.flags.hovered
  | active => node.flags.active
  | disabled => node.flags.disabled
  | enabled => !node.flags.disabled
  | checked => node.flags.checked
  | selected => node.flags.selected
  | empty => node.flags.empty
  | firstChild => node.placement.isFirst
  | lastChild => node.placement.isLast
  | onlyChild => node.placement.isOnly

end StateClass

namespace PseudoClass

/-- Whether the node meets the condition. -/
def holdsOf (pseudoClass : PseudoClass) (node : Node) : Bool :=
  match pseudoClass with
  | state fact => fact.holdsOf node
  | nthChild place => place == some (node.placement.index + 1)
  | nthLastChild place => place == some (node.placement.total - node.placement.index)
  | negation inner => !inner.holdsOf node
  | negationOfNothing => false

end PseudoClass

/-! ## Compounds -/

namespace Compound

/-- Whether the node meets all conditions.  The star asks for nothing. -/
def holdsOf (compound : Compound) (node : Node) : Bool :=
  compound.element.all (fun name => node.identity.widgetType == name) &&
  compound.id.all (fun name => node.identity.elementId == some name) &&
  compound.classes.all node.identity.hasClass &&
  compound.pseudoClasses.all (fun pseudoClass => pseudoClass.holdsOf node) &&
  compound.attributes.all fun condition => condition.holdsOf node

end Compound

end WidgetStyle
