import WidgetStyle.Keyword
import WidgetStyle.Text.Blank
import WidgetStyle.Text.Lowercase

/-!
# Keyword properties

The vocabularies of the properties that are set by a word: how a widget is laid
out, placed and framed.
-/

namespace WidgetStyle

/-- How a widget lays out its children. -/
inductive Display where
  | flex
  | block
  | grid
  | none
deriving DecidableEq, Repr

/-- How a widget is placed. -/
inductive Position where
  | static
  | relative
  | absolute
  | fixed
  | sticky
deriving DecidableEq, Repr

/-- The main axis of a flexible layout. -/
inductive FlexDirection where
  | row
  | column
deriving DecidableEq, Repr

/-- Where children gather along the main axis. -/
inductive JustifyContent where
  | start
  | center
  | finish
  | spaceBetween
  | spaceAround
deriving DecidableEq, Repr

/-- Where children gather across the main axis. -/
inductive AlignItems where
  | start
  | center
  | finish
  | stretch
deriving DecidableEq, Repr

/-- The line of a border. -/
inductive BorderStyle where
  | none
  | solid
  | dashed
  | double
  | rounded
deriving DecidableEq, Repr

instance : Keyword Display where
  all := [.flex, .block, .grid, .none]
  name
    | .flex => "flex"
    | .block => "block"
    | .grid => "grid"
    | .none => "none"
  complete value := by cases value <;> decide
  distinct := by decide

instance : Keyword Position where
  all := [.static, .relative, .absolute, .fixed, .sticky]
  name
    | .static => "static"
    | .relative => "relative"
    | .absolute => "absolute"
    | .fixed => "fixed"
    | .sticky => "sticky"
  complete value := by cases value <;> decide
  distinct := by decide

instance : Keyword FlexDirection where
  all := [.row, .column]
  name
    | .row => "row"
    | .column => "column"
  complete value := by cases value <;> decide
  distinct := by decide

instance : Keyword JustifyContent where
  all := [.start, .center, .finish, .spaceBetween, .spaceAround]
  name
    | .start => "start"
    | .center => "center"
    | .finish => "end"
    | .spaceBetween => "space-between"
    | .spaceAround => "space-around"
  complete value := by cases value <;> decide
  distinct := by decide

instance : Keyword AlignItems where
  all := [.start, .center, .finish, .stretch]
  name
    | .start => "start"
    | .center => "center"
    | .finish => "end"
    | .stretch => "stretch"
  complete value := by cases value <;> decide
  distinct := by decide

instance : Keyword BorderStyle where
  all := [.none, .solid, .dashed, .double, .rounded]
  name
    | .none => "none"
    | .solid => "solid"
    | .dashed => "dashed"
    | .double => "double"
    | .rounded => "rounded"
  complete value := by cases value <;> decide
  distinct := by decide

/-- The spellings that stand for other words in every vocabulary. -/
def keywordAlias (word : String) : String :=
  if word = "flex-start" then "start"
  else if word = "flex-end" then "end"
  else word

/-- The value whose word the text is, in any case and with blanks around it. -/
def parseKeyword? (Value : Type) [Keyword Value] (text : List Char) : Option Value :=
  Keyword.ofName? (keywordAlias (String.ofList (Text.lower (Text.trim text))))

end WidgetStyle
