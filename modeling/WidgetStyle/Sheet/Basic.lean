import WidgetStyle.Style.Variables
import WidgetStyle.Text.Lowercase

/-!
# Style sheets

A sheet is a list of rules in source order with the variables that their values
may refer to.  A rule pairs the text of a selector group with declarations; the
selector text is kept as it is and read when the sheet is put to use.
-/

namespace WidgetStyle

open WidgetStyle.Text

/-- A property with the value it is given. -/
structure Declaration where
  property : String
  value : String
  important : Bool := false
deriving DecidableEq, Repr

namespace Declaration

/-- The mark that makes a declaration important. -/
def importantMark : List Char :=
  "!important".toList

/-- The declaration of a property and a value, both without blanks around them.
A mark at the end of the value, in any case, becomes the flag. -/
def ofPair (property value : String) : Declaration :=
  let text := trim value.toList
  if importantMark.isSuffixOf (lower text) then
    { property := trimString property
      value := String.ofList (trimEnd (text.take (text.length - importantMark.length)))
      important := true }
  else
    { property := trimString property, value := String.ofList text }

end Declaration

/-- A selector group with what it declares, in the order of the text. -/
structure Rule where
  selector : String
  declarations : List Declaration
deriving DecidableEq, Repr

namespace Rule

/-- The rule of a selector group and pairs of properties and values. -/
def ofPairs (selector : String) (pairs : List (String × String)) : Rule where
  selector := selector
  declarations := pairs.map fun pair => Declaration.ofPair pair.1 pair.2

end Rule

/-- Rules in source order and variables. -/
structure Sheet where
  rules : List Rule := []
  bindings : Variables := {}
deriving DecidableEq, Repr

namespace Sheet

/-- The sheet with one more rule at its end. -/
def appendRule (sheet : Sheet) (rule : Rule) : Sheet :=
  { sheet with rules := sheet.rules ++ [rule] }

/-- The sheet followed by another one, whose variables win. -/
def append (sheet other : Sheet) : Sheet where
  rules := sheet.rules ++ other.rules
  bindings := sheet.bindings.putAll other.bindings

end Sheet

end WidgetStyle
