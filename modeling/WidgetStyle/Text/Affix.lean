/-!
# Endings

Taking a known ending off a text.
-/

namespace WidgetStyle.Text

/-- The text before the ending, or nothing when it does not end so. -/
def dropEnding? (ending text : List Char) : Option (List Char) :=
  if ending.isSuffixOf text then some (text.take (text.length - ending.length)) else none

/-- The text before the ending, or the whole text when it does not end so. -/
def dropEnding (ending text : List Char) : List Char :=
  (dropEnding? ending text).getD text

end WidgetStyle.Text
