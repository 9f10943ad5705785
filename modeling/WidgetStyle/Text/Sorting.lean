/-!
# Sorted names

Names in the order of their characters, which is how lists of names are shown.
-/

namespace WidgetStyle.Text

/-- The names in ascending order. -/
def sortNames (names : List String) : List String :=
  names.mergeSort fun left right => decide (left ≤ right)

end WidgetStyle.Text
