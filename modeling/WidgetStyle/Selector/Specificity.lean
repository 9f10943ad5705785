import WidgetStyle.Selector.Basic

/-!
# Specificity

The rank of a matched rule in the cascade.  Ranks are compared field by field in
the order in which the fields are listed: importance first, then inline origin,
the three counts of a selector's weight, and at last the order of the rules, so
that of two equal ranks the later rule wins.  The counts are integers, so that a
rank can also be given by hand without any selector behind it.
-/

namespace WidgetStyle

/-- The rank of a matched rule. -/
structure Specificity where
  important : Bool := false
  isInline : Bool := false
  ids : Int := 0
  classes : Int := 0
  types : Int := 0
  order : Int := 0
deriving DecidableEq, Repr

namespace Specificity

/-- The rank that a selector gives to the rule at the place `order`. -/
def ofSelector (selector : Selector) (order : Int) : Specificity where
  ids := selector.weight.ids
  classes := selector.weight.classes
  types := selector.weight.types
  order := order

/-- The rank of a node's inline style. -/
def ofInline : Specificity where
  isInline := true

/-- The same rank among the important declarations. -/
def madeImportant (specificity : Specificity) : Specificity :=
  { specificity with important := true }

/-- Field by field, the first difference decides. -/
def compare : Specificity → Specificity → Ordering :=
  compareLex (compareOn important) <|
  compareLex (compareOn isInline) <|
  compareLex (compareOn ids) <|
  compareLex (compareOn classes) <|
  compareLex (compareOn types) (compareOn order)

/-- Whether the first rank is at most the second. -/
def atMost (left right : Specificity) : Bool :=
  (compare left right).isLE

/-- The rank as it is shown: its origin, the counts and the rule's place. -/
def toText (specificity : Specificity) : String :=
  (if specificity.important then "!important " else "") ++
  (if specificity.isInline then "inline " else "") ++
  "(" ++ toString specificity.ids ++ "," ++ toString specificity.classes ++ "," ++
  toString specificity.types ++ ")@" ++ toString specificity.order

end Specificity

end WidgetStyle
