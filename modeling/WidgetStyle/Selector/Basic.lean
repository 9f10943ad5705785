import WidgetStyle.Keyword

/-!
# Selectors

A selector describes a node of a widget tree by itself and by its surroundings.
It is a chain of compounds, each a set of conditions on one node, joined by
combinators that say how the nodes lie to each other.  The last compound is the
target: it describes the node that the selector selects.
-/

namespace WidgetStyle

/-- How the nodes of two neighbouring compounds lie to each other. -/
inductive Combinator where
  | descendant
  | child
  | adjacentSibling
  | generalSibling
deriving DecidableEq, Repr

/-- How an attribute's text is compared with the text of the condition. -/
inductive Comparison where
  | equals
  | containsWord
  | startsWithWord
  | startsWith
  | endsWith
  | contains
deriving DecidableEq, Repr

/-- What a condition asks of an attribute: that it is there, or that its text
compares well.  A comparison without a text can be built by hand only, and holds
of no text. -/
inductive AttributeTest where
  | present
  | compare (comparison : Comparison) (value : Option String) (ignoreCase : Bool)
deriving DecidableEq, Repr

/-- A condition on the attribute with the given name. -/
structure AttributeCondition where
  name : String
  test : AttributeTest
deriving DecidableEq, Repr

/-- A pseudo-class that asks for one fact of a node's state. -/
inductive StateClass where
  | focus
  | hover
  | active
  | disabled
  | enabled
  | checked
  | selected
  | empty
  | firstChild
  | lastChild
  | onlyChild
deriving DecidableEq, Repr

/-- A condition on the state of a node or on its place among its siblings.  The
place counts from one; a missing place and a negation of nothing can be built by
hand only, and hold of no node. -/
inductive PseudoClass where
  | state (fact : StateClass)
  | nthChild (place : Option Int)
  | nthLastChild (place : Option Int)
  | negation (inner : PseudoClass)
  | negationOfNothing
deriving DecidableEq, Repr

/-- All conditions on one node: everything between two combinators. -/
structure Compound where
  element : Option String := none
  id : Option String := none
  classes : List String := []
  attributes : List AttributeCondition := []
  pseudoClasses : List PseudoClass := []
  universal : Bool := false
deriving DecidableEq, Repr

/-- One compound of a chain with the combinator that leads to the next one. -/
structure Link where
  compound : Compound
  combinator : Option Combinator := none
deriving DecidableEq, Repr

/-- A chain of compounds.  Chains that are read or built from parts carry a
combinator on every link but the last. -/
structure Selector where
  links : List Link := []
deriving DecidableEq, Repr

/-- How many conditions of each rank something has: ids, then classes,
attributes and pseudo-classes together, then element names. -/
structure Weight where
  ids : Nat := 0
  classes : Nat := 0
  types : Nat := 0
deriving DecidableEq, Repr

namespace Weight

/-- Weights add up rank by rank. -/
def add (left right : Weight) : Weight where
  ids := left.ids + right.ids
  classes := left.classes + right.classes
  types := left.types + right.types

instance : Add Weight := ⟨add⟩

end Weight

namespace StateClass

/-- The name that follows the colon. -/
def name : StateClass → String
  | focus => "focus"
  | hover => "hover"
  | active => "active"
  | disabled => "disabled"
  | enabled => "enabled"
  | checked => "checked"
  | selected => "selected"
  | empty => "empty"
  | firstChild => "first-child"
  | lastChild => "last-child"
  | onlyChild => "only-child"

instance : Keyword StateClass where
  all := [focus, hover, active, disabled, enabled, checked, selected, empty,
    firstChild, lastChild, onlyChild]
  name := name
  complete value := by cases value <;> decide
  distinct := by decide

end StateClass

namespace Compound

/-- Whether the compound has no condition at all, not even the universal one. -/
def isEmpty (compound : Compound) : Bool :=
  compound.element.isNone && compound.id.isNone && compound.classes.isEmpty &&
    compound.attributes.isEmpty && compound.pseudoClasses.isEmpty && !compound.universal

/-- Whether the compound is a bare star. -/
def isBareStar (compound : Compound) : Bool :=
  compound.universal && compound.element.isNone && compound.id.isNone &&
    compound.classes.isEmpty && compound.attributes.isEmpty &&
    compound.pseudoClasses.isEmpty

/-- The compound's conditions by rank; the star has no weight. -/
def weight (compound : Compound) : Weight where
  ids := if compound.id.isSome then 1 else 0
  classes :=
    compound.classes.length + compound.attributes.length + compound.pseudoClasses.length
  types := if compound.element.isSome then 1 else 0

end Compound

namespace Selector

/-- The selector of one compound. -/
def ofCompound (compound : Compound) : Selector :=
  ⟨[{ compound }]⟩

/-- A chain with one more compound at its end. -/
def extendLinks (links : List Link) (combinator : Combinator) (compound : Compound) :
    List Link :=
  match links with
  | [] => [{ compound }]
  | [last] => [{ last with combinator := some combinator }, { compound }]
  | link :: rest => link :: extendLinks rest combinator compound

/-- The selector whose target is `compound`, reached from the old target by the
combinator.  On the empty selector the combinator has nothing to join. -/
def joined (selector : Selector) (combinator : Combinator) (compound : Compound) : Selector :=
  ⟨extendLinks selector.links combinator compound⟩

/-- The compound anywhere below the old target. -/
def descendant (selector : Selector) (compound : Compound) : Selector :=
  selector.joined .descendant compound

/-- The compound directly below the old target. -/
def child (selector : Selector) (compound : Compound) : Selector :=
  selector.joined .child compound

/-- The compound that describes the selected node itself. -/
def target? (selector : Selector) : Option Compound :=
  selector.links.getLast?.map (·.compound)

/-- Whether the selector has no compound. -/
def isEmpty (selector : Selector) : Bool :=
  selector.links.isEmpty

/-- The conditions of all compounds by rank. -/
def weight (selector : Selector) : Weight :=
  selector.links.foldl (fun total link => total + link.compound.weight) {}

end Selector

end WidgetStyle
