import WidgetStyle.Selector.Basic
import WidgetStyle.Text.Digit

/-!
# The written form of selectors

Each selector has one written form.  Conditions of a compound come in a fixed
order, attribute texts stand between double quotes, and every combinator but the
descendant one is set off by spaces.  A part that a hand-built selector lacks is
written as the word that stands for nothing.  What is rendered is the form that
the parts ask for; as a text it is had only if no number in it has too many
digits.
-/

namespace WidgetStyle

/-- The word that stands for a missing part. -/
def absentText : String := "None"

namespace Combinator

/-- The sign of the combinator alone. -/
def sign : Combinator → Char
  | descendant => ' '
  | child => '>'
  | adjacentSibling => '+'
  | generalSibling => '~'

/-- The combinator as it stands between two compounds. -/
def render : Combinator → List Char
  | descendant => [' ']
  | combinator => [' ', combinator.sign, ' ']

end Combinator

namespace Comparison

/-- The operator between the attribute's name and the text. -/
def render : Comparison → List Char
  | equals => ['=']
  | containsWord => ['~', '=']
  | startsWithWord => ['|', '=']
  | startsWith => ['^', '=']
  | endsWith => ['$', '=']
  | contains => ['*', '=']

end Comparison

namespace AttributeCondition

/-- The condition between brackets.  The text is written as it is, without
escapes. -/
def render (condition : AttributeCondition) : List Char :=
  match condition.test with
  | .present => '[' :: condition.name.toList ++ [']']
  | .compare comparison value ignoreCase =>
      '[' :: condition.name.toList ++ comparison.render ++
        '"' :: (value.getD absentText).toList ++ '"' ::
          (if ignoreCase then [' ', 'i', ']'] else [']'])

end AttributeCondition

namespace PseudoClass

/-- A place between parentheses. -/
def renderPlace (place : Option Int) : List Char :=
  '(' :: (match place with
    | some number => (toString number).toList
    | none => absentText.toList) ++ [')']

/-- The pseudo-class with its colon and its argument. -/
def render : PseudoClass → List Char
  | state fact => ':' :: fact.name.toList
  | nthChild place => ":nth-child".toList ++ renderPlace place
  | nthLastChild place => ":nth-last-child".toList ++ renderPlace place
  | negation inner => ":not(".toList ++ inner.render ++ [')']
  | negationOfNothing => ":not(".toList ++ absentText.toList ++ [')']

/-- Whether the place in the pseudo-class can be written, if it has one. -/
def isWritable : PseudoClass → Bool
  | state _ => true
  | nthChild place => place.all Text.isWritable
  | nthLastChild place => place.all Text.isWritable
  | negation inner => inner.isWritable
  | negationOfNothing => true

end PseudoClass

namespace Compound

/-- The conditions in their fixed order, with nothing between them. -/
def render (compound : Compound) : List Char :=
  (if compound.universal then ['*'] else []) ++
  (match compound.element with
    | some name => name.toList
    | none => []) ++
  (match compound.id with
    | some name => '#' :: name.toList
    | none => []) ++
  (compound.classes.flatMap fun name => '.' :: name.toList) ++
  compound.attributes.flatMap AttributeCondition.render ++
  compound.pseudoClasses.flatMap PseudoClass.render

/-- Whether all places in the compound can be written. -/
def isWritable (compound : Compound) : Bool :=
  compound.pseudoClasses.all PseudoClass.isWritable

/-- The written form of the compound as a text. -/
def toText (compound : Compound) : Except Text.TooManyDigits String :=
  if compound.isWritable then .ok (String.ofList compound.render) else .error .written

end Compound

namespace Link

/-- The compound followed by its combinator, if it has one. -/
def render (link : Link) : List Char :=
  link.compound.render ++
    (match link.combinator with
      | some combinator => combinator.render
      | none => [])

end Link

namespace Selector

/-- The written form of the selector. -/
def render (selector : Selector) : List Char :=
  selector.links.flatMap Link.render

/-- Whether all places in the selector can be written. -/
def isWritable (selector : Selector) : Bool :=
  selector.links.all fun link => link.compound.isWritable

/-- The written form of the selector as a text. -/
def toText (selector : Selector) : Except Text.TooManyDigits String :=
  if selector.isWritable then .ok (String.ofList selector.render) else .error .written

end Selector

end WidgetStyle
