import WidgetStyle.Text.Digit
import WidgetStyle.Text.Quoted

/-!
# Faults in selector text

Why a text is no selector.  A fault names its cause and the place where reading
stopped; the wording is made from the cause alone.  A number that has too many
digits is no such fault, and has no place.
-/

namespace WidgetStyle

/-- What is wrong at the place of a fault. -/
inductive SelectorFault where
  | emptySelector
  | expectedSelector
  | unexpectedCharacter (character : Char)
  | expectedId
  | expectedClassName
  | expectedPseudoClassName
  | unknownPseudoClass (name : String)
  | expectedPlaceOpening
  | invalidPlace
  | expectedPlaceClosing
  | placeTooSmall
  | expectedNegationOpening
  | expectedNegatedPseudoClass
  | expectedNegationClosing
  | expectedAttributeName
  | unterminatedAttribute
  | expectedEqualsSign (after : Char)
  | expectedAttributeOperator
  | unterminatedString
  | expectedAttributeClosing
deriving DecidableEq, Repr

namespace SelectorFault

/-- The wording of the fault. -/
def message : SelectorFault → String
  | emptySelector => "Empty selector"
  | expectedSelector => "Expected selector after combinator"
  | unexpectedCharacter character => "Unexpected character " ++ Text.quotedChar character
  | expectedId => "Expected ID after #"
  | expectedClassName => "Expected class name after ."
  | expectedPseudoClassName => "Expected pseudo-class name after :"
  | unknownPseudoClass name => "Unknown pseudo-class: " ++ name
  | expectedPlaceOpening => "Expected ( for nth argument"
  | invalidPlace => "Invalid nth argument"
  | expectedPlaceClosing => "Expected ) after nth argument"
  | placeTooSmall => "nth argument must be at least 1"
  | expectedNegationOpening => "Expected ( after :not"
  | expectedNegatedPseudoClass => "Expected pseudo-class in :not()"
  | expectedNegationClosing => "Expected ) to close :not()"
  | expectedAttributeName => "Expected attribute name"
  | unterminatedAttribute => "Unterminated attribute selector"
  | expectedEqualsSign after => "Expected = after " ++ String.singleton after
  | expectedAttributeOperator => "Expected attribute operator"
  | unterminatedString => "Unterminated string in attribute selector"
  | expectedAttributeClosing => "Expected ] to close attribute selector"

end SelectorFault

/-- A fault and its place, counted in characters from the start of the text. -/
structure SelectorError where
  fault : SelectorFault
  position : Nat
deriving DecidableEq, Repr

namespace SelectorError

/-- The wording of the error with its place. -/
def message (error : SelectorError) : String :=
  "Selector parse error at " ++ toString error.position ++ ": " ++ error.fault.message

end SelectorError

/-- Why a text is not read: it is refused for a fault, or a number in it has too
many digits. -/
inductive SelectorFailure where
  | refused (error : SelectorError)
  | excess (excess : Text.TooManyDigits)
deriving DecidableEq, Repr

/-- The failure in a text that has so many characters more at its start. -/
def SelectorFailure.behind (offset : Nat) : SelectorFailure → SelectorFailure
  | .refused error => .refused { error with position := error.position + offset }
  | .excess tooMany => .excess tooMany

end WidgetStyle
