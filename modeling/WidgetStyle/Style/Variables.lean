import WidgetStyle.Table
import WidgetStyle.Text.Blank

/-!
# Variables

Named texts that a value can refer to.  A reference takes up the whole value: it
names a variable and may bring a fallback for the case that the variable is not
defined.  A value that is no reference, and a reference with nothing to put in
its place, stay as they are.
-/

namespace WidgetStyle

open WidgetStyle.Text

/-- Names with their texts, in the order of first definition. -/
abbrev Variables := Table String String

/-- A reference to a variable, with the text to use when it is not defined. -/
structure Reference where
  name : String
  fallback : Option String
deriving DecidableEq, Repr

namespace Reference

/-- Characters of variable names, all of them ASCII. -/
def isNameCharacter (character : Char) : Bool :=
  character.isAlphanum || character == '-' || character == '_'

/-- A name: two hyphens and at least one character more. -/
def readName? (text : List Char) : Option (String × List Char) :=
  match text.takeWhile isNameCharacter with
  | '-' :: '-' :: first :: rest =>
      some (String.ofList ('-' :: '-' :: first :: rest), text.dropWhile isNameCharacter)
  | _ => none

/-- The fallback in the text between the comma and the closing parenthesis: that
text without the blanks around it.  It must lie on one line.  Where there are
only blanks, the last one that is no line break serves. -/
def fallback? (text : List Char) : Option String :=
  match trim text with
  | [] => (text.reverse.find? (· != '\n')).map String.singleton
  | core => if core.contains '\n' then none else some (String.ofList core)

/-- The reference after its opening parenthesis. -/
def readOpened? (text : List Char) : Option Reference :=
  match readName? (skipBlanks text) with
  | none => none
  | some (name, rest) =>
      match skipBlanks rest with
      | [')'] => some ⟨name, none⟩
      | ',' :: remaining =>
          if remaining.getLast? = some ')' then
            (fallback? remaining.dropLast).map fun fallback => ⟨name, some fallback⟩
          else none
      | _ => none

/-- The reference that the whole text is, blanks at its ends apart. -/
def ofText? (text : List Char) : Option Reference :=
  match trim text with
  | 'v' :: 'a' :: 'r' :: '(' :: opened => readOpened? opened
  | _ => none

end Reference

namespace Variables

/-- The text that a value stands for.  A variable's own text is taken as it
is, even if it reads as a reference. -/
def expand (bindings : Variables) (value : String) : String :=
  match Reference.ofText? value.toList with
  | none => value
  | some reference =>
      match bindings.get? reference.name with
      | some text => text
      | none => reference.fallback.getD value

end Variables

end WidgetStyle
