import WidgetStyle.Selector.Reader

/-!
# Selector groups

A group is a list of selectors between commas.  Only commas outside quotes and
brackets separate; a segment that is blank is skipped, so a stray comma does no
harm.  A fault in a segment is placed in the text of the whole group.
-/

namespace WidgetStyle.Selector

open WidgetStyle.Text

/-- Where a character lies: inside a quoted text, or under some brackets. -/
structure Nesting where
  quote : Option Char := none
  depth : Nat := 0
deriving DecidableEq, Repr

namespace Nesting

/-- Whether a comma separates segments here. -/
def isOutermost (nesting : Nesting) : Bool :=
  nesting.quote.isNone && nesting.depth == 0

/-- The nesting after one more character.  A closing bracket too many is
ignored, and the two kinds of bracket are not told apart. -/
def after (nesting : Nesting) (character : Char) : Nesting :=
  match nesting.quote with
  | some quote => if character == quote then { nesting with quote := none } else nesting
  | none =>
      if character == '\'' || character == '"' then { nesting with quote := some character }
      else if character == '[' || character == '(' then
        { nesting with depth := nesting.depth + 1 }
      else if character == ']' || character == ')' then
        { nesting with depth := nesting.depth - 1 }
      else nesting

end Nesting

/-- The text cut at the commas that separate. -/
def segments (nesting : Nesting) : List Char → List (List Char)
  | [] => [[]]
  | character :: rest =>
      if character == ',' && nesting.isOutermost then [] :: segments nesting rest
      else
        match segments (nesting.after character) rest with
        | [] => [[character]]
        | segment :: others => (character :: segment) :: others

/-- The selectors of the segments, the first of which starts at `offset`. -/
def readSegments (offset : Nat) : List (List Char) → Except SelectorFailure (List Selector)
  | [] => .ok []
  | segment :: others =>
      let next := offset + segment.length + 1
      if segment.all isBlank then readSegments next others
      else
        match readSelector segment with
        | .error failure => .error (failure.behind offset)
        | .ok selector => (readSegments next others).map (selector :: ·)

/-- The selectors of a group, in the order of the text. -/
def readGroup (text : List Char) : Except SelectorFailure (List Selector) :=
  readSegments 0 (segments {} text)

/-- The selectors of the group written in the string. -/
def parseGroup (text : String) : Except SelectorFailure (List Selector) :=
  readGroup text.toList

end WidgetStyle.Selector
