/-!
# Control sequences

A control sequence tells a terminal to do something, such as to change colours,
and shows nothing by itself.  After an escape character and a bracket it has any
number of parameter characters, then any number of intermediate characters, and
one final character.  These three kinds of characters are ranges of ASCII without
overlap, so the end of a sequence can be found in one way only.
-/

namespace WidgetStyle.Text

/-- The character that opens a control sequence together with a bracket. -/
def escape : Char := Char.ofNat 0x1b

/-- Digits, and the signs that separate or mark parameters. -/
def isParameter (character : Char) : Bool :=
  decide ('0' ≤ character) && decide (character ≤ '?')

/-- The space and the signs before the digits. -/
def isIntermediate (character : Char) : Bool :=
  decide (' ' ≤ character) && decide (character ≤ '/')

/-- Letters, and the signs around them. -/
def isFinal (character : Char) : Bool :=
  decide ('@' ≤ character) && decide (character ≤ '~')

/-- What follows the control sequence at the start of the text, if there is one. -/
def afterControlSequence? (text : List Char) : Option (List Char) :=
  match text with
  | opening :: '[' :: body =>
      match (body.dropWhile isParameter).dropWhile isIntermediate with
      | [] => none
      | final :: rest => if opening = escape ∧ isFinal final then some rest else none
  | _ => none

theorem length_lt_of_afterControlSequence? {text rest : List Char}
    (found : afterControlSequence? text = some rest) : rest.length < text.length := by
  unfold afterControlSequence? at found
  split at found
  · rename_i opening body
    have shorter := (List.dropWhile_suffix (l := body.dropWhile isParameter)
      isIntermediate).length_le
    have shortest := (List.dropWhile_suffix (l := body) isParameter).length_le
    grind [List.length_cons]
  · simp at found

/-- The text without its control sequences.  What is left of a text may read as
another sequence, which stays. -/
def dropControlSequences (text : List Char) : List Char :=
  match text with
  | [] => []
  | character :: rest =>
      match _found : afterControlSequence? (character :: rest) with
      | some remaining => dropControlSequences remaining
      | none => character :: dropControlSequences rest
termination_by text.length
decreasing_by
  · exact length_lt_of_afterControlSequence? _found
  · simp

end WidgetStyle.Text
