/-!
# Comments

A comment runs from its opening to the nearest closing, and leaves only its line
breaks behind, so that every character keeps its line.  An opening without a
closing is no comment.
-/

namespace WidgetStyle.Sheet

/-- The text up to the nearest closing of a comment, and the text after it. -/
def splitAtClosing? : List Char → Option (List Char × List Char)
  | [] => none
  | '*' :: '/' :: rest => some ([], rest)
  | character :: rest =>
      (splitAtClosing? rest).map fun (inside, after) => (character :: inside, after)

theorem length_lt_of_splitAtClosing? {text inside after : List Char}
    (split : splitAtClosing? text = some (inside, after)) : after.length < text.length := by
  fun_induction splitAtClosing? text generalizing inside after <;>
    grind [Option.map_eq_some_iff, List.length_cons]

/-- The text with every comment replaced by its line breaks. -/
def stripComments (text : List Char) : List Char :=
  match text with
  | [] => []
  | '/' :: '*' :: rest =>
      match _closed : splitAtClosing? rest with
      | some (inside, after) => inside.filter (· == '\n') ++ stripComments after
      | none => '/' :: stripComments ('*' :: rest)
  | character :: rest => character :: stripComments rest
termination_by text.length
decreasing_by
  · have shorter := length_lt_of_splitAtClosing? _closed
    simp only [List.length_cons]
    omega
  · simp
  · simp

end WidgetStyle.Sheet
