import WidgetStyle.Text.Blank

/-!
# Blocks

The structure of a sheet without comments: blocks of a selector text and, in
braces, declarations with semicolons between them.  The tokens are

- the selector text, everything up to a brace;
- a property name, at most two hyphens, a letter or underscore, and then
  letters, digits, underscores and hyphens, all of them ASCII;
- a value, everything up to a semicolon or a brace;
- the single characters `:`, `;` and the braces.

Between tokens only the five gap characters are skipped; other white space ends
up inside a selector or a value, but starts none.  A text that does not fit is
refused at its first character that no token can take.  A text that ends too
early is refused at the start of its last token.
-/

namespace WidgetStyle.Sheet

open WidgetStyle.Text

/-- A selector text with the pairs of its declarations, all without blanks at
their ends. -/
structure Block where
  selector : String
  pairs : List (String × String)
deriving DecidableEq, Repr

/-- Characters that may lie between tokens. -/
def isGap (character : Char) : Bool :=
  character == ' ' || character == '\t' || character == Char.ofNat 0x0c ||
    character == '\r' || character == '\n'

/-- The text from its next token. -/
def skipGaps (text : List Char) : List Char :=
  text.dropWhile isGap

/-- The two characters that enclose the declarations of a block. -/
def isBrace (character : Char) : Bool :=
  character == Char.ofNat 0x7b || character == Char.ofNat 0x7d

/-- Characters inside a selector text. -/
def isSelectorCharacter (character : Char) : Bool :=
  !isBrace character

/-- Characters inside a value. -/
def isValueCharacter (character : Char) : Bool :=
  character != ';' && !isBrace character

/-- The first character of a property name after its hyphens. -/
def isPropertyStart (character : Char) : Bool :=
  character.isAlpha || character == '_'

/-- The other characters of a property name. -/
def isPropertyCharacter (character : Char) : Bool :=
  character.isAlphanum || character == '_' || character == '-'

/-- How many characters the hyphens and the first letter of a property name take
up, or nothing when the text starts with no property name. -/
def propertyStart? : List Char → Option Nat
  | '-' :: '-' :: character :: _ => if isPropertyStart character then some 3 else none
  | '-' :: character :: _ => if isPropertyStart character then some 2 else none
  | character :: _ => if isPropertyStart character then some 1 else none
  | [] => none

/-- The property name at the start of the text, and what follows it. -/
def readProperty? (text : List Char) : Option (List Char × List Char) :=
  (propertyStart? text).map fun length =>
    (text.take length ++ (text.drop length).takeWhile isPropertyCharacter,
      (text.drop length).dropWhile isPropertyCharacter)

/-- What comes next inside a block. -/
inductive Item where
  | closing
  | semicolon
  | declaration (property value : List Char)
deriving DecidableEq, Repr

/-- The next item inside a block, the length of the text at the start of the
item's last token, and the text after the item.  `last` is the length of the
text at the start of the token before. -/
def readItem (last : Nat) (text : List Char) : Except Nat (Item × Nat × List Char) :=
  match skipGaps text with
  | [] => .error last
  | character :: rest =>
      if character = ';' then .ok (.semicolon, rest.length + 1, rest)
      else if character = Char.ofNat 0x7d then .ok (.closing, rest.length + 1, rest)
      else
        match readProperty? (character :: rest) with
        | none => .error (rest.length + 1)
        | some (property, afterProperty) =>
            match skipGaps afterProperty with
            | [] => .error (rest.length + 1)
            | ':' :: afterColon =>
                match skipGaps afterColon with
                | [] => .error (afterColon.length + 1)
                | first :: remaining =>
                    if isBlank first || !isValueCharacter first then
                      .error (remaining.length + 1)
                    else
                      .ok (.declaration property (first :: remaining.takeWhile isValueCharacter),
                        remaining.length + 1, remaining.dropWhile isValueCharacter)
            | other => .error other.length

theorem length_skipGaps_le (text : List Char) : (skipGaps text).length ≤ text.length :=
  (List.dropWhile_suffix isGap).length_le

theorem length_le_of_readProperty? {text property rest : List Char}
    (read : readProperty? text = some (property, rest)) : rest.length ≤ text.length := by
  obtain ⟨length, _, equal⟩ := Option.map_eq_some_iff.mp read
  simp only [Prod.mk.injEq] at equal
  obtain ⟨_, rfl⟩ := equal
  have shorter := (List.dropWhile_suffix (l := text.drop length) isPropertyCharacter).length_le
  rw [List.length_drop] at shorter
  omega

theorem length_lt_of_readItem {last next : Nat} {text rest : List Char} {item : Item}
    (read : readItem last text = .ok (item, next, rest)) : rest.length < text.length := by
  have start := length_skipGaps_le text
  unfold readItem at read
  split at read
  · simp at read
  · rename_i character following begins
    rw [begins, List.length_cons] at start
    split at read
    · grind
    · split at read
      · grind
      · split at read
        · simp at read
        · rename_i property afterProperty named
          have propertyLength := length_le_of_readProperty? named
          have gapLength := length_skipGaps_le afterProperty
          split at read
          · simp at read
          · rename_i afterColon colon
            have valueLength := length_skipGaps_le afterColon
            rw [colon] at gapLength
            split at read
            · simp at read
            · rename_i first remaining value
              have restLength :=
                (List.dropWhile_suffix (l := remaining) isValueCharacter).length_le
              rw [value] at valueLength
              simp only [List.length_cons] at *
              split at read <;> grind
          · simp at read

/-- The pairs of a block after its opening brace, and what follows the closing
one. -/
def readPairs (last : Nat) (text : List Char) :
    Except Nat (List (List Char × List Char) × List Char) :=
  match _read : readItem last text with
  | .error unread => .error unread
  | .ok (.closing, _, rest) => .ok ([], rest)
  | .ok (.semicolon, next, rest) => readPairs next rest
  | .ok (.declaration property value, next, rest) =>
      (readPairs next rest).map fun (pairs, after) => ((property, value) :: pairs, after)
termination_by text.length
decreasing_by
  · exact length_lt_of_readItem _read
  · exact length_lt_of_readItem _read

theorem length_lt_of_readPairs {last : Nat} {text rest : List Char}
    {pairs : List (List Char × List Char)} (read : readPairs last text = .ok (pairs, rest)) :
    rest.length < text.length := by
  fun_induction readPairs last text generalizing pairs rest <;>
    grind [Except.map.eq_def, → length_lt_of_readItem]

/-- The block of a selector text and the pairs read after it. -/
def Block.ofTokens (selector : List Char) (pairs : List (List Char × List Char)) : Block where
  selector := String.ofList (trim selector)
  pairs := pairs.map fun pair => (String.ofList pair.1, String.ofList (trim pair.2))

/-- The blocks of a text without comments.  A text that is refused is refused
with the number of characters from the place at fault to the end. -/
def readBlocks (text : List Char) : Except Nat (List Block) :=
  match _start : skipGaps text with
  | [] => .ok []
  | first :: rest =>
      if isBlank first || isBrace first then .error (rest.length + 1)
      else
        match _braces : rest.dropWhile isSelectorCharacter with
        | [] => .error (rest.length + 1)
        | brace :: inside =>
            if brace = Char.ofNat 0x7b then
              match _inner : readPairs (inside.length + 1) inside with
              | .error unread => .error unread
              | .ok (pairs, after) =>
                  (readBlocks after).map
                    (Block.ofTokens (first :: rest.takeWhile isSelectorCharacter) pairs :: ·)
            else .error (inside.length + 1)
termination_by text.length
decreasing_by
  have textLength := length_skipGaps_le text
  have selectorLength := (List.dropWhile_suffix (l := rest) isSelectorCharacter).length_le
  have blockLength := length_lt_of_readPairs _inner
  rw [_start] at textLength
  rw [_braces] at selectorLength
  simp only [List.length_cons] at textLength selectorLength
  omega

end WidgetStyle.Sheet
