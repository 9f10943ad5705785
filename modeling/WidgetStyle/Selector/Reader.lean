import WidgetStyle.Selector.Basic
import WidgetStyle.Selector.Fault
import WidgetStyle.Text.Blank
import WidgetStyle.Text.Letter
import WidgetStyle.Text.Lowercase

/-!
# Reading selectors

Selectors are read from left to right without ever going back.  A reader takes
the text that is left and returns what it read with the text that is left after
it.  A reader that stops on a fault tells how much text was left there, from
which the place in the whole text follows.  A number with too many digits stops
the reading too, without a place.  Every step leaves less text than it was given,
so reading ends on every text.
-/

namespace WidgetStyle.Selector

open WidgetStyle.Text

/-- What stops a reader: a fault, with the number of characters that were left where
it was found, or a number with too many digits. -/
inductive Stop where
  | fault (fault : SelectorFault) (unread : Nat)
  | excess (excess : TooManyDigits)
deriving DecidableEq, Repr

/-- What a reader returns: a value with the rest of the text, or what stopped it. -/
abbrev Reading (Value : Type) := Except Stop (Value × List Char)

/-- Stop with a fault at the start of the given text. -/
def stop {Value : Type} (fault : SelectorFault) (text : List Char) : Except Stop Value :=
  .error (.fault fault text.length)

/-- Characters of names: letters, numerals, the hyphen and the underscore. -/
def isNameCharacter (character : Char) : Bool :=
  isAlphanumeric character || character == '-' || character == '_'

/-- Characters that can start an element name. -/
def isNameStart (character : Char) : Bool :=
  isLetter character || character == '_'

/-- A non-empty name, or the given fault where there is none. -/
def readName (missing : SelectorFault) (text : List Char) : Reading String :=
  let name := text.takeWhile isNameCharacter
  if name.isEmpty then stop missing text
  else .ok (String.ofList name, text.dropWhile isNameCharacter)

theorem length_lt_of_readName {missing : SelectorFault} {text rest : List Char}
    {name : String} (read : readName missing text = .ok (name, rest)) :
    rest.length < text.length := by
  simp only [readName] at read
  split at read
  · simp [stop] at read
  · rename_i nonempty
    simp only [Except.ok.injEq, Prod.mk.injEq] at read
    obtain ⟨_, rfl⟩ := read
    have parts := congrArg List.length
      (List.takeWhile_append_dropWhile (p := isNameCharacter) (l := text))
    rw [List.length_append] at parts
    have positive : 0 < (text.takeWhile isNameCharacter).length := by
      simpa [List.length_pos_iff] using nonempty
    omega

/-! ## Pseudo-classes -/

/-- The place between parentheses, a number of ASCII digits that is at least
one.  That it is too small or has too many digits shows only after the closing
parenthesis is found. -/
def readPlace (text : List Char) : Reading Nat :=
  match text with
  | '(' :: opened =>
      let start := skipBlanks opened
      let digits := start.takeWhile Char.isDigit
      if digits.isEmpty then stop .invalidPlace start
      else
        match skipBlanks (start.dropWhile Char.isDigit) with
        | ')' :: rest =>
            match checkDigits digits with
            | .error excess => .error (.excess excess)
            | .ok digits =>
                let place := Nat.ofDigitChars 10 digits 0
                if place = 0 then stop .placeTooSmall start else .ok (place, rest)
        | other => stop .expectedPlaceClosing other
  | other => stop .expectedPlaceOpening other

/-- What a pseudo-class name stands for. -/
inductive PseudoName where
  | state (fact : StateClass)
  | nthChild
  | nthLastChild
  | negation
deriving DecidableEq, Repr

/-- The meaning of a name in lower case. -/
def PseudoName.ofText? (name : String) : Option PseudoName :=
  if name = "nth-child" then some .nthChild
  else if name = "nth-last-child" then some .nthLastChild
  else if name = "not" then some .negation
  else (Keyword.ofName? name).map .state

theorem length_lt_of_readPlace {text rest : List Char} {place : Nat}
    (read : readPlace text = .ok (place, rest)) : rest.length < text.length := by
  unfold readPlace at read
  split at read
  · rename_i opened
    simp only at read
    split at read
    · simp [stop] at read
    · split at read
      · rename_i closing
        split at read
        · cases read
        · split at read
          · simp [stop] at read
          · simp only [Except.ok.injEq, Prod.mk.injEq] at read
            obtain ⟨_, rfl⟩ := read
            have afterDigits := length_skipBlanks_le
              ((skipBlanks opened).dropWhile Char.isDigit)
            have digits :=
              (List.dropWhile_suffix (l := skipBlanks opened) Char.isDigit).length_le
            have start := length_skipBlanks_le opened
            rw [closing] at afterDigits
            simp only [List.length_cons] at afterDigits ⊢
            omega
      · simp [stop] at read
  · simp [stop] at read

/-- What comes before a negated pseudo-class: an opening parenthesis and the
colon.  Returns the text after the colon. -/
def openNegation (text : List Char) : Except Stop (List Char) :=
  match text with
  | '(' :: opened =>
      match skipBlanks opened with
      | ':' :: inner => .ok inner
      | other => stop .expectedNegatedPseudoClass other
  | other => stop .expectedNegationOpening other

/-- The negation of a pseudo-class, which ends at the closing parenthesis. -/
def closeNegation (negated : PseudoClass) (text : List Char) : Reading PseudoClass :=
  match skipBlanks text with
  | ')' :: rest => .ok (.negation negated, rest)
  | other => stop .expectedNegationClosing other

theorem length_lt_of_openNegation {text inner : List Char}
    (read : openNegation text = .ok inner) : inner.length < text.length := by
  unfold openNegation at read
  grind [stop, length_skipBlanks_le, List.length_cons]

theorem length_lt_of_closeNegation {negated condition : PseudoClass} {text rest : List Char}
    (read : closeNegation negated text = .ok (condition, rest)) : rest.length < text.length := by
  unfold closeNegation at read
  grind [stop, length_skipBlanks_le, List.length_cons]

/-- A pseudo-class after its colon.  Names are read without regard to case. -/
def readPseudoClass (text : List Char) : Reading PseudoClass :=
  match _named : readName .expectedPseudoClassName text with
  | .error fault => .error fault
  | .ok (name, rest) =>
      match PseudoName.ofText? (lowerString name) with
      | none => stop (.unknownPseudoClass name) text
      | some (.state fact) => .ok (.state fact, rest)
      | some .nthChild =>
          (readPlace rest).map fun (place, remaining) => (.nthChild (some place), remaining)
      | some .nthLastChild =>
          (readPlace rest).map fun (place, remaining) => (.nthLastChild (some place), remaining)
      | some .negation =>
          match _opened : openNegation rest with
          | .error fault => .error fault
          | .ok inner =>
              match readPseudoClass inner with
              | .error fault => .error fault
              | .ok (negated, remaining) => closeNegation negated remaining
termination_by text.length
decreasing_by
  have nameLength := length_lt_of_readName _named
  have innerLength := length_lt_of_openNegation _opened
  omega

theorem length_lt_of_readPseudoClass {text rest : List Char} {condition : PseudoClass}
    (read : readPseudoClass text = .ok (condition, rest)) : rest.length < text.length := by
  fun_induction readPseudoClass text generalizing condition rest <;>
    grind [stop, Except.map.eq_def, → length_lt_of_readName, → length_lt_of_readPlace,
      → length_lt_of_openNegation, → length_lt_of_closeNegation]

/-! ## Attributes -/

/-- The comparison whose two-character operator starts with the character. -/
def comparisonOf? : Char → Option Comparison
  | '~' => some .containsWord
  | '|' => some .startsWithWord
  | '^' => some .startsWith
  | '$' => some .endsWith
  | '*' => some .contains
  | _ => none

/-- The operator between the attribute's name and its text. -/
def readComparison (text : List Char) : Reading Comparison :=
  match text with
  | [] => stop .unterminatedAttribute []
  | '=' :: rest => .ok (.equals, rest)
  | character :: rest =>
      match comparisonOf? character with
      | none => stop .expectedAttributeOperator text
      | some comparison =>
          match rest with
          | '=' :: remaining => .ok (comparison, remaining)
          | _ => stop (.expectedEqualsSign character) rest

/-- A text up to the quote that closes it. -/
def readQuoted (quote : Char) (text : List Char) : Reading String :=
  match text.dropWhile (· != quote) with
  | [] => stop .unterminatedString (quote :: text)
  | _ :: rest => .ok (String.ofList (text.takeWhile (· != quote)), rest)

/-- Characters of a text that stands without quotes. -/
def isBareCharacter (character : Char) : Bool :=
  character != ']' && !isBlank character

/-- The text of an attribute between quotes of either kind, or without quotes up
to a blank or the bracket; without quotes it may be empty. -/
def readValue (text : List Char) : Reading String :=
  match text with
  | '\'' :: rest => readQuoted '\'' rest
  | '"' :: rest => readQuoted '"' rest
  | _ => .ok (String.ofList (text.takeWhile isBareCharacter), text.dropWhile isBareCharacter)

/-- The flag that turns off the distinction of case, and what follows it. -/
def readFlag (text : List Char) : Bool × List Char :=
  match text with
  | 'i' :: rest => (true, skipBlanks rest)
  | 'I' :: rest => (true, skipBlanks rest)
  | _ => (false, text)

/-- An attribute condition after its opening bracket. -/
def readAttribute (text : List Char) :
    Except Stop (AttributeCondition × List Char) := do
  let (name, afterName) ← readName .expectedAttributeName (skipBlanks text)
  match skipBlanks afterName with
  | ']' :: rest => .ok (⟨name, .present⟩, rest)
  | operator =>
      let (comparison, afterOperator) ← readComparison operator
      let (value, afterValue) ← readValue (skipBlanks afterOperator)
      let (ignoreCase, closing) := readFlag (skipBlanks afterValue)
      match closing with
      | ']' :: rest => .ok (⟨name, .compare comparison (some value) ignoreCase⟩, rest)
      | other => stop .expectedAttributeClosing other

theorem length_lt_of_readComparison {text rest : List Char} {comparison : Comparison}
    (read : readComparison text = .ok (comparison, rest)) : rest.length < text.length := by
  unfold readComparison at read
  grind [stop, List.length_cons]

theorem length_lt_of_readQuoted {quote : Char} {text rest : List Char} {value : String}
    (read : readQuoted quote text = .ok (value, rest)) : rest.length < text.length := by
  have shorter := (List.dropWhile_suffix (l := text) (· != quote)).length_le
  unfold readQuoted at read
  split at read
  · simp [stop] at read
  · rename_i closing
    simp only [Except.ok.injEq, Prod.mk.injEq] at read
    obtain ⟨_, rfl⟩ := read
    rw [closing, List.length_cons] at shorter
    omega

theorem length_le_of_readValue {text rest : List Char} {value : String}
    (read : readValue text = .ok (value, rest)) : rest.length ≤ text.length := by
  have bare := (List.dropWhile_suffix (l := text) isBareCharacter).length_le
  unfold readValue at read
  grind [→ length_lt_of_readQuoted, List.length_cons]

theorem length_readFlag_le (text : List Char) : (readFlag text).2.length ≤ text.length := by
  unfold readFlag
  grind [length_skipBlanks_le, List.length_cons]

theorem length_lt_of_readAttribute {text rest : List Char} {condition : AttributeCondition}
    (read : readAttribute text = .ok (condition, rest)) : rest.length < text.length := by
  simp only [readAttribute, bind, Except.bind] at read
  split at read
  · simp at read
  · split at read
    · grind [→ length_lt_of_readName, length_skipBlanks_le, List.length_cons]
    · split at read
      · simp at read
      · split at read
        · simp at read
        · rename_i afterValue _
          have flagLength := length_readFlag_le (skipBlanks afterValue.2)
          grind [stop, → length_lt_of_readName, → length_lt_of_readComparison,
            → length_le_of_readValue, length_skipBlanks_le, List.length_cons]

/-! ## Compounds -/

/-- One condition of a compound. -/
inductive Condition where
  | universal
  | element (name : String)
  | id (name : String)
  | hasClass (name : String)
  | hasAttribute (condition : AttributeCondition)
  | hasPseudoClass (condition : PseudoClass)
deriving DecidableEq, Repr

/-- One condition more.  A later id replaces an earlier one. -/
def Condition.addTo (compound : Compound) : Condition → Compound
  | universal => { compound with universal := true }
  | element name => { compound with element := some name }
  | id name => { compound with id := some name }
  | hasClass name => { compound with classes := compound.classes ++ [name] }
  | hasAttribute condition => { compound with attributes := compound.attributes ++ [condition] }
  | hasPseudoClass condition =>
      { compound with pseudoClasses := compound.pseudoClasses ++ [condition] }

/-- Whether an element name may still follow. -/
def admitsElement (compound : Compound) : Bool :=
  compound.element.isNone && !compound.universal

/-- The next condition of the compound read so far, if one starts here. -/
def readCondition (compound : Compound) (text : List Char) :
    Except Stop (Option (Condition × List Char)) :=
  match text with
  | [] => .ok none
  | character :: rest =>
      if character = '*' then .ok (some (.universal, rest))
      else if character = '#' then
        (readName .expectedId rest).map fun (name, remaining) =>
          some (.id name, remaining)
      else if character = '.' then
        (readName .expectedClassName rest).map fun (name, remaining) =>
          some (.hasClass name, remaining)
      else if character = ':' then
        (readPseudoClass rest).map fun (condition, remaining) =>
          some (.hasPseudoClass condition, remaining)
      else if character = '[' then
        (readAttribute rest).map fun (condition, remaining) =>
          some (.hasAttribute condition, remaining)
      else if isNameStart character && admitsElement compound then
        .ok (some
          (.element (String.ofList (character :: rest.takeWhile isNameCharacter)),
            rest.dropWhile isNameCharacter))
      else .ok none

theorem length_lt_of_readCondition {compound : Compound} {text rest : List Char}
    {condition : Condition} (read : readCondition compound text = .ok (some (condition, rest))) :
    rest.length < text.length := by
  have names (tail : List Char) : (tail.dropWhile isNameCharacter).length ≤ tail.length :=
    (List.dropWhile_suffix _).length_le
  unfold readCondition at read
  grind [Except.map.eq_def, → length_lt_of_readName, → length_lt_of_readPseudoClass,
    → length_lt_of_readAttribute, List.length_cons]

/-- The conditions that follow the ones read so far, in any order, up to the
first character that starts none. -/
def readCompound (compound : Compound) (text : List Char) : Reading Compound :=
  match _next : readCondition compound text with
  | .error fault => .error fault
  | .ok none => .ok (compound, text)
  | .ok (some (condition, rest)) => readCompound (condition.addTo compound) rest
termination_by text.length
decreasing_by exact length_lt_of_readCondition _next

theorem length_le_of_readCompound {compound result : Compound} {text rest : List Char}
    (read : readCompound compound text = .ok (result, rest)) : rest.length ≤ text.length := by
  fun_induction readCompound compound text <;> grind [→ length_lt_of_readCondition]

/-! ## Chains -/

/-- The combinator that is written with a sign of its own. -/
def combinatorOf? : Char → Option Combinator
  | '>' => some .child
  | '+' => some .adjacentSibling
  | '~' => some .generalSibling
  | _ => none

/-- Stop where a compound should start and none does. -/
def stopAtMissing {Value : Type} (afterCombinator : Bool) (text : List Char) :
    Except Stop Value :=
  match text with
  | character :: _ =>
      if afterCombinator then stop .expectedSelector text
      else stop (.unexpectedCharacter character) text
  | [] => stop .expectedSelector []

/-- The links of a chain.  Blanks alone are the descendant combinator; around a
sign they mean nothing, and a sign at the very end lacks its compound. -/
def readLinks (afterCombinator : Bool) (text : List Char) : Except Stop (List Link) :=
  match _first : readCompound {} text with
  | .error fault => .error fault
  | .ok (compound, rest) =>
      if compound.isEmpty then stopAtMissing afterCombinator text
      else
        match _next : skipBlanks rest with
        | [] => .ok [{ compound }]
        | character :: remaining =>
            match combinatorOf? character with
            | some combinator =>
                let following := skipBlanks remaining
                if following.isEmpty then stop .expectedSelector []
                else
                  (readLinks true following).map fun links =>
                    { compound, combinator := some combinator } :: links
            | none =>
                if remaining.length + 1 < rest.length then
                  (readLinks true (character :: remaining)).map fun links =>
                    { compound, combinator := some .descendant } :: links
                else stop (.unexpectedCharacter character) (character :: remaining)
termination_by text.length
decreasing_by
  · have compoundLength := length_le_of_readCompound _first
    have blankLength := length_skipBlanks_le rest
    have followingLength := length_skipBlanks_le remaining
    rw [_next] at blankLength
    simp only [List.length_cons] at blankLength
    omega
  · have compoundLength := length_le_of_readCompound _first
    simp only [List.length_cons]
    omega

/-- One selector that takes up the whole text, blanks at its ends apart. -/
def readSelector (text : List Char) : Except SelectorFailure Selector :=
  let start := skipBlanks text
  match if start.isEmpty then stop .emptySelector [] else readLinks false start with
  | .ok links => .ok ⟨links⟩
  | .error (.fault fault unread) => .error (.refused ⟨fault, text.length - unread⟩)
  | .error (.excess excess) => .error (.excess excess)

/-- The selector written in the string. -/
def parse (text : String) : Except SelectorFailure Selector :=
  readSelector text.toList

end WidgetStyle.Selector
