import WidgetStyle.Proofs.Selector.WellFormed

/-!
# Reading names, pseudo-classes and attributes back

Each of these readers takes its own piece off the front of a text and leaves the rest as
it is.  A name ends where a character follows that no name has; the other pieces end at
a parenthesis, a bracket or a quote of their own.
-/

namespace WidgetStyle.Selector

open WidgetStyle.Text

variable {text rest : List Char} {character : Char}

/-! ## Characters -/

/-- No run of characters that pass the test goes on at the start of the text. -/
def Ends (test : Char → Bool) (text : List Char) : Prop :=
  ∀ character ∈ text.head?, test character = false

theorem ends_cons {test : Char → Bool} (fails : test character = false) (rest : List Char) :
    Ends test (character :: rest) := by
  intro first same
  cases same
  exact fails

theorem ends_append_cons {test : Char → Bool}
    (fails : test character = false) (inside rest : List Char) :
    Ends test (inside ++ character :: rest) ↔ Ends test inside := by
  cases inside with
  | nil =>
      refine iff_of_true (ends_cons fails rest) ?_
      rintro _ ⟨⟩
  | cons first others => exact Iff.rfl

theorem ends_dropWhile (test : Char → Bool) (text : List Char) :
    Ends test (text.dropWhile test) := by
  intro character head
  have stop := List.head?_dropWhile_not test text
  rw [Option.mem_def.mp head] at stop
  exact stop

theorem isNameCharacter_of_isNameStart (start : isNameStart character = true) :
    isNameCharacter character = true := by
  rw [isNameStart, Bool.or_eq_true] at start
  rw [isNameCharacter, Bool.or_eq_true, Bool.or_eq_true]
  rcases start with letter | underscore
  · refine .inl (.inl ?_)
    rw [isLetter] at letter
    rw [isAlphanumeric]
    split at letter
    · rename_i ascii
      rw [if_pos ascii, Char.isAlphanum, letter, Bool.true_or]
    · rename_i ascii
      rw [if_neg ascii, letter, Bool.true_or]
  · exact .inr underscore

theorem isNameCharacter_blankCode :
    ∀ code ∈ blankCodes, isNameCharacter (Char.ofNat code) = false := by
  decide +kernel

theorem isNameCharacter_of_isBlank (blank : isBlank character = true) :
    isNameCharacter character = false :=
  eq_false_of_isBlank isNameCharacter_blankCode blank

/-! ## Names -/

theorem takeWhile_run {test : Char → Bool} (run : ∀ character ∈ text, test character = true)
    (ends : Ends test rest) : (text ++ rest).takeWhile test = text := by
  rw [List.takeWhile_append_of_pos run]
  cases rest with
  | nil => exact List.append_nil text
  | cons character rest =>
      have fails : ¬ test character = true := Bool.eq_false_iff.mp (ends character rfl)
      rw [List.takeWhile_cons_of_neg fails, List.append_nil]

theorem dropWhile_run {test : Char → Bool} (run : ∀ character ∈ text, test character = true)
    (ends : Ends test rest) : (text ++ rest).dropWhile test = rest := by
  rw [List.dropWhile_append_of_pos run]
  cases rest with
  | nil => rfl
  | cons character rest =>
      exact List.dropWhile_cons_of_neg (Bool.eq_false_iff.mp (ends character rfl))

theorem readName_exact {missing : SelectorFault} {name : String} (isName : IsName name.toList)
    (ends : Ends isNameCharacter rest) :
    readName missing (name.toList ++ rest) = .ok (name, rest) := by
  simp only [readName, takeWhile_run isName.characters ends,
    dropWhile_run isName.characters ends]
  rw [if_neg, String.ofList_toList]
  rw [List.isEmpty_iff]
  exact isName.inhabited

/-! ## Pseudo-classes -/

/-- The text of a pseudo-class after its colon. -/
def pseudoText : PseudoClass → List Char
  | .state fact => fact.name.toList
  | .nthChild place => "nth-child".toList ++ PseudoClass.renderPlace place
  | .nthLastChild place => "nth-last-child".toList ++ PseudoClass.renderPlace place
  | .negation inner => "not(".toList ++ inner.render ++ [')']
  | .negationOfNothing => "not(".toList ++ absentText.toList ++ [')']

theorem render_pseudoClass (condition : PseudoClass) :
    condition.render = ':' :: pseudoText condition := by
  cases condition <;> rfl

theorem readPlace_exact {number : Int} (positive : 1 ≤ number)
    (writable : Text.isWritable number = true) (rest : List Char) :
    ∃ place : Nat, readPlace (PseudoClass.renderPlace (some number) ++ rest) = .ok (place, rest) ∧
      (place : Int) = number := by
  obtain ⟨place, rfl⟩ := Int.eq_ofNat_of_zero_le (Int.le_trans (by decide) positive)
  have digits : ∀ character ∈ Nat.toDigits 10 place, character.isDigit = true := by
    intro character member
    exact Nat.isDigit_of_mem_toDigits (by decide) (by decide) member
  have solid : ∀ character ∈ Nat.toDigits 10 place, isBlank character = false := by
    intro character member
    exact isBlank_eq_false (digits character member) (by decide +kernel)
  have text : PseudoClass.renderPlace (some (place : Int)) ++ rest =
      '(' :: (Nat.toDigits 10 place ++ ')' :: rest) := by
    change '(' :: ((Nat.repr place).toList ++ [')']) ++ rest = _
    rw [Nat.toList_repr, List.cons_append, List.append_assoc]
    rfl
  have closing : Ends Char.isDigit (')' :: rest) := ends_cons rfl rest
  have few : checkDigits (Nat.toDigits 10 place) = .ok (Nat.toDigits 10 place) :=
    if_pos (of_decide_eq_true writable)
  refine ⟨place, ?_, rfl⟩
  have start := skipBlanks_solid Nat.toDigits_ne_nil solid (')' :: rest)
  rw [text, readPlace]
  simp only [start, takeWhile_run digits closing, dropWhile_run digits closing,
    skipBlanks_cons (show isBlank ')' = false by decide), few, Nat.ofDigitChars_ten_toDigits]
  rw [if_neg, if_neg]
  · omega
  · rw [List.isEmpty_iff]
    exact Nat.toDigits_ne_nil

/-- The equation of the reader where it finds a name. -/
theorem readPseudoClass_eq {name : String} {remaining : List Char}
    (named : readName .expectedPseudoClassName text = .ok (name, remaining)) :
    readPseudoClass text =
      match PseudoName.ofText? (lowerString name) with
      | none => stop (.unknownPseudoClass name) text
      | some (.state fact) => .ok (.state fact, remaining)
      | some .nthChild =>
          (readPlace remaining).map fun (place, rest) => (.nthChild (some place), rest)
      | some .nthLastChild =>
          (readPlace remaining).map fun (place, rest) => (.nthLastChild (some place), rest)
      | some .negation =>
          match openNegation remaining with
          | .error fault => .error fault
          | .ok inner =>
              match readPseudoClass inner with
              | .error fault => .error fault
              | .ok (negated, rest) => closeNegation negated rest := by
  rw [readPseudoClass]
  split
  · rename_i failed
    rw [named] at failed
    cases failed
  · rename_i found
    rw [named] at found
    cases found
    rcases PseudoName.ofText? (lowerString name) with _ | fact | _ | _ | _
    · rfl
    · rfl
    · rfl
    · rfl
    · simp only
      split
      · rename_i opened
        rw [opened]
      · rename_i opened
        rewrite [opened]
        rfl

/-- A name in front of a parenthesis is read up to the parenthesis. -/
theorem readName_keyword (name : String) (isName : IsName name.toList) (rest : List Char) :
    readName .expectedPseudoClassName (name.toList ++ '(' :: rest) = .ok (name, '(' :: rest) :=
  readName_exact isName (ends_cons (by decide) rest)

theorem openNegation_exact (inner : PseudoClass) (rest : List Char) :
    openNegation ('(' :: (inner.render ++ rest)) = .ok (pseudoText inner ++ rest) := by
  rw [render_pseudoClass]
  simp only [openNegation, List.cons_append, skipBlanks_cons (show isBlank ':' = false by decide)]

theorem closeNegation_exact (inner : PseudoClass) (rest : List Char) :
    closeNegation inner (')' :: rest) = .ok (.negation inner, rest) := by
  simp only [closeNegation, skipBlanks_cons (show isBlank ')' = false by decide)]

theorem pseudoText_negation (inner : PseudoClass) (rest : List Char) :
    pseudoText (.negation inner) ++ rest =
      "not".toList ++ '(' :: (inner.render ++ ')' :: rest) := by
  have keyword : "not(".toList = "not".toList ++ ['('] := by decide
  change "not(".toList ++ inner.render ++ [')'] ++ rest = _
  rw [keyword, List.append_assoc, List.append_assoc, List.append_assoc]
  rfl

theorem readPseudoClass_exact {condition : PseudoClass} (wellFormed : condition.WellFormed)
    (writable : condition.isWritable = true) (ends : Ends isNameCharacter rest) :
    readPseudoClass (pseudoText condition ++ rest) = .ok (condition, rest) := by
  induction condition generalizing rest with
  | state fact =>
      have isName : IsName fact.name.toList := by
        cases fact <;> decide
      have named : readName .expectedPseudoClassName (pseudoText (.state fact) ++ rest) =
          .ok (fact.name, rest) := readName_exact isName ends
      have known : PseudoName.ofText? (lowerString fact.name) = some (.state fact) := by
        cases fact <;> decide +kernel
      rw [readPseudoClass_eq named, known]
  | nthChild place =>
      obtain ⟨number, rfl, positive⟩ := wellFormed
      obtain ⟨place, read, rfl⟩ := readPlace_exact positive writable rest
      have named : readName .expectedPseudoClassName
          (pseudoText (.nthChild (some (place : Int))) ++ rest) =
            .ok ("nth-child", PseudoClass.renderPlace (some (place : Int)) ++ rest) :=
        readName_keyword "nth-child" (by decide) _
      have known : PseudoName.ofText? (lowerString "nth-child") = some .nthChild := by
        decide +kernel
      rw [readPseudoClass_eq named, known, read]
      rfl
  | nthLastChild place =>
      obtain ⟨number, rfl, positive⟩ := wellFormed
      obtain ⟨place, read, rfl⟩ := readPlace_exact positive writable rest
      have named : readName .expectedPseudoClassName
          (pseudoText (.nthLastChild (some (place : Int))) ++ rest) =
            .ok ("nth-last-child", PseudoClass.renderPlace (some (place : Int)) ++ rest) :=
        readName_keyword "nth-last-child" (by decide) _
      have known : PseudoName.ofText? (lowerString "nth-last-child") = some .nthLastChild := by
        decide +kernel
      rw [readPseudoClass_eq named, known, read]
      rfl
  | negation inner ih =>
      have named := readName_keyword "not" (by decide) (inner.render ++ ')' :: rest)
      have known : PseudoName.ofText? (lowerString "not") = some .negation := by
        decide +kernel
      have read : readPseudoClass (pseudoText inner ++ ')' :: rest) = .ok (inner, ')' :: rest) :=
        ih wellFormed writable (ends_cons (by decide) rest)
      rw [pseudoText_negation, readPseudoClass_eq named, known]
      simp only [openNegation_exact, read, closeNegation_exact]
  | negationOfNothing => exact wellFormed.elim

/-! ## Attributes -/

theorem skipBlanks_name (isName : IsName text) (rest : List Char) :
    skipBlanks (text ++ rest) = text ++ rest := by
  refine skipBlanks_solid isName.inhabited ?_ rest
  intro character member
  exact isBlank_eq_false (isName.characters character member) isNameCharacter_blankCode

/-- The text of a condition after the compared text, up to the closing bracket. -/
def flagText (ignoreCase : Bool) : List Char :=
  if ignoreCase then [' ', 'i', ']'] else [']']

/-- The text of an attribute condition after the name. -/
def testText : AttributeTest → List Char
  | .present => [']']
  | .compare comparison value ignoreCase =>
      comparison.render ++ '"' :: ((value.getD absentText).toList ++ '"' :: flagText ignoreCase)

theorem render_attribute (condition : AttributeCondition) :
    condition.render = '[' :: (condition.name.toList ++ testText condition.test) := by
  rcases condition with ⟨name, test⟩
  cases test <;> simp [AttributeCondition.render, testText, flagText]

@[simp] theorem readComparison_exact (comparison : Comparison) (rest : List Char) :
    readComparison (comparison.render ++ rest) = .ok (comparison, rest) := by
  cases comparison <;> rfl

/-- The operator starts with a sign that neither goes on with the name nor closes the
bracket. -/
theorem exists_sign_render (comparison : Comparison) :
    ∃ sign operator, comparison.render = sign :: operator ∧ isNameCharacter sign = false ∧
      isBlank sign = false ∧ sign ≠ ']' := by
  cases comparison <;> exact ⟨_, _, rfl, by decide, by decide, by decide⟩

theorem readQuoted_exact {value : String} (unquoted : '"' ∉ value.toList) (rest : List Char) :
    readQuoted '"' (value.toList ++ '"' :: rest) = .ok (value, rest) := by
  have inside : ∀ character ∈ value.toList, (character != '"') = true := by
    intro character member
    rw [bne_iff_ne]
    rintro rfl
    exact unquoted member
  have closing : Ends (· != '"') ('"' :: rest) := ends_cons rfl rest
  simp only [readQuoted, takeWhile_run inside closing, dropWhile_run inside closing,
    String.ofList_toList]

@[simp] theorem readFlag_exact (ignoreCase : Bool) (rest : List Char) :
    readFlag (skipBlanks (flagText ignoreCase ++ rest)) = (ignoreCase, ']' :: rest) := by
  cases ignoreCase <;> rfl

/-- A comparison is read once its operator, its text and its flag are. -/
theorem readAttribute_of_compare {name value : String} {sign : Char}
    {operator afterOperator afterValue : List Char} {comparison : Comparison} {ignoreCase : Bool}
    (named : readName .expectedAttributeName (skipBlanks text) = .ok (name, sign :: operator))
    (solid : isBlank sign = false) (other : sign ≠ ']')
    (compared : readComparison (sign :: operator) = .ok (comparison, afterOperator))
    (valued : readValue (skipBlanks afterOperator) = .ok (value, afterValue))
    (flagged : readFlag (skipBlanks afterValue) = (ignoreCase, ']' :: rest)) :
    readAttribute text = .ok (⟨name, .compare comparison (some value) ignoreCase⟩, rest) := by
  rw [readAttribute, named]
  simp only [bind, Except.bind, skipBlanks_cons solid]
  split
  · rename_i closing
    cases closing
    exact absurd rfl other
  · simp only [compared, valued, flagged]

theorem readAttribute_exact {condition : AttributeCondition} (wellFormed : condition.WellFormed)
    (rest : List Char) :
    readAttribute (condition.name.toList ++ (testText condition.test ++ rest)) =
      .ok (condition, rest) := by
  rcases condition with ⟨name, test⟩
  have isName : IsName name.toList := wellFormed.name
  cases test with
  | present =>
      have named : readName .expectedAttributeName (name.toList ++ ']' :: rest) =
          .ok (name, ']' :: rest) := readName_exact isName (ends_cons (by decide) rest)
      simp only [testText, List.singleton_append]
      rw [readAttribute, skipBlanks_name isName, named]
      rfl
  | compare comparison value ignoreCase =>
      obtain ⟨value, rfl, unquoted⟩ := wellFormed.test
      obtain ⟨sign, operator, spelt, bound, solid, other⟩ := exists_sign_render comparison
      let afterValue := flagText ignoreCase ++ rest
      let afterOperator := '"' :: (value.toList ++ '"' :: afterValue)
      have parts : testText (.compare comparison (some value) ignoreCase) ++ rest =
          comparison.render ++ afterOperator := by
        simp [testText, afterOperator, afterValue]
      have named : readName .expectedAttributeName
          (skipBlanks (name.toList ++ sign :: (operator ++ afterOperator))) =
            .ok (name, sign :: (operator ++ afterOperator)) := by
        rw [skipBlanks_name isName]
        exact readName_exact isName (ends_cons bound _)
      have compared : readComparison (sign :: (operator ++ afterOperator)) =
          .ok (comparison, afterOperator) := by
        rw [← List.cons_append, ← spelt]
        exact readComparison_exact comparison afterOperator
      have valued : readValue (skipBlanks afterOperator) = .ok (value, afterValue) := by
        rw [skipBlanks_cons (by decide)]
        exact readQuoted_exact unquoted afterValue
      rw [parts, spelt, List.cons_append]
      exact readAttribute_of_compare named solid other compared valued
        (readFlag_exact ignoreCase rest)

end WidgetStyle.Selector
