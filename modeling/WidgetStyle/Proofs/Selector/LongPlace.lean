import WidgetStyle.Proofs.Selector.Level

/-!
# Places with too many digits

Only so many digits can be turned into a number.  A pseudo-class whose place has more of them
is written as it should be, and no reader of it finds a fault; reading fails all the same, for
the selector alone and for any group that holds it.
-/

namespace WidgetStyle.Selector

open WidgetStyle.Text

/-- Between parentheses in the text stands a number of so many digits, and they are too many. -/
def HoldsLongPlace (text : List Char) (digits : Nat) : Prop :=
  ∃ opened rest, '(' :: opened <:+ text ∧
    ((skipBlanks opened).takeWhile Char.isDigit).length = digits ∧ maxDigits < digits ∧
      skipBlanks ((skipBlanks opened).dropWhile Char.isDigit) = ')' :: rest

/-- The pseudo-class for a place that is written with the given digits. -/
def placeText (digits : List Char) : List Char :=
  ':' :: ("nth-child".toList ++ '(' :: (digits ++ [')']))

variable {digits : List Char} (decimal : ∀ character ∈ digits, character.isDigit = true)

include decimal

theorem level_placeText : Level 0 (placeText digits) := by
  have apart {character : Char} (digit : character.isDigit = true) :
      character ∉ ',' :: scanSigns := by
    intro sign
    have fails : (',' :: scanSigns).all (fun sign => !sign.isDigit) = true := by decide
    have other := List.all_eq_true.mp fails character sign
    rw [digit] at other
    cases other
  have inside : Level 1 digits := by
    refine level_of_plain ?_ ?_
    · exact fun character member => List.not_mem_of_not_mem_cons (apart (decimal character member))
    · intro outer
      cases outer
  have name : Level 0 (':' :: "nth-child".toList) := level_of_plain (by simp [scanSigns]) (by simp)
  exact name.append (level_bracketed (.inr rfl) (.inr rfl) inside)

variable (many : maxDigits < digits.length)

include many

theorem readPlace_excess :
    readPlace ('(' :: (digits ++ [')'])) = .error (.excess (.read digits.length)) := by
  have inhabited : digits ≠ [] := List.ne_nil_of_length_pos (Nat.zero_lt_of_lt many)
  obtain ⟨first, later, rfl⟩ := List.exists_cons_of_ne_nil inhabited
  have ends : Ends Char.isDigit [')'] := ends_cons (by decide) []
  have start : skipBlanks (first :: later ++ [')']) = first :: later ++ [')'] :=
    skipBlanks_cons (isBlank_eq_false (decimal first List.mem_cons_self) (by decide +kernel)) _
  have excess : checkDigits (first :: later) = .error (.read (first :: later).length) :=
    checkDigits_eq_error_iff.mpr ⟨many, rfl⟩
  have closing : skipBlanks [')'] = [')'] := rfl
  simp only [readPlace, start, takeWhile_run decimal ends, dropWhile_run decimal ends, closing,
    excess]
  rfl

theorem readCompound_excess :
    readCompound {} (placeText digits) = .error (.excess (.read digits.length)) := by
  have named := readName_keyword "nth-child" (by decide +kernel) (digits ++ [')'])
  have known : PseudoName.ofText? (lowerString "nth-child") = some .nthChild := by
    decide +kernel
  have read : readPseudoClass ("nth-child".toList ++ '(' :: (digits ++ [')'])) =
      .error (.excess (.read digits.length)) := by
    rw [readPseudoClass_eq named, known]
    simp only [readPlace_excess decimal many]
    rfl
  have condition : readCondition {} (placeText digits) =
      .error (.excess (.read digits.length)) := by
    simp only [placeText, readCondition, read]
    rfl
  rw [readCompound_eq, condition]

/-- A place with too many digits is no fault of the text that holds it. -/
theorem readSelector_placeText :
    readSelector (placeText digits) = .error (.excess (.read digits.length)) := by
  have start : skipBlanks (placeText digits) = placeText digits := skipBlanks_cons (by decide) _
  have stops : readLinks false (placeText digits) = .error (.excess (.read digits.length)) := by
    rw [readLinks]
    split
    · rename_i stopped found
      rw [readCompound_excess decimal many] at found
      cases found
      rfl
    · rename_i found
      rw [readCompound_excess decimal many] at found
      cases found
  simp only [readSelector, start, stops]
  rfl

theorem parse_placeText :
    parse (String.ofList (placeText digits)) = .error (.excess (.read digits.length)) := by
  rw [parse, String.toList_ofList]
  exact readSelector_placeText decimal many

/-- The scan does not cut the pseudo-class, so a group fails as the selector alone does. -/
theorem parseGroup_placeText :
    parseGroup (String.ofList (placeText digits)) =
      .error (.excess (.read digits.length)) := by
  have visible : (placeText digits).all isBlank = false := rfl
  rw [parseGroup, readGroup, String.toList_ofList,
    segments_of_sheltered (level_placeText decimal).sheltered, readSegments, visible,
    readSelector_placeText decimal many]
  rfl

/-! ## One digit too many -/

omit decimal many

theorem isDigit_ones : ∀ character ∈ List.replicate (maxDigits + 1) '1',
    character.isDigit = true := by
  intro character member
  rw [List.eq_of_mem_replicate member]
  rfl

theorem maxDigits_lt_ones : maxDigits < (List.replicate (maxDigits + 1) '1').length := by
  rw [List.length_replicate]
  exact Nat.lt_succ_self maxDigits

theorem parse_ones :
    parse (String.ofList (placeText (List.replicate (maxDigits + 1) '1'))) =
      .error (.excess (.read (maxDigits + 1))) := by
  rw [parse_placeText isDigit_ones maxDigits_lt_ones, List.length_replicate]

theorem parseGroup_ones :
    parseGroup (String.ofList (placeText (List.replicate (maxDigits + 1) '1'))) =
      .error (.excess (.read (maxDigits + 1))) := by
  rw [parseGroup_placeText isDigit_ones maxDigits_lt_ones, List.length_replicate]

end WidgetStyle.Selector
