import WidgetStyle.Proofs.Selector.Names
import WidgetStyle.Proofs.Selector.RoundTrip

/-!
# What reading comes to

The readers of pseudo-classes, attributes and chains told as relations, with one rule for
each way in which they can succeed.  A reader succeeds exactly as its relation says, so
what holds of everything that is read is proved by cases on the relation.
-/

namespace WidgetStyle.Selector

open WidgetStyle.Text

variable {text rest : List Char}

/-! ## Names -/

theorem readName_eq_ok_iff {missing : SelectorFault} {name : String} :
    readName missing text = .ok (name, rest) ↔
      name.toList = text.takeWhile isNameCharacter ∧ name ≠ "" ∧
        rest = text.dropWhile isNameCharacter := by
  constructor
  · intro read
    have inhabited := name_ne_empty read
    rw [readName] at read
    split at read
    · cases read
    · cases read
      exact ⟨String.toList_ofList, inhabited, rfl⟩
  · rintro ⟨letters, inhabited, rfl⟩
    have nonempty : ¬ (text.takeWhile isNameCharacter).isEmpty = true := by
      rw [← letters, List.isEmpty_iff, String.toList_eq_nil_iff]
      exact inhabited
    rw [readName, if_neg nonempty, ← letters, String.ofList_toList]

theorem isName_of_readName {missing : SelectorFault} {name : String}
    (read : readName missing text = .ok (name, rest)) : IsName name.toList := by
  obtain ⟨letters, inhabited, -⟩ := readName_eq_ok_iff.mp read
  refine ⟨by simpa using inhabited, ?_⟩
  rw [letters]
  exact fun character member => List.mem_takeWhile_imp member

/-! ## Pseudo-classes -/

@[simp] theorem checkDigits_eq_ok_iff {digits checked : List Char} :
    checkDigits digits = .ok checked ↔ digits.length ≤ maxDigits ∧ digits = checked := by
  rw [checkDigits]
  split <;> simp [*]

theorem checkDigits_eq_error_iff {digits : List Char} {excess : TooManyDigits} :
    checkDigits digits = .error excess ↔
      maxDigits < digits.length ∧ excess = .read digits.length := by
  rw [checkDigits]
  split
  · rename_i few
    simp [Nat.not_lt.mpr few]
  · rename_i many
    simp [Nat.lt_of_not_le many, eq_comm]

/-- What is read as a place between parentheses, and the text that is left. -/
inductive ReadsPlace : List Char → Nat → List Char → Prop where
  | digits {opened rest : List Char} :
      (skipBlanks opened).takeWhile Char.isDigit ≠ [] →
        skipBlanks ((skipBlanks opened).dropWhile Char.isDigit) = ')' :: rest →
          ((skipBlanks opened).takeWhile Char.isDigit).length ≤ maxDigits →
            Nat.ofDigitChars 10 ((skipBlanks opened).takeWhile Char.isDigit) 0 ≠ 0 →
              ReadsPlace ('(' :: opened)
                (Nat.ofDigitChars 10 ((skipBlanks opened).takeWhile Char.isDigit) 0) rest

theorem readPlace_eq_ok_iff {place : Nat} :
    readPlace text = .ok (place, rest) ↔ ReadsPlace text place rest := by
  constructor
  · intro read
    unfold readPlace at read
    split at read
    · rename_i opened
      simp only at read
      split at read
      · cases read
      · rename_i digits
        split at read
        · rename_i closing
          split at read
          · cases read
          · rename_i checked
            obtain ⟨few, rfl⟩ := checkDigits_eq_ok_iff.mp checked
            split at read
            · cases read
            · rename_i positive
              cases read
              exact .digits (by simpa using digits) closing few positive
        · cases read
    · cases read
  · rintro ⟨digits, closing, few, positive⟩
    rw [readPlace]
    simp only [closing, checkDigits_eq_ok_iff.mpr ⟨few, rfl⟩]
    rw [if_neg (by simpa using digits), if_neg positive]

/-- Every digit more makes a number less than ten times as large. -/
theorem ofDigitChars_lt {digits : List Char}
    (decimal : ∀ character ∈ digits, character.isDigit = true) (start : Nat) :
    Nat.ofDigitChars 10 digits start < (start + 1) * Nat.pow 10 digits.length := by
  induction digits generalizing start with
  | nil => simp
  | cons character later ih =>
      have value : character.toNat - '0'.toNat ≤ 9 := by
        have digit := decimal character List.mem_cons_self
        simp only [Char.isDigit, Bool.and_eq_true, decide_eq_true_eq] at digit
        have upper : character.toNat ≤ 57 := digit.2
        change character.toNat - 48 ≤ 9
        omega
      have among := fun other member => decimal other (List.mem_cons_of_mem character member)
      rw [Nat.ofDigitChars_cons, List.length_cons]
      calc Nat.ofDigitChars 10 later (10 * start + (character.toNat - '0'.toNat))
          < (10 * start + (character.toNat - '0'.toNat) + 1) * Nat.pow 10 later.length :=
            ih among _
        _ ≤ (start + 1) * 10 * Nat.pow 10 later.length := Nat.mul_le_mul_right _ (by omega)
        _ = (start + 1) * (Nat.pow 10 later.length * 10) := by rw [Nat.mul_assoc, Nat.mul_comm 10]

/-- A number that is read from some digits is written with no more of them. -/
theorem length_toDigits_ofDigitChars_le {digits : List Char} {bound : Nat}
    (decimal : ∀ character ∈ digits, character.isDigit = true) (few : digits.length ≤ bound)
    (positive : 0 < bound) : (Nat.toDigits 10 (Nat.ofDigitChars 10 digits 0)).length ≤ bound := by
  have below := ofDigitChars_lt decimal 0
  rw [Nat.zero_add, Nat.one_mul] at below
  have shorter := below.trans_le (Nat.pow_le_pow_right (by decide) few)
  exact (Nat.length_toDigits_le_iff (by decide) positive).mpr shorter

/-- A place that was read can be written again. -/
theorem ReadsPlace.isWritable {place : Nat} (reads : ReadsPlace text place rest) :
    Text.isWritable place = true := by
  cases reads with
  | @digits opened _ _ _ few =>
      have decimal : ∀ character ∈ (skipBlanks opened).takeWhile Char.isDigit,
          character.isDigit = true := fun _ member => List.mem_takeWhile_imp member
      exact decide_eq_true (length_toDigits_ofDigitChars_le decimal few (by decide))

/-- What is read as a pseudo-class after its colon, and the text that is left. -/
inductive ReadsPseudoClass : List Char → PseudoClass → List Char → Prop where
  | state {text rest : List Char} {name : String} {fact : StateClass} :
      readName .expectedPseudoClassName text = .ok (name, rest) →
        PseudoName.ofText? (lowerString name) = some (.state fact) →
          ReadsPseudoClass text (.state fact) rest
  | nthChild {text argument rest : List Char} {name : String} {place : Nat} :
      readName .expectedPseudoClassName text = .ok (name, argument) →
        PseudoName.ofText? (lowerString name) = some .nthChild →
          ReadsPlace argument place rest → ReadsPseudoClass text (.nthChild (some place)) rest
  | nthLastChild {text argument rest : List Char} {name : String} {place : Nat} :
      readName .expectedPseudoClassName text = .ok (name, argument) →
        PseudoName.ofText? (lowerString name) = some .nthLastChild →
          ReadsPlace argument place rest →
            ReadsPseudoClass text (.nthLastChild (some place)) rest
  | negation {text opened inner closing rest : List Char} {name : String}
      {negated : PseudoClass} :
      readName .expectedPseudoClassName text = .ok (name, '(' :: opened) →
        PseudoName.ofText? (lowerString name) = some .negation →
          skipBlanks opened = ':' :: inner → ReadsPseudoClass inner negated closing →
            skipBlanks closing = ')' :: rest → ReadsPseudoClass text (.negation negated) rest

theorem openNegation_eq_ok_iff {inner : List Char} :
    openNegation text = .ok inner ↔
      ∃ opened, text = '(' :: opened ∧ skipBlanks opened = ':' :: inner := by
  unfold openNegation
  grind [stop]

theorem closeNegation_eq_ok_iff {negated condition : PseudoClass} :
    closeNegation negated text = .ok (condition, rest) ↔
      condition = .negation negated ∧ skipBlanks text = ')' :: rest := by
  unfold closeNegation
  grind [stop]

theorem readPseudoClass_eq_ok_iff {condition : PseudoClass} :
    readPseudoClass text = .ok (condition, rest) ↔ ReadsPseudoClass text condition rest := by
  constructor
  · intro read
    fun_induction readPseudoClass text generalizing condition rest with
    | case1 => cases read
    | case2 => cases read
    | case3 text name remaining named fact known =>
        cases read
        exact .state named known
    | case4 text name argument named known =>
        obtain ⟨⟨place, remaining⟩, placed, same⟩ := exists_of_map_eq_ok read
        cases same
        exact .nthChild named known (readPlace_eq_ok_iff.mp placed)
    | case5 text name argument named known =>
        obtain ⟨⟨place, remaining⟩, placed, same⟩ := exists_of_map_eq_ok read
        cases same
        exact .nthLastChild named known (readPlace_eq_ok_iff.mp placed)
    | case6 => cases read
    | case7 => cases read
    | case8 text name argument named known inner opens negated closing found ih =>
        obtain ⟨opened, rfl, colon⟩ := openNegation_eq_ok_iff.mp opens
        obtain ⟨rfl, closes⟩ := closeNegation_eq_ok_iff.mp read
        exact .negation named known colon (ih found) closes
  · intro reads
    induction reads with
    | state named known => rw [readPseudoClass_eq named, known]
    | nthChild named known placed =>
        rw [readPseudoClass_eq named, known, readPlace_eq_ok_iff.mpr placed]
        rfl
    | nthLastChild named known placed =>
        rw [readPseudoClass_eq named, known, readPlace_eq_ok_iff.mpr placed]
        rfl
    | negation named known colon _ closes ih =>
        have opens := openNegation_eq_ok_iff.mpr ⟨_, rfl, colon⟩
        rw [readPseudoClass_eq named, known]
        simp only [opens, ih]
        exact closeNegation_eq_ok_iff.mpr ⟨rfl, closes⟩

/-! ## Attributes -/

/-- What is read as an attribute condition after its bracket, and the text that is left. -/
inductive ReadsAttribute : List Char → AttributeCondition → List Char → Prop where
  | present {text afterName rest : List Char} {name : String} :
      readName .expectedAttributeName (skipBlanks text) = .ok (name, afterName) →
        skipBlanks afterName = ']' :: rest → ReadsAttribute text ⟨name, .present⟩ rest
  | compare {text afterName afterOperator afterValue rest : List Char} {name value : String}
      {comparison : Comparison} {ignoreCase : Bool} :
      readName .expectedAttributeName (skipBlanks text) = .ok (name, afterName) →
        readComparison (skipBlanks afterName) = .ok (comparison, afterOperator) →
          readValue (skipBlanks afterOperator) = .ok (value, afterValue) →
            readFlag (skipBlanks afterValue) = (ignoreCase, ']' :: rest) →
              ReadsAttribute text ⟨name, .compare comparison (some value) ignoreCase⟩ rest

theorem readAttribute_eq_ok_iff {condition : AttributeCondition} :
    readAttribute text = .ok (condition, rest) ↔ ReadsAttribute text condition rest := by
  constructor
  · intro read
    rcases exists_of_bind_eq_ok read with ⟨⟨name, afterName⟩, named, body⟩
    simp only at body
    split at body
    · rename_i closing
      cases body
      exact .present named closing
    · rcases exists_of_bind_eq_ok body with ⟨⟨comparison, afterOperator⟩, compared, later⟩
      rcases exists_of_bind_eq_ok later with ⟨⟨value, afterValue⟩, valued, closed⟩
      simp only at closed
      split at closed
      · rename_i closing
        cases closed
        exact .compare named compared valued (Prod.ext rfl closing)
      · cases closed
  · rintro (⟨named, closing⟩ | ⟨named, compared, valued, flagged⟩)
    · rw [readAttribute, named]
      simp only [bind, Except.bind, closing]
    · rw [readAttribute, named]
      simp only [bind, Except.bind]
      split
      · rename_i closing
        rw [closing] at compared
        cases compared
      · simp only [compared, valued, flagged]

/-! ## Chains -/

/-- The links that are read from a text.  Between two compounds lies a joint. -/
inductive ReadsLinks : List Char → List Link → Prop where
  | last {text rest : List Char} {compound : Compound} :
      readCompound {} text = .ok (compound, rest) → compound.isEmpty = false → Blank rest →
        ReadsLinks text [{ compound }]
  | link {text joint following : List Char} {compound : Compound} {combinator : Combinator}
      {links : List Link} :
      readCompound {} text = .ok (compound, joint ++ following) → compound.isEmpty = false →
        Joint combinator joint → ReadsLinks following links →
          ReadsLinks text ({ compound, combinator := some combinator } :: links)

/-- Where links are read, a compound starts. -/
theorem ReadsLinks.exists_head {links : List Link} (reads : ReadsLinks text links) :
    ∃ first tail, text = first :: tail ∧ ¬ Pause first := by
  suffices unpaused : ¬ Paused text by
    simp only [Paused, not_forall] at unpaused
    obtain ⟨first, head, apart⟩ := unpaused
    exact ⟨first, _, List.eq_cons_of_mem_head? head, apart⟩
  intro paused
  have nothing : readCompound {} text = .ok ({}, text) := readCompound_paused paused
  cases reads with
  | last read inhabited | link read inhabited =>
      rw [read] at nothing
      cases nothing
      cases inhabited

theorem ReadsLinks.skipBlanks_eq {links : List Link} (reads : ReadsLinks text links) :
    skipBlanks text = text := by
  obtain ⟨first, tail, rfl, apart⟩ := reads.exists_head
  exact skipBlanks_cons (isBlank_of_not_pause apart) tail

theorem combinator_of_combinatorOf? {character : Char} {combinator : Combinator}
    (sign : combinatorOf? character = some combinator) :
    character = combinator.sign ∧ combinator ≠ .descendant := by
  unfold combinatorOf? at sign
  split at sign <;> cases sign <;> exact ⟨rfl, by decide⟩

theorem readsLinks_of_readLinks {afterCombinator : Bool} {links : List Link}
    (read : readLinks afterCombinator text = .ok links) : ReadsLinks text links := by
  fun_induction readLinks afterCombinator text generalizing links with
  | case1 => cases read
  | case2 => exact absurd read (stopAtMissing_ne_ok _ links)
  | case3 _ _ _ _ found inhabited finished =>
      cases read
      exact .last found (by simpa using inhabited) (List.dropWhile_eq_nil_iff.mp finished)
  | case4 => cases read
  | case5 _ _ _ rest found inhabited character remaining next combinator sign =>
      rename_i further
      obtain ⟨later, among, rfl⟩ := exists_of_map_eq_ok read
      obtain ⟨before, blankBefore, split⟩ := exists_blank_append_skipBlanks rest
      obtain ⟨after, blankAfter, splitAfter⟩ := exists_blank_append_skipBlanks remaining
      obtain ⟨rfl, apart⟩ := combinator_of_combinatorOf? sign
      have parts : rest = before ++ combinator.sign :: after ++ skipBlanks remaining := by
        rw [List.append_assoc, List.cons_append, ← splitAfter, ← next, ← split]
      rw [parts] at found
      exact .link found (by simpa using inhabited) (.sign apart blankBefore blankAfter)
        (further among)
  | case6 _ _ _ rest found inhabited character remaining next _ shorter further =>
      obtain ⟨later, among, rfl⟩ := exists_of_map_eq_ok read
      obtain ⟨blanks, blank, split⟩ := exists_blank_append_skipBlanks rest
      rw [next] at split
      have some : blanks ≠ [] := by
        rintro rfl
        rw [split] at shorter
        simp at shorter
      rw [split] at found
      exact .link found (by simpa using inhabited) (.blanks blank some) (further among)
  | case7 => cases read

theorem ReadsLinks.readLinks_eq {links : List Link} (reads : ReadsLinks text links)
    (afterCombinator : Bool) : readLinks afterCombinator text = .ok links := by
  induction reads generalizing afterCombinator with
  | last read inhabited blank =>
      rw [Selector.readLinks_eq read inhabited, skipBlanks_of_blank blank]
  | link read inhabited joint later ih =>
      obtain ⟨first, tail, rfl, apart⟩ := later.exists_head
      rw [readLinks_joint read inhabited joint apart, ih]
      rfl

/-- A selector is read from a text when its links are read after the blanks. -/
theorem readSelector_eq_ok_iff {selector : Selector} :
    readSelector text = .ok selector ↔ ReadsLinks (skipBlanks text) selector.links := by
  simp only [readSelector]
  constructor
  · intro read
    split at read
    · rename_i found
      cases read
      split at found
      · cases found
      · exact readsLinks_of_readLinks found
    · cases read
    · cases read
  · intro reads
    obtain ⟨first, tail, same, -⟩ := reads.exists_head
    have found := reads.readLinks_eq false
    rw [same] at found ⊢
    simp only [List.isEmpty_cons, Bool.false_eq_true, if_false, found]

theorem ReadsLinks.parse_eq {text : String} {selector : Selector}
    (reads : ReadsLinks text.toList selector.links) : parse text = .ok selector := by
  rw [parse, readSelector_eq_ok_iff, reads.skipBlanks_eq]
  exact reads

end WidgetStyle.Selector
