import WidgetStyle.Proofs.Selector.Continuation

/-!
# Cutting a text where reading stopped

The text that a reader leaves is an end of the text that it was given, and the piece before
that end is read alone as it was read there.  So every compound of an accepted selector is
written somewhere in its text, and this piece alone is an accepted selector of one compound.
-/

namespace WidgetStyle.Selector

open WidgetStyle.Text

variable {text rest more : List Char} {compound : Compound}

/-! ## Runs of characters -/

theorem Ends.of_append {test : Char → Bool} (ends : Ends test (text ++ more)) :
    Ends test text := by
  cases text with
  | nil => simp [Ends]
  | cons first tail => exact ends_cons (ends first rfl) tail

/-- A run of characters that stops before an end of the text does not look at that end. -/
theorem dropWhile_of_append {test : Char → Bool}
    (left : (text ++ more).dropWhile test = rest ++ more) :
    text.dropWhile test = rest ∧ text.takeWhile test = (text ++ more).takeWhile test := by
  have run : ∀ character ∈ (text ++ more).takeWhile test, test character = true :=
    fun _ member => List.mem_takeWhile_imp member
  have ends : Ends test rest := Ends.of_append (left ▸ ends_dropWhile test (text ++ more))
  have parts := List.takeWhile_append_dropWhile (p := test) (l := text ++ more)
  rw [left, ← List.append_assoc] at parts
  have split := List.append_cancel_right parts
  constructor
  · calc text.dropWhile test = ((text ++ more).takeWhile test ++ rest).dropWhile test := by
          rw [split]
      _ = rest := dropWhile_run run ends
  · calc text.takeWhile test = ((text ++ more).takeWhile test ++ rest).takeWhile test := by
          rw [split]
      _ = (text ++ more).takeWhile test := takeWhile_run run ends

/-- A character that is read before an end of the text is not in that end. -/
theorem exists_tail_of_append {character : Char} {after : List Char}
    (begins : text ++ more = character :: after) (left : more <:+ after) :
    ∃ tail, text = character :: tail ∧ after = tail ++ more := by
  cases text with
  | nil =>
      have longer := left.length_le
      rw [List.nil_append] at begins
      rw [begins, List.length_cons] at longer
      omega
  | cons first tail =>
      rw [List.cons_append, List.cons.injEq] at begins
      exact ⟨tail, by rw [begins.1], begins.2.symm⟩

theorem skipBlanks_suffix (text : List Char) : skipBlanks text <:+ text :=
  List.dropWhile_suffix isBlank

theorem cons_suffix_of_skipBlanks {character : Char}
    (found : skipBlanks text = character :: rest) : character :: rest <:+ text :=
  found ▸ skipBlanks_suffix text

theorem suffix_of_skipBlanks {character : Char} (found : skipBlanks text = character :: rest) :
    rest <:+ text :=
  (List.suffix_cons character rest).trans (cons_suffix_of_skipBlanks found)

theorem skipBlanks_of_append (left : skipBlanks (text ++ more) = rest ++ more) :
    skipBlanks text = rest :=
  (dropWhile_of_append left).1

theorem skipBlanks_cons_of_append {character : Char}
    (left : skipBlanks (text ++ more) = character :: (rest ++ more)) :
    skipBlanks text = character :: rest := by
  rw [← List.cons_append] at left
  exact skipBlanks_of_append left

/-! ## Local readers -/

/-- A reader that leaves an end of its text, and reads the piece before any part of that end as
it reads the whole text. -/
structure Local {Value : Type} (reader : List Char → Reading Value) : Prop where
  suffix : ∀ {text value rest}, reader text = .ok (value, rest) → rest <:+ text
  cut : ∀ {text value rest more}, reader (text ++ more) = .ok (value, rest ++ more) →
    reader text = .ok (value, rest)

namespace Local

variable {Value : Type} {reader : List Char → Reading Value} {value : Value}
  {after : List Char}

theorem within (isLocal : Local reader) (read : reader (text ++ more) = .ok (value, after))
    (left : more <:+ after) :
    ∃ ending, after = ending ++ more ∧ reader text = .ok (value, ending) := by
  obtain ⟨ending, rfl⟩ := left
  exact ⟨ending, rfl, isLocal.cut read⟩

theorem suffix_trans (isLocal : Local reader) (read : reader text = .ok (value, after))
    (left : more <:+ after) : more <:+ text :=
  left.trans (isLocal.suffix read)

/-- Skipping blanks first keeps a reader local. -/
theorem skipping (isLocal : Local reader) : Local fun text => reader (skipBlanks text) where
  suffix read := (isLocal.suffix read).trans (skipBlanks_suffix _)
  cut := by
    intro text value rest more read
    have left := isLocal.suffix_trans read (List.suffix_append rest more)
    obtain ⟨start, starts⟩ := left
    change reader (skipBlanks text) = _
    rw [skipBlanks_of_append starts.symm]
    exact isLocal.cut (starts ▸ read)

end Local

theorem local_readName (missing : SelectorFault) : Local (readName missing) where
  suffix read := by
    obtain ⟨-, -, rfl⟩ := readName_eq_ok_iff.mp read
    exact List.dropWhile_suffix isNameCharacter
  cut read := by
    obtain ⟨letters, inhabited, left⟩ := readName_eq_ok_iff.mp read
    have cut := dropWhile_of_append left.symm
    exact readName_eq_ok_iff.mpr ⟨letters.trans cut.2.symm, inhabited, cut.1.symm⟩

/-! ## Pseudo-classes -/

/-- The parenthesis that closes a place comes right before what is left. -/
theorem ReadsPlace.closed {place : Nat} (reads : ReadsPlace text place rest) :
    ')' :: rest <:+ text := by
  cases reads with
  | digits _ closing _ =>
      have afterDigits :=
        (cons_suffix_of_skipBlanks closing).trans (List.dropWhile_suffix Char.isDigit)
      exact (afterDigits.trans (skipBlanks_suffix _)).trans (List.suffix_cons '(' _)

theorem ReadsPlace.suffix {place : Nat} (reads : ReadsPlace text place rest) : rest <:+ text :=
  (List.suffix_cons ')' rest).trans reads.closed

theorem ReadsPlace.of_append {place : Nat}
    (reads : ReadsPlace (text ++ more) place (rest ++ more)) : ReadsPlace text place rest := by
  generalize whole : text ++ more = written, remains : rest ++ more = left at reads
  cases reads with
  | @digits opened _ digits closing few positive =>
      subst remains
      have within : more <:+ (skipBlanks opened).dropWhile Char.isDigit :=
        (List.suffix_append rest more).trans (suffix_of_skipBlanks closing)
      have started := within.trans (List.dropWhile_suffix Char.isDigit)
      obtain ⟨tail, rfl, rfl⟩ :=
        exists_tail_of_append whole (started.trans (skipBlanks_suffix opened))
      obtain ⟨start, starts⟩ := started
      obtain ⟨ending, ends⟩ := within
      have skipped := skipBlanks_of_append starts.symm
      rw [← starts] at ends digits closing few positive
      obtain ⟨after, taken⟩ := dropWhile_of_append ends.symm
      rw [← ends] at closing
      have closes := skipBlanks_cons_of_append closing
      rw [← taken] at digits few positive
      rw [← starts, ← taken]
      rw [← skipped] at after digits few positive ⊢
      exact .digits digits (after ▸ closes) few positive

theorem ReadsPseudoClass.suffix {condition : PseudoClass}
    (reads : ReadsPseudoClass text condition rest) : rest <:+ text := by
  induction reads with
  | state named => exact (local_readName _).suffix named
  | nthChild named _ placed => exact (local_readName _).suffix_trans named placed.suffix
  | nthLastChild named _ placed => exact (local_readName _).suffix_trans named placed.suffix
  | negation named _ colon _ closes ih =>
      have inside := (suffix_of_skipBlanks closes).trans ih
      have opened := inside.trans (suffix_of_skipBlanks colon)
      exact (local_readName _).suffix_trans named (opened.trans (List.suffix_cons '(' _))

/-- So does the one that closes the argument of a pseudo-class. -/
theorem ReadsPseudoClass.closed {condition : PseudoClass}
    (reads : ReadsPseudoClass text condition rest) (argued : ¬condition.IsState) :
    ')' :: rest <:+ text := by
  cases reads with
  | state => exact absurd trivial argued
  | nthChild named _ placed => exact (local_readName _).suffix_trans named placed.closed
  | nthLastChild named _ placed => exact (local_readName _).suffix_trans named placed.closed
  | negation named _ colon inside closes =>
      have opened := ((cons_suffix_of_skipBlanks closes).trans inside.suffix).trans
        (suffix_of_skipBlanks colon)
      exact (local_readName _).suffix_trans named (opened.trans (List.suffix_cons '(' _))

theorem ReadsPseudoClass.of_append {condition : PseudoClass}
    (reads : ReadsPseudoClass (text ++ more) condition (rest ++ more)) :
    ReadsPseudoClass text condition rest := by
  generalize whole : text ++ more = written, remains : rest ++ more = left at reads
  induction reads generalizing text rest with
  | state named known =>
      subst whole remains
      exact .state ((local_readName _).cut named) known
  | nthChild named known placed =>
      subst whole remains
      have behindName := (List.suffix_append rest more).trans placed.suffix
      obtain ⟨argument, rfl, read⟩ := (local_readName _).within named behindName
      exact .nthChild read known placed.of_append
  | nthLastChild named known placed =>
      subst whole remains
      have behindName := (List.suffix_append rest more).trans placed.suffix
      obtain ⟨argument, rfl, read⟩ := (local_readName _).within named behindName
      exact .nthLastChild read known placed.of_append
  | negation named known colon inside closes ih =>
      subst whole remains
      have behindClosing := (List.suffix_append rest more).trans (suffix_of_skipBlanks closes)
      have behindColon := behindClosing.trans inside.suffix
      have behindName := behindColon.trans (suffix_of_skipBlanks colon)
      obtain ⟨argument, begins, read⟩ :=
        (local_readName _).within named (behindName.trans (List.suffix_cons '(' _))
      obtain ⟨opened, rfl, rfl⟩ := exists_tail_of_append begins.symm behindName
      obtain ⟨inner, rfl⟩ := behindColon
      obtain ⟨closing, rfl⟩ := behindClosing
      exact .negation read known (skipBlanks_cons_of_append colon) (ih rfl rfl)
        (skipBlanks_cons_of_append closes)

/-! ## Attributes -/

theorem local_readComparison : Local readComparison where
  suffix := by
    intro text comparison rest read
    unfold readComparison at read
    split at read
    · cases read
    · cases read
      exact List.suffix_cons '=' _
    · split at read
      · cases read
      · split at read
        · cases read
          exact (List.suffix_cons '=' _).trans (List.suffix_cons _ _)
        · cases read
  cut := by
    intro text comparison rest more read
    generalize whole : text ++ more = written at read
    unfold readComparison at read
    split at read
    · cases read
    · simp only [Except.ok.injEq, Prod.mk.injEq] at read
      obtain ⟨rfl, rfl⟩ := read
      obtain ⟨tail, rfl, same⟩ := exists_tail_of_append whole (List.suffix_append rest more)
      rw [List.append_cancel_right same]
      rfl
    · rename_i character tail plain
      split at read
      · cases read
      · rename_i found
        split at read
        · simp only [Except.ok.injEq, Prod.mk.injEq] at read
          obtain ⟨rfl, rfl⟩ := read
          have behind := List.suffix_append rest more
          obtain ⟨later, rfl, operator⟩ :=
            exists_tail_of_append whole (behind.trans (List.suffix_cons '=' _))
          obtain ⟨ending, rfl, same⟩ := exists_tail_of_append operator.symm behind
          rw [List.append_cancel_right same,
            readComparison.eq_3 character _ (by simpa using plain), found]
          rfl
        · cases read

theorem local_readQuoted (quote : Char) : Local (readQuoted quote) where
  suffix := by
    intro text value rest read
    unfold readQuoted at read
    split at read
    · cases read
    · rename_i closing
      cases read
      exact (List.suffix_cons _ _).trans (closing ▸ List.dropWhile_suffix (· != quote))
  cut := by
    intro text value rest more read
    unfold readQuoted at read
    split at read
    · cases read
    · rename_i character after closing
      simp only [Except.ok.injEq, Prod.mk.injEq] at read
      obtain ⟨rfl, rfl⟩ := read
      rw [← List.cons_append] at closing
      have cut := dropWhile_of_append closing
      rw [readQuoted, cut.1, cut.2]

theorem local_readValue : Local readValue where
  suffix := by
    intro text value rest read
    unfold readValue at read
    split at read
    · exact ((local_readQuoted _).suffix read).trans (List.suffix_cons _ _)
    · exact ((local_readQuoted _).suffix read).trans (List.suffix_cons _ _)
    · cases read
      exact List.dropWhile_suffix isBareCharacter
  cut := by
    intro text value rest more read
    generalize whole : text ++ more = written at read
    unfold readValue at read
    split at read
    · have behind := (local_readQuoted _).suffix_trans read (List.suffix_append rest more)
      obtain ⟨tail, rfl, rfl⟩ := exists_tail_of_append whole behind
      exact (local_readQuoted _).cut read
    · have behind := (local_readQuoted _).suffix_trans read (List.suffix_append rest more)
      obtain ⟨tail, rfl, rfl⟩ := exists_tail_of_append whole behind
      exact (local_readQuoted _).cut read
    · rename_i single double
      subst whole
      simp only [Except.ok.injEq, Prod.mk.injEq] at read
      obtain ⟨rfl, left⟩ := read
      have cut := dropWhile_of_append left
      have bare : readValue text = _ := readValue.eq_3 text
        (fun tail same => single (tail ++ more) (by rw [same, List.cons_append]))
        (fun tail same => double (tail ++ more) (by rw [same, List.cons_append]))
      rw [bare, cut.1, cut.2]

theorem cons_suffix_of_readFlag {ignoreCase : Bool} {character : Char}
    (read : readFlag text = (ignoreCase, character :: rest)) : character :: rest <:+ text := by
  unfold readFlag at read
  split at read
  · exact (cons_suffix_of_skipBlanks (congrArg Prod.snd read)).trans (List.suffix_cons _ _)
  · exact (cons_suffix_of_skipBlanks (congrArg Prod.snd read)).trans (List.suffix_cons _ _)
  · cases read
    exact List.suffix_refl _

theorem suffix_of_readFlag {ignoreCase : Bool} {character : Char}
    (read : readFlag text = (ignoreCase, character :: rest)) : rest <:+ text :=
  (List.suffix_cons character rest).trans (cons_suffix_of_readFlag read)

theorem readFlag_of_append {ignoreCase : Bool} {character : Char}
    (read : readFlag (text ++ more) = (ignoreCase, character :: (rest ++ more))) :
    readFlag text = (ignoreCase, character :: rest) := by
  have behind := List.suffix_append rest more
  generalize whole : text ++ more = written at read
  unfold readFlag at read
  split at read
  · rw [Prod.mk.injEq] at read
    obtain ⟨rfl, found⟩ := read
    obtain ⟨tail, rfl, rfl⟩ :=
      exists_tail_of_append whole (behind.trans (suffix_of_skipBlanks found))
    exact congrArg (Prod.mk true) (skipBlanks_cons_of_append found)
  · rw [Prod.mk.injEq] at read
    obtain ⟨rfl, found⟩ := read
    obtain ⟨tail, rfl, rfl⟩ :=
      exists_tail_of_append whole (behind.trans (suffix_of_skipBlanks found))
    exact congrArg (Prod.mk true) (skipBlanks_cons_of_append found)
  · rename_i small large
    rw [Prod.mk.injEq] at read
    obtain ⟨rfl, rfl⟩ := read
    obtain ⟨tail, rfl, same⟩ := exists_tail_of_append whole behind
    rw [List.append_cancel_right same]
    exact readFlag.eq_3 _ (by simpa using small) (by simpa using large)

theorem readFlag_skipBlanks_of_append {ignoreCase : Bool} {character : Char}
    (read : readFlag (skipBlanks (text ++ more)) = (ignoreCase, character :: (rest ++ more))) :
    readFlag (skipBlanks text) = (ignoreCase, character :: rest) := by
  obtain ⟨start, starts⟩ := (List.suffix_append rest more).trans (suffix_of_readFlag read)
  rw [skipBlanks_of_append starts.symm]
  exact readFlag_of_append (starts ▸ read)

/-- The bracket that closes an attribute condition comes right before what is left. -/
theorem ReadsAttribute.closed {condition : AttributeCondition}
    (reads : ReadsAttribute text condition rest) : ']' :: rest <:+ text := by
  cases reads with
  | present named closing =>
      exact (local_readName _).skipping.suffix_trans named (cons_suffix_of_skipBlanks closing)
  | compare named compared valued flagged =>
      have behindValue := (cons_suffix_of_readFlag flagged).trans (skipBlanks_suffix _)
      have behindOperator := local_readValue.skipping.suffix_trans valued behindValue
      have behindName := local_readComparison.skipping.suffix_trans compared behindOperator
      exact (local_readName _).skipping.suffix_trans named behindName

theorem ReadsAttribute.suffix {condition : AttributeCondition}
    (reads : ReadsAttribute text condition rest) : rest <:+ text :=
  (List.suffix_cons ']' rest).trans reads.closed

theorem ReadsAttribute.of_append {condition : AttributeCondition}
    (reads : ReadsAttribute (text ++ more) condition (rest ++ more)) :
    ReadsAttribute text condition rest := by
  generalize remains : rest ++ more = left at reads
  cases reads with
  | present named closing =>
      subst remains
      have behindName := (List.suffix_append rest more).trans (suffix_of_skipBlanks closing)
      obtain ⟨afterName, rfl, read⟩ := (local_readName _).skipping.within named behindName
      exact .present read (skipBlanks_cons_of_append closing)
  | compare named compared valued flagged =>
      subst remains
      have behindValue := ((List.suffix_append rest more).trans (suffix_of_readFlag flagged)).trans
        (skipBlanks_suffix _)
      have behindOperator := local_readValue.skipping.suffix_trans valued behindValue
      have behindName := local_readComparison.skipping.suffix_trans compared behindOperator
      obtain ⟨afterName, rfl, name⟩ := (local_readName _).skipping.within named behindName
      obtain ⟨afterOperator, rfl, comparison⟩ :=
        local_readComparison.skipping.within compared behindOperator
      obtain ⟨afterValue, rfl, value⟩ := local_readValue.skipping.within valued behindValue
      exact .compare name comparison value (readFlag_skipBlanks_of_append flagged)

/-! ## Compounds -/

theorem local_readPseudoClass : Local readPseudoClass where
  suffix read := (readPseudoClass_eq_ok_iff.mp read).suffix
  cut read := readPseudoClass_eq_ok_iff.mpr (readPseudoClass_eq_ok_iff.mp read).of_append

theorem local_readAttribute : Local readAttribute where
  suffix read := (readAttribute_eq_ok_iff.mp read).suffix
  cut read := readAttribute_eq_ok_iff.mpr (readAttribute_eq_ok_iff.mp read).of_append

theorem ReadsCondition.suffix {condition : Condition}
    (reads : ReadsCondition compound text condition rest) : rest <:+ text := by
  cases reads with
  | universal => exact List.suffix_cons '*' rest
  | id found => exact ((local_readName _).suffix found).trans (List.suffix_cons '#' _)
  | hasClass found => exact ((local_readName _).suffix found).trans (List.suffix_cons '.' _)
  | hasPseudoClass found =>
      exact (local_readPseudoClass.suffix found).trans (List.suffix_cons ':' _)
  | hasAttribute found => exact (local_readAttribute.suffix found).trans (List.suffix_cons '[' _)
  | element => exact (List.dropWhile_suffix isNameCharacter).trans (List.suffix_cons _ _)

/-- What a local reader reads behind a sign it reads alone behind this sign. -/
theorem Local.behind_sign {Value : Type} {reader : List Char → Reading Value} {value : Value}
    (isLocal : Local reader) {sign : Char} {after : List Char}
    (begins : text ++ more = sign :: after) (read : reader after = .ok (value, rest ++ more)) :
    ∃ tail, text = sign :: tail ∧ reader tail = .ok (value, rest) := by
  obtain ⟨tail, signed, rfl⟩ := exists_tail_of_append begins
    (isLocal.suffix_trans read (List.suffix_append rest more))
  exact ⟨tail, signed, isLocal.cut read⟩

theorem ReadsCondition.of_append {condition : Condition}
    (reads : ReadsCondition compound (text ++ more) condition (rest ++ more)) :
    ReadsCondition compound text condition rest := by
  have last := List.suffix_append rest more
  generalize whole : text ++ more = written, remains : rest ++ more = left at reads
  cases reads with
  | universal =>
      obtain ⟨tail, rfl, same⟩ := exists_tail_of_append whole (remains ▸ last)
      rw [← List.append_cancel_right (remains.trans same)]
      exact .universal
  | id found =>
      obtain ⟨tail, rfl, read⟩ := (local_readName _).behind_sign whole (remains ▸ found)
      exact .id read
  | hasClass found =>
      obtain ⟨tail, rfl, read⟩ := (local_readName _).behind_sign whole (remains ▸ found)
      exact .hasClass read
  | hasPseudoClass found =>
      obtain ⟨tail, rfl, read⟩ := local_readPseudoClass.behind_sign whole (remains ▸ found)
      exact .hasPseudoClass read
  | hasAttribute found =>
      obtain ⟨tail, rfl, read⟩ := local_readAttribute.behind_sign whole (remains ▸ found)
      exact .hasAttribute read
  | @element first after start admits =>
      have behind := (remains ▸ last).trans (List.dropWhile_suffix isNameCharacter)
      obtain ⟨tail, rfl, rfl⟩ := exists_tail_of_append whole behind
      have cut := dropWhile_of_append remains.symm
      rw [← cut.1, ← cut.2]
      exact .element start admits

theorem suffix_of_readCompound {result : Compound}
    (read : readCompound compound text = .ok (result, rest)) : rest <:+ text := by
  fun_induction readCompound compound text with
  | case1 => cases read
  | case2 =>
      cases read
      exact List.suffix_refl _
  | case3 compound text condition remaining next ih =>
      exact (ih read).trans (readsCondition next).suffix

/-- The piece of a text that is read as a compound is read alone as this compound. -/
theorem readCompound_of_append {result : Compound}
    (read : readCompound compound (text ++ more) = .ok (result, more)) :
    readCompound compound text = .ok (result, []) := by
  generalize whole : text ++ more = written at read
  fun_induction readCompound compound written generalizing text with
  | case1 => cases read
  | case2 =>
      cases read
      rw [List.append_cancel_right (whole.trans (List.nil_append _).symm)]
      exact readCompound_paused paused_nil
  | case3 compound written condition remaining next ih =>
      have reads := readsCondition next
      obtain ⟨ending, rfl⟩ := suffix_of_readCompound read
      subst whole
      rw [readCompound_eq, reads.of_append.readCondition_eq]
      exact ih rfl read

theorem ReadsLinks.exists_piece {links : List Link} (reads : ReadsLinks text links) {link : Link}
    (member : link ∈ links) :
    link.compound.isEmpty = false ∧ ∃ piece, readCompound {} piece = .ok (link.compound, []) := by
  induction reads with
  | last read inhabited _ =>
      rw [List.mem_singleton] at member
      obtain ⟨piece, rfl⟩ := suffix_of_readCompound read
      rw [member]
      exact ⟨inhabited, piece, readCompound_of_append read⟩
  | link read inhabited _ _ ih =>
      rcases List.mem_cons.mp member with rfl | later
      · obtain ⟨piece, rfl⟩ := suffix_of_readCompound read
        exact ⟨inhabited, piece, readCompound_of_append read⟩
      · exact ih later

/-- Each compound of an accepted selector is accepted alone. -/
theorem exists_parse_ofCompound {text : String} {selector : Selector}
    (accepted : parse text = .ok selector) {link : Link} (member : link ∈ selector.links) :
    ∃ piece, parse piece = .ok (ofCompound link.compound) := by
  have reads := readSelector_eq_ok_iff.mp accepted
  obtain ⟨inhabited, piece, read⟩ := reads.exists_piece member
  have alone : ReadsLinks (String.ofList piece).toList (ofCompound link.compound).links := by
    rw [String.toList_ofList]
    exact .last read inhabited blank_nil
  exact ⟨String.ofList piece, alone.parse_eq⟩

end WidgetStyle.Selector
