import WidgetStyle.Proofs.Selector.Readings

/-!
# Reading on

A reader never looks past the end of its own piece, so what is read from a text is read in
the same way when the text goes on, and leaves as much more.  Only a name that ends with the
text could take in what follows; that what follows cannot go on with a name is therefore a
premise.  A comma goes on with nothing: behind a selector it is always refused.
-/

namespace WidgetStyle

/-- The pseudo-class asks for a fact, so its name ends its text. -/
def PseudoClass.IsState : PseudoClass → Prop
  | .state _ => True
  | _ => False

namespace Selector

open WidgetStyle.Text

variable {text rest more : List Char} {compound : Compound}

/-! ## Runs of characters -/

theorem ends_of_dropWhile {test : Char → Bool} {character : Char}
    (found : text.dropWhile test = character :: rest) (more : List Char) :
    Ends test (character :: rest ++ more) := by
  have stops := ends_dropWhile test text
  rw [found] at stops
  exact ends_cons (stops character rfl) (rest ++ more)

theorem ends_append {test : Char → Bool} (ends : text.dropWhile test = [] → Ends test more) :
    Ends test (text.dropWhile test ++ more) := by
  cases found : text.dropWhile test with
  | nil => exact ends found
  | cons character rest => exact ends_of_dropWhile found more

theorem takeWhile_append_of_ends {test : Char → Bool}
    (ends : Ends test (text.dropWhile test ++ more)) :
    (text ++ more).takeWhile test = text.takeWhile test := by
  have run : ∀ character ∈ text.takeWhile test, test character = true :=
    fun _ member => List.mem_takeWhile_imp member
  calc (text ++ more).takeWhile test
      = (text.takeWhile test ++ (text.dropWhile test ++ more)).takeWhile test := by
        rw [← List.append_assoc, List.takeWhile_append_dropWhile]
    _ = text.takeWhile test := takeWhile_run run ends

theorem dropWhile_append_of_ends {test : Char → Bool}
    (ends : Ends test (text.dropWhile test ++ more)) :
    (text ++ more).dropWhile test = text.dropWhile test ++ more := by
  have run : ∀ character ∈ text.takeWhile test, test character = true :=
    fun _ member => List.mem_takeWhile_imp member
  calc (text ++ more).dropWhile test
      = (text.takeWhile test ++ (text.dropWhile test ++ more)).dropWhile test := by
        rw [← List.append_assoc, List.takeWhile_append_dropWhile]
    _ = text.dropWhile test ++ more := dropWhile_run run ends

theorem skipBlanks_append_of_cons {character : Char}
    (found : skipBlanks text = character :: rest) (more : List Char) :
    skipBlanks (text ++ more) = character :: (rest ++ more) := by
  have ends : Ends isBlank (text.dropWhile isBlank ++ more) := by
    rw [← skipBlanks, found]
    exact ends_of_dropWhile found more
  rw [skipBlanks, dropWhile_append_of_ends ends, ← skipBlanks, found, List.cons_append]

theorem skipBlanks_append_of_ne_nil (inhabited : skipBlanks text ≠ []) (more : List Char) :
    skipBlanks (text ++ more) = skipBlanks text ++ more := by
  obtain ⟨character, rest, found⟩ := List.exists_cons_of_ne_nil inhabited
  rw [skipBlanks_append_of_cons found, found, List.cons_append]

/-! ## Pieces -/

theorem readName_append {missing : SelectorFault} {name : String}
    (read : readName missing text = .ok (name, rest))
    (ends : rest = [] → Ends isNameCharacter more) :
    readName missing (text ++ more) = .ok (name, rest ++ more) := by
  obtain ⟨letters, inhabited, rfl⟩ := readName_eq_ok_iff.mp read
  have apart := ends_append ends
  refine readName_eq_ok_iff.mpr ⟨?_, inhabited, ?_⟩
  · rw [takeWhile_append_of_ends apart, letters]
  · rw [dropWhile_append_of_ends apart]

theorem ne_nil_of_readName {missing : SelectorFault} {name : String}
    (read : readName missing text = .ok (name, rest)) : text ≠ [] := by
  rintro rfl
  cases read

theorem ReadsPlace.append {place : Nat} (reads : ReadsPlace text place rest)
    (more : List Char) : ReadsPlace (text ++ more) place (rest ++ more) := by
  cases reads with
  | @digits opened _ digits closing few positive =>
      have started : skipBlanks opened ≠ [] := by
        intro nothing
        rw [nothing] at digits
        exact digits rfl
      have stopped : (skipBlanks opened).dropWhile Char.isDigit ≠ [] := by
        intro nothing
        rw [nothing] at closing
        cases closing
      obtain ⟨character, after, found⟩ := List.exists_cons_of_ne_nil stopped
      have ends : Ends Char.isDigit ((skipBlanks opened).dropWhile Char.isDigit ++ more) := by
        rw [found]
        exact ends_of_dropWhile found more
      have start := skipBlanks_append_of_ne_nil started more
      have taken := takeWhile_append_of_ends ends
      have left := dropWhile_append_of_ends ends
      rw [← start] at taken left
      have closes : skipBlanks ((skipBlanks (opened ++ more)).dropWhile Char.isDigit) =
          ')' :: (rest ++ more) := by
        rw [left]
        exact skipBlanks_append_of_cons closing more
      rw [← taken] at digits few positive ⊢
      exact .digits digits closes few positive

theorem ReadsPlace.ne_nil {place : Nat} (reads : ReadsPlace text place rest) : text ≠ [] := by
  rintro rfl
  cases reads

theorem ReadsPseudoClass.append {condition : PseudoClass}
    (reads : ReadsPseudoClass text condition rest)
    (ends : condition.IsState → rest = [] → Ends isNameCharacter more) :
    ReadsPseudoClass (text ++ more) condition (rest ++ more) := by
  induction reads with
  | state named known => exact .state (readName_append named (ends trivial)) known
  | nthChild named known placed =>
      exact .nthChild (readName_append named (absurd · placed.ne_nil)) known (placed.append more)
  | nthLastChild named known placed =>
      exact .nthLastChild (readName_append named (absurd · placed.ne_nil)) known
        (placed.append more)
  | negation named known colon _ closes ih =>
      have inside := ih fun _ nothing => by rw [nothing] at closes; cases closes
      exact .negation (readName_append named (absurd · (List.cons_ne_nil _ _))) known
        (skipBlanks_append_of_cons colon more) inside (skipBlanks_append_of_cons closes more)

theorem ne_nil_of_skipBlanks (some : skipBlanks text ≠ []) : text ≠ [] := by
  rintro rfl
  exact some rfl

theorem readComparison_append {comparison : Comparison}
    (read : readComparison text = .ok (comparison, rest)) (more : List Char) :
    readComparison (text ++ more) = .ok (comparison, rest ++ more) := by
  unfold readComparison at read
  split at read
  · cases read
  · cases read
    rfl
  · rename_i character tail plain
    split at read
    · cases read
    · rename_i found
      split at read
      · cases read
        rw [List.cons_append, readComparison.eq_3 character _ (by simpa using plain), found]
        rfl
      · cases read

theorem readQuoted_append {quote : Char} {value : String}
    (read : readQuoted quote text = .ok (value, rest)) (more : List Char) :
    readQuoted quote (text ++ more) = .ok (value, rest ++ more) := by
  unfold readQuoted at read
  split at read
  · cases read
  · rename_i found
    have ends : Ends (· != quote) (text.dropWhile (· != quote) ++ more) := by
      rw [found]
      exact ends_of_dropWhile found more
    cases read
    rw [readQuoted, takeWhile_append_of_ends ends, dropWhile_append_of_ends ends, found]
    rfl

theorem readValue_append {value : String} (read : readValue text = .ok (value, rest))
    (started : text ≠ []) (stopped : rest ≠ []) (more : List Char) :
    readValue (text ++ more) = .ok (value, rest ++ more) := by
  unfold readValue at read
  split at read
  · exact readQuoted_append read more
  · exact readQuoted_append read more
  · rename_i single double
    cases read
    obtain ⟨character, after, found⟩ := List.exists_cons_of_ne_nil stopped
    have ends : Ends isBareCharacter (text.dropWhile isBareCharacter ++ more) := by
      rw [found]
      exact ends_of_dropWhile found more
    obtain ⟨first, tail, rfl⟩ := List.exists_cons_of_ne_nil started
    have bare : readValue (first :: (tail ++ more)) = _ :=
      readValue.eq_3 _ (by simpa using single) (by simpa using double)
    rw [List.cons_append, bare, ← List.cons_append, takeWhile_append_of_ends ends,
      dropWhile_append_of_ends ends]

theorem readFlag_append {ignoreCase : Bool} (read : readFlag text = (ignoreCase, ']' :: rest))
    (more : List Char) : readFlag (text ++ more) = (ignoreCase, ']' :: (rest ++ more)) := by
  unfold readFlag at read
  split at read
  · obtain ⟨rfl, closing⟩ := Prod.mk.injEq .. ▸ read
    exact congrArg (Prod.mk true) (skipBlanks_append_of_cons closing more)
  · obtain ⟨rfl, closing⟩ := Prod.mk.injEq .. ▸ read
    exact congrArg (Prod.mk true) (skipBlanks_append_of_cons closing more)
  · rename_i small large
    obtain ⟨rfl, rfl⟩ := Prod.mk.injEq .. ▸ read
    rfl

theorem ReadsAttribute.append {condition : AttributeCondition}
    (reads : ReadsAttribute text condition rest) (more : List Char) :
    ReadsAttribute (text ++ more) condition (rest ++ more) := by
  have started {name : String} {afterName : List Char}
      (named : readName .expectedAttributeName (skipBlanks text) = .ok (name, afterName))
      (stopped : afterName ≠ []) : readName .expectedAttributeName (skipBlanks (text ++ more)) =
        .ok (name, afterName ++ more) := by
    rw [skipBlanks_append_of_ne_nil (ne_nil_of_readName named)]
    exact readName_append named (absurd · stopped)
  cases reads with
  | present named closing =>
      have stopped := ne_nil_of_skipBlanks (closing ▸ List.cons_ne_nil _ _)
      exact .present (started named stopped) (skipBlanks_append_of_cons closing more)
  | @compare afterName afterOperator afterValue _ _ _ _ _ named compared valued flagged =>
      -- The closing bracket was found, so none of the parts before it ends with the text.
      have closed : skipBlanks afterValue ≠ [] := by
        intro nothing
        rw [nothing] at flagged
        cases flagged
      have stopped := ne_nil_of_skipBlanks closed
      have operated : skipBlanks afterName ≠ [] := by
        intro nothing
        rw [nothing] at compared
        cases compared
      have opened : skipBlanks afterOperator ≠ [] := by
        intro nothing
        rw [nothing] at valued
        cases valued
        exact stopped rfl
      have comparedOn := readComparison_append compared more
      have valuedOn := readValue_append valued opened stopped more
      have flaggedOn := readFlag_append flagged more
      rw [← skipBlanks_append_of_ne_nil operated] at comparedOn
      rw [← skipBlanks_append_of_ne_nil opened] at valuedOn
      rw [← skipBlanks_append_of_ne_nil closed] at flaggedOn
      exact .compare (started named (ne_nil_of_skipBlanks operated)) comparedOn valuedOn flaggedOn

/-! ## Compounds -/

theorem ReadsCondition.readCondition_eq {condition : Condition}
    (reads : ReadsCondition compound text condition rest) :
    readCondition compound text = .ok (some (condition, rest)) := by
  cases reads with
  | universal => rfl
  | id found => simp [readCondition, found, Except.map]
  | hasClass found => simp [readCondition, found, Except.map]
  | hasPseudoClass found => simp [readCondition, found, Except.map]
  | hasAttribute found => simp [readCondition, found, Except.map]
  | @element first tail start admits =>
      rw [readCondition_signless (signless_of_isNameStart start), start, admits]
      rfl

/-- The text of the condition ends with a name, which could go on with what follows. -/
def Condition.EndsInName : Condition → Prop
  | .element _ | .id _ | .hasClass _ => True
  | .hasPseudoClass condition => condition.IsState
  | .universal | .hasAttribute _ => False

theorem ReadsCondition.append {condition : Condition}
    (reads : ReadsCondition compound text condition rest)
    (ends : condition.EndsInName → rest = [] → Ends isNameCharacter more) :
    ReadsCondition compound (text ++ more) condition (rest ++ more) := by
  cases reads with
  | universal => exact .universal
  | id found => exact .id (readName_append found (ends trivial))
  | hasClass found => exact .hasClass (readName_append found (ends trivial))
  | hasPseudoClass found =>
      have reads := readPseudoClass_eq_ok_iff.mp found
      exact .hasPseudoClass (readPseudoClass_eq_ok_iff.mpr (reads.append ends))
  | hasAttribute found =>
      have reads := readAttribute_eq_ok_iff.mp found
      exact .hasAttribute (readAttribute_eq_ok_iff.mpr (reads.append more))
  | @element first tail start admits =>
      have apart := ends_append (ends trivial)
      rw [← takeWhile_append_of_ends apart, ← dropWhile_append_of_ends apart]
      exact .element start admits

/-- The conditions are read as before, and reading goes on where it stopped. -/
theorem readCompound_append {result : Compound} (ends : Ends isNameCharacter more)
    (read : readCompound compound text = .ok (result, rest)) :
    readCompound compound (text ++ more) = readCompound result (rest ++ more) := by
  fun_induction readCompound compound text with
  | case1 => cases read
  | case2 =>
      cases read
      rfl
  | case3 compound text condition remaining next ih =>
      have further := ((readsCondition next).append fun _ _ => ends).readCondition_eq
      rw [readCompound_eq, further]
      exact ih read

/-! ## Commas -/

/-- No condition starts with a comma. -/
theorem readCompound_comma (compound : Compound) (more : List Char) :
    readCompound compound (',' :: more) = .ok (compound, ',' :: more) := by
  have signless : ',' ∉ conditionSigns := by decide
  have start : isNameStart ',' = false := by decide
  rw [readCompound_eq, readCondition_signless signless, start]
  rfl

theorem ends_comma (more : List Char) : Ends isNameCharacter (',' :: more) :=
  ends_cons (by decide) more

theorem exists_error_of_stopAtMissing {Value : Type} (afterCombinator : Bool)
    (text : List Char) :
    ∃ fault, (stopAtMissing afterCombinator text : Except Stop Value) = .error fault := by
  cases text with
  | nil => exact ⟨_, rfl⟩
  | cons character text => cases afterCombinator <;> exact ⟨_, rfl⟩

theorem exists_error_of_readLinks_comma (afterCombinator : Bool) (more : List Char) :
    ∃ fault, readLinks afterCombinator (',' :: more) = .error fault := by
  rw [readLinks]
  split
  · exact ⟨_, rfl⟩
  · rename_i found
    rw [readCompound_comma] at found
    cases found
    rw [if_pos (by rfl)]
    exact exists_error_of_stopAtMissing afterCombinator _

/-- Behind the links of a chain a comma is refused. -/
theorem ReadsLinks.exists_error_of_comma {links : List Link} (reads : ReadsLinks text links)
    (more : List Char) (afterCombinator : Bool) :
    ∃ fault, readLinks afterCombinator (text ++ ',' :: more) = .error fault := by
  induction reads generalizing afterCombinator with
  | @last text rest compound read inhabited blank =>
      have on : readCompound {} (text ++ ',' :: more) =
          .ok (compound, rest ++ ',' :: more) := by
        rw [readCompound_append (ends_comma more) read]
        cases rest with
        | nil => exact readCompound_comma compound more
        | cons character rest =>
            exact readCompound_paused (paused_append (List.cons_ne_nil _ _)
              (paused_of_blank blank) _)
      have skipped : skipBlanks (rest ++ ',' :: more) = ',' :: more := by
        rw [skipBlanks_append blank, skipBlanks_cons (by decide)]
      -- The comma is no combinator, and after blanks it starts no compound.
      obtain ⟨fault, refused⟩ := exists_error_of_readLinks_comma true more
      rw [Selector.readLinks_eq on inhabited, skipped]
      simp only [show combinatorOf? ',' = none from rfl, refused]
      split
      · exact ⟨_, rfl⟩
      · exact ⟨_, rfl⟩
  | @link text joint following compound combinator links read inhabited joins later ih =>
      obtain ⟨first, tail, same, apart⟩ := later.exists_head
      have on : readCompound {} (text ++ ',' :: more) =
          .ok (compound, joint ++ first :: (tail ++ ',' :: more)) := by
        rw [readCompound_append (ends_comma more) read, same, List.append_assoc,
          List.cons_append]
        exact readCompound_paused (paused_append joins.inhabited joins.paused _)
      obtain ⟨fault, refused⟩ := ih true
      rw [same, List.cons_append] at refused
      rw [readLinks_joint on inhabited joins apart, refused]
      exact ⟨fault, rfl⟩

theorem exists_error_of_readSelector {fault : Stop} {start : List Char}
    (begins : skipBlanks text = start) (refused : readLinks false start = .error fault) :
    ∃ error, readSelector text = .error error := by
  simp only [readSelector, begins, refused]
  split
  · rename_i found
    split at found
    · cases found
    · cases found
  · exact ⟨_, rfl⟩
  · exact ⟨_, rfl⟩

/-- Behind a selector a comma is refused. -/
theorem exists_error_of_readSelector_comma {selector : Selector}
    (read : readSelector text = .ok selector) (more : List Char) :
    ∃ error, readSelector (text ++ ',' :: more) = .error error := by
  have reads := readSelector_eq_ok_iff.mp read
  obtain ⟨first, tail, same, apart⟩ := reads.exists_head
  obtain ⟨fault, refused⟩ := reads.exists_error_of_comma more false
  refine exists_error_of_readSelector ?_ refused
  rw [skipBlanks_append_of_cons same, same, List.cons_append]

/-- So it is behind blanks alone. -/
theorem exists_error_of_blank_comma {blanks : List Char} (blank : Blank blanks)
    (more : List Char) : ∃ error, readSelector (blanks ++ ',' :: more) = .error error := by
  obtain ⟨fault, refused⟩ := exists_error_of_readLinks_comma false more
  refine exists_error_of_readSelector ?_ refused
  rw [skipBlanks_append blank, skipBlanks_cons (by decide)]

end Selector

end WidgetStyle
