import WidgetStyle.Proofs.Selector.Legible
import WidgetStyle.Proofs.Selector.Segments

/-!
# Level texts

A text is level where the scan of a group leaves it at the depth at which it entered and meets
no comma outside.  Everything that a reader takes in is level, except that a quote or a bracket
in the text of an attribute may upset the scan.  So a group of selectors without quotes and
brackets in their texts is always read one by one.
-/

namespace WidgetStyle

open WidgetStyle.Text WidgetStyle.Selector

/-- No character of the text changes the nesting. -/
def AttributeTest.Plain : AttributeTest → Prop
  | present => True
  | compare _ value _ => ∀ text ∈ value, ∀ character ∈ text.toList, character ∉ scanSigns

/-- No text of an attribute changes the nesting. -/
def Compound.Plain (compound : Compound) : Prop :=
  ∀ condition ∈ compound.attributes, condition.test.Plain

namespace Selector

variable {nesting : Nesting} {depth : Nat} {text rest more : List Char} {character : Char}

theorem Sheltered.append (sheltered : Sheltered nesting text)
    (further : Sheltered (nesting.past text) more) : Sheltered nesting (text ++ more) :=
  segments_eq_singleton_iff.mp (segments_append sheltered (segments_of_sheltered further))

/-- The scan comes back to the depth it started from. -/
structure Level (depth : Nat) (text : List Char) : Prop where
  sheltered : Sheltered ⟨none, depth⟩ text
  closed : Nesting.past ⟨none, depth⟩ text = ⟨none, depth⟩

theorem level_nil (depth : Nat) : Level depth [] :=
  ⟨sheltered_nil _, rfl⟩

theorem Level.append (level : Level depth text) (further : Level depth more) :
    Level depth (text ++ more) where
  sheltered := level.sheltered.append (by rw [level.closed]; exact further.sheltered)
  closed := by rw [Nesting.past_append, level.closed, further.closed]

theorem level_of_plain (plain : ∀ character ∈ text, character ∉ scanSigns)
    (inner : depth = 0 → ',' ∉ text) : Level depth text := by
  induction text with
  | nil => exact level_nil depth
  | cons character rest ih =>
      obtain ⟨neutral, plain⟩ := List.forall_mem_cons.mp plain
      have later := ih plain fun outer member => inner outer (List.mem_cons_of_mem _ member)
      have stays : Nesting.after ⟨none, depth⟩ character = ⟨none, depth⟩ := after_of_plain neutral
      refine ⟨sheltered_cons.mpr ⟨?_, by rw [stays]; exact later.sheltered⟩, ?_⟩
      · rw [Bool.and_eq_false_imp, beq_iff_eq]
        rintro rfl
        rw [Bool.eq_false_iff, ne_eq, Nesting.isOutermost_iff]
        intro outermost
        exact inner (congrArg Nesting.depth outermost) List.mem_cons_self
      · rw [Nesting.past_cons, stays, later.closed]

/-- Inside a quote nothing counts but the quote that closes it. -/
theorem sheltered_quoted {quote : Char} (apart : quote ∉ text) (depth : Nat) :
    Sheltered ⟨some quote, depth⟩ text ∧
      Nesting.past ⟨some quote, depth⟩ text = ⟨some quote, depth⟩ := by
  induction text with
  | nil => exact ⟨sheltered_nil _, rfl⟩
  | cons character rest ih =>
      have other := List.ne_of_not_mem_cons apart
      have stays : Nesting.after ⟨some quote, depth⟩ character = ⟨some quote, depth⟩ := by
        simp [Nesting.after, Ne.symm other]
      obtain ⟨sheltered, closed⟩ := ih (List.not_mem_of_not_mem_cons apart)
      refine ⟨sheltered_cons.mpr ⟨Bool.and_false _, by rw [stays]; exact sheltered⟩, ?_⟩
      rw [Nesting.past_cons, stays, closed]

/-- A text is level between two characters that lead into its nesting and back. -/
theorem level_enclosed {inside : Nesting} {opening closing : Char} (apart : opening ≠ ',')
    (opens : Nesting.after ⟨none, depth⟩ opening = inside)
    (closes : inside.after closing = ⟨none, depth⟩) (inner : inside.isOutermost = false)
    (sheltered : Sheltered inside text) (closed : inside.past text = inside) :
    Level depth (opening :: (text ++ [closing])) := by
  refine ⟨sheltered_cons.mpr ⟨?_, ?_⟩, ?_⟩
  · rw [beq_false_of_ne apart, Bool.false_and]
  · rw [opens]
    refine sheltered.append ?_
    rw [closed]
    exact sheltered_cons.mpr ⟨by rw [inner, Bool.and_false], sheltered_nil _⟩
  · rw [Nesting.past_cons, opens, Nesting.past_append, closed, Nesting.past_cons, closes,
      Nesting.past_nil]

theorem level_quoted {quote : Char} (isQuote : quote = '\'' ∨ quote = '"')
    (apart : quote ∉ text) : Level depth (quote :: (text ++ [quote])) := by
  obtain ⟨sheltered, closed⟩ := sheltered_quoted apart depth
  rcases isQuote with rfl | rfl
  · exact level_enclosed (by decide) rfl rfl rfl sheltered closed
  · exact level_enclosed (by decide) rfl rfl rfl sheltered closed

theorem level_bracketed {opening closing : Char} (opens : opening = '[' ∨ opening = '(')
    (closes : closing = ']' ∨ closing = ')') (level : Level (depth + 1) text) :
    Level depth (opening :: (text ++ [closing])) := by
  have leaves : Nesting.after ⟨none, depth + 1⟩ closing = ⟨none, depth⟩ := by
    rcases closes with rfl | rfl <;> rfl
  rcases opens with rfl | rfl
  · exact level_enclosed (by decide) rfl leaves rfl level.sheltered level.closed
  · exact level_enclosed (by decide) rfl leaves rfl level.sheltered level.closed

/-! ## What readers take in -/

/-- From the text to the rest of it there is a level piece. -/
def Crosses (depth : Nat) (text rest : List Char) : Prop :=
  ∃ piece, text = piece ++ rest ∧ Level depth piece

namespace Crosses

theorem refl (depth : Nat) (text : List Char) : Crosses depth text text :=
  ⟨[], rfl, level_nil depth⟩

theorem trans (first : Crosses depth text rest) (second : Crosses depth rest more) :
    Crosses depth text more := by
  obtain ⟨piece, rfl, level⟩ := first
  obtain ⟨further, rfl, later⟩ := second
  exact ⟨piece ++ further, (List.append_assoc _ _ _).symm, level.append later⟩

theorem cons (plain : character ∉ ',' :: scanSigns) (crosses : Crosses depth text rest) :
    Crosses depth (character :: text) rest := by
  have level : Level depth [character] := by
    have comma := List.ne_of_not_mem_cons plain
    have neutral := List.not_mem_of_not_mem_cons plain
    exact level_of_plain (by simpa using neutral) fun _ => by simpa using Ne.symm comma
  exact trans ⟨[character], rfl, level⟩ crosses

theorem bracketed {opening closing : Char} (opens : opening = '[' ∨ opening = '(')
    (closes : closing = ']' ∨ closing = ')')
    (crosses : Crosses (depth + 1) text (closing :: rest)) :
    Crosses depth (opening :: text) rest := by
  obtain ⟨piece, rfl, level⟩ := crosses
  exact ⟨opening :: (piece ++ [closing]), by simp, level_bracketed opens closes level⟩

/-- A run of characters without separators and signs. -/
theorem run {test : Char → Bool}
    (neutral : (',' :: scanSigns).all (fun sign => !test sign) = true) (depth : Nat)
    (text : List Char) : Crosses depth text (text.dropWhile test) := by
  have apart : ∀ character ∈ text.takeWhile test, character ∉ ',' :: scanSigns := by
    intro character member sign
    have fails := List.all_eq_true.mp neutral character sign
    rw [List.mem_takeWhile_imp member] at fails
    cases fails
  refine ⟨text.takeWhile test, List.takeWhile_append_dropWhile.symm, level_of_plain ?_ ?_⟩
  · exact fun character member => List.not_mem_of_not_mem_cons (apart character member)
  · exact fun _ member => apart ',' member List.mem_cons_self

theorem name (depth : Nat) (text : List Char) :
    Crosses depth text (text.dropWhile isNameCharacter) :=
  run (by decide) depth text

theorem digits (depth : Nat) (text : List Char) :
    Crosses depth text (text.dropWhile Char.isDigit) :=
  run (by decide) depth text

theorem blanks (depth : Nat) (text : List Char) : Crosses depth text (skipBlanks text) :=
  run (by decide) depth text

end Crosses

theorem crosses_of_readName {missing : SelectorFault} {name : String}
    (read : readName missing text = .ok (name, rest)) (depth : Nat) :
    Crosses depth text rest := by
  obtain ⟨-, -, rfl⟩ := readName_eq_ok_iff.mp read
  exact .name depth text

theorem ReadsPlace.crosses {place : Nat} (reads : ReadsPlace text place rest) (depth : Nat) :
    Crosses depth text rest := by
  cases reads with
  | @digits opened _ digits closing positive =>
      have closes := Crosses.blanks (depth + 1) ((skipBlanks opened).dropWhile Char.isDigit)
      rw [closing] at closes
      exact .bracketed (.inr rfl) (.inr rfl)
        ((Crosses.blanks _ opened).trans ((Crosses.digits _ _).trans closes))

theorem ReadsPseudoClass.crosses {condition : PseudoClass}
    (reads : ReadsPseudoClass text condition rest) (depth : Nat) : Crosses depth text rest := by
  induction reads generalizing depth with
  | state named known => exact crosses_of_readName named depth
  | nthChild named known placed =>
      exact (crosses_of_readName named depth).trans (placed.crosses depth)
  | nthLastChild named known placed =>
      exact (crosses_of_readName named depth).trans (placed.crosses depth)
  | @negation _ opened inner closing rest _ _ named known colon _ closes ih =>
      have start := Crosses.blanks (depth + 1) opened
      have stop := Crosses.blanks (depth + 1) closing
      rw [colon] at start
      rw [closes] at stop
      have inside : Crosses (depth + 1) (':' :: inner) (')' :: rest) :=
        .cons (by decide) ((ih (depth + 1)).trans stop)
      exact (crosses_of_readName named depth).trans
        (.bracketed (.inr rfl) (.inr rfl) (start.trans inside))

theorem crosses_of_readComparison {comparison : Comparison}
    (read : readComparison text = .ok (comparison, rest)) (depth : Nat) :
    Crosses depth text rest := by
  unfold readComparison at read
  split at read
  · cases read
  · cases read
    exact .cons (by decide) (.refl depth rest)
  · rename_i character tail plain
    split at read
    · cases read
    · rename_i found
      split at read
      · cases read
        have neutral : character ∉ ',' :: scanSigns := by
          intro sign
          simp only [scanSigns, List.mem_cons, List.not_mem_nil, or_false] at sign
          rcases sign with rfl | rfl | rfl | rfl | rfl | rfl | rfl <;> cases found
        exact .cons neutral (.cons (by decide) (.refl depth rest))
      · cases read

theorem crosses_of_readQuoted {quote : Char} {value : String}
    (isQuote : quote = '\'' ∨ quote = '"') (read : readQuoted quote text = .ok (value, rest))
    (depth : Nat) : Crosses depth (quote :: text) rest := by
  unfold readQuoted at read
  split at read
  · cases read
  · rename_i closing tail found
    cases read
    have same : closing = quote := by
      simpa [found] using List.head?_dropWhile_not (· != quote) text
    have apart : quote ∉ text.takeWhile (· != quote) := by
      intro member
      simpa using List.mem_takeWhile_imp member
    refine ⟨quote :: (text.takeWhile (· != quote) ++ [quote]), ?_, level_quoted isQuote apart⟩
    rw [same] at found
    rw [List.cons_append, List.append_assoc, List.singleton_append, ← found,
      List.takeWhile_append_dropWhile]

theorem crosses_of_readValue {value : String} (read : readValue text = .ok (value, rest))
    (plain : ∀ character ∈ value.toList, character ∉ scanSigns) (depth : Nat) :
    Crosses (depth + 1) text rest := by
  unfold readValue at read
  split at read
  · exact crosses_of_readQuoted (.inl rfl) read (depth + 1)
  · exact crosses_of_readQuoted (.inr rfl) read (depth + 1)
  · cases read
    rw [String.toList_ofList] at plain
    exact ⟨_, List.takeWhile_append_dropWhile.symm,
      level_of_plain plain fun outer => absurd outer (Nat.succ_ne_zero depth)⟩

theorem crosses_of_readFlag {ignoreCase : Bool} (read : readFlag text = (ignoreCase, rest))
    (depth : Nat) : Crosses depth text rest := by
  unfold readFlag at read
  split at read
  · cases read
    exact .cons (by decide) (.blanks depth _)
  · cases read
    exact .cons (by decide) (.blanks depth _)
  · cases read
    exact .refl depth _

theorem ReadsAttribute.crosses {condition : AttributeCondition}
    (reads : ReadsAttribute text condition rest) (plain : condition.test.Plain) (depth : Nat) :
    Crosses depth ('[' :: text) rest := by
  refine .bracketed (.inl rfl) (.inl rfl) ?_
  have start := Crosses.blanks (depth + 1) text
  cases reads with
  | @present afterName _ _ named closing =>
      have stop := Crosses.blanks (depth + 1) afterName
      rw [closing] at stop
      exact start.trans ((crosses_of_readName named _).trans stop)
  | @compare afterName afterOperator afterValue _ _ _ _ _ named compared valued flagged =>
      have operator := (Crosses.blanks _ afterName).trans (crosses_of_readComparison compared
        (depth + 1))
      have value := (Crosses.blanks _ afterOperator).trans (crosses_of_readValue valued
        (plain _ rfl) depth)
      have flag := (Crosses.blanks _ afterValue).trans (crosses_of_readFlag flagged (depth + 1))
      exact start.trans ((crosses_of_readName named _).trans
        (operator.trans (value.trans flag)))

theorem ReadsCondition.crosses {compound : Compound} {condition : Condition}
    (reads : ReadsCondition compound text condition rest)
    (plain : ∀ written, condition = .hasAttribute written → written.test.Plain)
    (depth : Nat) : Crosses depth text rest := by
  cases reads with
  | universal => exact .cons (by decide) (.refl depth rest)
  | id found => exact .cons (by decide) (crosses_of_readName found depth)
  | hasClass found => exact .cons (by decide) (crosses_of_readName found depth)
  | hasPseudoClass found =>
      exact .cons (by decide) ((readPseudoClass_eq_ok_iff.mp found).crosses depth)
  | hasAttribute found =>
      exact (readAttribute_eq_ok_iff.mp found).crosses (plain _ rfl) depth
  | @element first tail start admits =>
      have whole := Crosses.name depth (first :: tail)
      rwa [List.dropWhile_cons_of_pos (isNameCharacter_of_isNameStart start)] at whole

theorem crosses_of_readCompound {compound result : Compound}
    (read : readCompound compound text = .ok (result, rest)) (plain : result.Plain)
    (depth : Nat) : Crosses depth text rest := by
  fun_induction readCompound compound text with
  | case1 => cases read
  | case2 =>
      cases read
      exact .refl depth _
  | case3 compound text condition remaining next ih =>
      -- An attribute that is read here is still among those of the result.
      refine ((readsCondition next).crosses ?_ depth).trans (ih read)
      rintro written rfl
      refine plain written ((attributes_prefix_of_readCompound read).subset ?_)
      exact List.mem_append_right _ (List.mem_singleton_self written)

theorem level_of_blank (blank : Blank text) (depth : Nat) : Level depth text := by
  obtain ⟨piece, same, level⟩ := Crosses.blanks depth text
  rw [skipBlanks_of_blank blank, List.append_nil] at same
  rwa [same]

theorem Joint.level {combinator : Combinator} {joint : List Char}
    (joins : Joint combinator joint) (depth : Nat) : Level depth joint := by
  cases joins with
  | blanks blank => exact level_of_blank blank depth
  | @sign _ before after apart blankBefore blankAfter =>
      have plain : combinator.sign ∉ scanSigns := by cases combinator <;> decide
      have sign : Level depth [combinator.sign] :=
        level_of_plain (List.forall_mem_singleton.mpr plain)
          fun _ => by cases combinator <;> decide
      exact (level_of_blank blankBefore depth).append
        (sign.append (level_of_blank blankAfter depth))

theorem ReadsLinks.level {links : List Link} (reads : ReadsLinks text links)
    (plain : ∀ link ∈ links, link.compound.Plain) (depth : Nat) : Level depth text := by
  induction reads with
  | last read inhabited blank =>
      obtain ⟨piece, rfl, level⟩ :=
        crosses_of_readCompound read (plain _ List.mem_cons_self) depth
      exact level.append (level_of_blank blank depth)
  | link read inhabited joins later ih =>
      obtain ⟨first, others⟩ := List.forall_mem_cons.mp plain
      obtain ⟨piece, rfl, level⟩ := crosses_of_readCompound read first depth
      exact level.append ((joins.level depth).append (ih others))

theorem level_of_readSelector {selector : Selector} (read : readSelector text = .ok selector)
    (plain : ∀ link ∈ selector.links, link.compound.Plain) : Level 0 text := by
  obtain ⟨blanks, same, level⟩ := Crosses.blanks 0 text
  rw [same]
  exact level.append ((readSelector_eq_ok_iff.mp read).level plain 0)

/-- Selectors without quotes and brackets in their texts are read from a group as they are
read one by one. -/
theorem parseGroup_intercalate_of_plain {texts : List String} {selectors : List Selector}
    (inhabited : texts ≠ [])
    (reads : List.Forall₂ (fun text selector => parse text = .ok selector) texts selectors)
    (plain : ∀ selector ∈ selectors, ∀ link ∈ selector.links, link.compound.Plain) :
    parseGroup (String.intercalate "," texts) = .ok selectors := by
  have level : ∀ text ∈ texts, Level 0 text.toList := by
    clear inhabited
    induction reads with
    | nil => exact fun _ member => by cases member
    | cons read later ih =>
        obtain ⟨first, others⟩ := List.forall_mem_cons.mp plain
        exact List.forall_mem_cons.mpr ⟨level_of_readSelector read first, ih others⟩
  rw [parseGroup_intercalate, readSegments_joined_iff (mt List.map_eq_nil_iff.mp inhabited)
    (List.forall₂_map_left_iff.mpr reads), ← List.map_dropLast, List.forall_mem_map,
    List.forall_mem_map]
  exact ⟨rfl, fun text member => (level text member).sheltered,
    fun text member => (level text (List.dropLast_subset _ member)).closed⟩

end Selector

end WidgetStyle
