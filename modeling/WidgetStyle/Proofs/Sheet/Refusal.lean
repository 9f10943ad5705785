import WidgetStyle.Proofs.Sheet.Comments
import WidgetStyle.Proofs.Sheet.Loading

/-!
# Refused sheets

Where a text that is no sheet is refused, told token by token.  Between tokens gaps are skipped,
each token reaches as far as it can, and what may come next depends on the last token only.  A text
is refused at the first place where nothing that may come next begins; when it ends too early, it
is refused at its last token.  The line in the report counts the line breaks before that place, and
since comments leave theirs behind, it is the line of the source.
-/

namespace WidgetStyle.Sheet

open WidgetStyle.Text WidgetStyle.Selector

variable {whole text rest gaps token : List Char} {last unread : Nat}

/-! ## Tokens -/

/-- What is read next: a selector text, the brace behind it, an item of a block, the colon behind
a property name, or a value. -/
inductive Expected where
  | selector
  | opening
  | item
  | colon
  | value
deriving DecidableEq, Repr

variable {expected next : Expected}

/-- The tokens that fit what is read next, each with the text behind it and with what is read
after it.  Selector texts, property names and values reach as far as they can. -/
inductive Token : Expected → List Char → List Char → Expected → Prop where
  | selector {token rest : List Char} :
      Solid isSelectorCharacter token → Ends isSelectorCharacter rest →
        Token .selector token rest .opening
  | opening {rest : List Char} : Token .opening [Char.ofNat 0x7b] rest .item
  | closing {rest : List Char} : Token .item [Char.ofNat 0x7d] rest .selector
  | semicolon {rest : List Char} : Token .item [';'] rest .item
  | property {token rest : List Char} :
      IsProperty token → Ends isPropertyCharacter rest → Token .item token rest .colon
  | colon {rest : List Char} : Token .colon [':'] rest .value
  | value {token rest : List Char} :
      Solid isValueCharacter token → Ends isValueCharacter rest → Token .value token rest .item

/-- A text is read up to some place: what has been read, what is left, and what is read next. -/
inductive Reads : List Char → List Char → Expected → Prop where
  | start {text : List Char} : Reads [] text .selector
  | gap {read rest : List Char} {gap : Char} {expected : Expected} :
      Reads read (gap :: rest) expected → isGap gap = true → Reads (read ++ [gap]) rest expected
  | token {read token rest : List Char} {expected next : Expected} :
      Reads read (token ++ rest) expected → Token expected token rest next →
        Reads (read ++ token) rest next

/-- A text is refused at some place, told by what has been read and what is left.  Either no token
that fits begins there, or the last token does, and the text ends where more has to come. -/
inductive Refused : List Char → List Char → Prop where
  | unexpected {read rest : List Char} {first : Char} {expected : Expected} :
      Reads read (first :: rest) expected → isGap first = false →
        (∀ token more next, first :: rest = token ++ more → ¬ Token expected token more next) →
          Refused read (first :: rest)
  | ended {read token gaps : List Char} {expected next : Expected} :
      Reads read (token ++ gaps) expected → Token expected token gaps next → Gaps gaps →
        next ≠ .selector → Refused read (token ++ gaps)

theorem Token.exists_cons (fits : Token expected token rest next) :
    ∃ first others, token = first :: others ∧ isGap first = false := by
  cases fits with
  | selector solid ends =>
      obtain ⟨first, others, rfl, start, -, -⟩ := solid.exists_cons
      exact ⟨first, others, rfl, isGap_eq_false start⟩
  | opening => exact ⟨_, _, rfl, by decide⟩
  | closing => exact ⟨_, _, rfl, by decide⟩
  | semicolon => exact ⟨_, _, rfl, by decide⟩
  | property isProperty ends =>
      obtain ⟨first, others, rfl, solid, -, -⟩ := isProperty.exists_cons
      exact ⟨first, others, rfl, solid⟩
  | colon => exact ⟨_, _, rfl, by decide⟩
  | value solid ends =>
      obtain ⟨first, others, rfl, start, -, -⟩ := solid.exists_cons
      exact ⟨first, others, rfl, isGap_eq_false start⟩

theorem Solid.start_of_split {test : Char → Bool} {first : Char} {more : List Char}
    (solid : Solid test token) (split : first :: rest = token ++ more) :
    isBlank first = false ∧ test first = true := by
  obtain ⟨start, others, rfl, unblank, passes, -⟩ := solid.exists_cons
  cases (List.cons.inj split).1
  exact ⟨unblank, passes⟩

/-- A text is refused at a character that is no gap. -/
theorem Refused.exists_cons {read : List Char} (refused : Refused read rest) :
    ∃ first others, rest = first :: others ∧ isGap first = false := by
  cases refused with
  | unexpected reads solid none => exact ⟨_, _, rfl, solid⟩
  | ended reads fits isGaps more =>
      obtain ⟨first, others, rfl, solid⟩ := fits.exists_cons
      exact ⟨first, _, rfl, solid⟩

/-! ## Places -/

/-- Reading the whole text has come to what is left of it. -/
def ReadTo (whole text : List Char) (expected : Expected) : Prop :=
  ∃ read, whole = read ++ text ∧ Reads read text expected

/-- What is left of the whole text stands right behind a token, and from the start of the token on
there are `last` characters. -/
def Behind (whole : List Char) (last : Nat) (text : List Char) (next : Expected) : Prop :=
  ∃ token expected, ReadTo whole (token ++ text) expected ∧ Token expected token text next ∧
    last = (token ++ text).length

/-- The whole text is refused, with some characters left. -/
def RefusedAt (whole : List Char) (unread : Nat) : Prop :=
  ∃ read rest, whole = read ++ rest ∧ rest.length = unread ∧ Refused read rest

theorem isGap_of_skipGaps {first : Char} (begins : skipGaps text = first :: rest) :
    isGap first = false := by
  have fails := List.head?_dropWhile_not isGap text
  rw [← skipGaps, begins] at fails
  simpa using fails

theorem ReadTo.skip (place : ReadTo whole text expected) (begins : skipGaps text = rest) :
    ReadTo whole rest expected := by
  obtain ⟨gaps, isGaps, rfl⟩ := exists_gaps_of_skipGaps begins
  clear begins
  induction gaps with
  | nil => exact place
  | cons gap gaps ih =>
      obtain ⟨blank, others⟩ := List.forall_mem_cons.mp isGaps
      rcases place with ⟨read, rfl, reads⟩
      exact ih others ⟨read ++ [gap], by simp, reads.gap blank⟩

theorem ReadTo.behind_token (place : ReadTo whole text expected)
    (begins : skipGaps text = token ++ rest) (fits : Token expected token rest next) :
    Behind whole (token ++ rest).length rest next :=
  ⟨token, expected, place.skip begins, fits, rfl⟩

/-- A token that reaches as far as it can is read from its first character on. -/
theorem ReadTo.behind_run {test : Char → Bool} {first : Char}
    (place : ReadTo whole text expected) (begins : skipGaps text = first :: rest)
    (start : isBlank first = false) (passes : test first = true)
    (fits : ∀ token more, Solid test token → Ends test more → Token expected token more next) :
    Behind whole (rest.length + 1) (rest.dropWhile test) next := by
  have solid : Solid test (first :: rest.takeWhile test) :=
    solid_cons start passes fun _ member => List.mem_takeWhile_imp member
  have parts : first :: rest = first :: rest.takeWhile test ++ rest.dropWhile test := by
    rw [List.cons_append, List.takeWhile_append_dropWhile]
  have behind := place.behind_token (begins.trans parts) (fits _ _ solid (ends_dropWhile test rest))
  rw [← parts] at behind
  exact behind

theorem ReadTo.refused {first : Char} (place : ReadTo whole text expected)
    (begins : skipGaps text = first :: rest)
    (none : ∀ token more next, first :: rest = token ++ more → ¬ Token expected token more next) :
    RefusedAt whole (rest.length + 1) := by
  rcases place.skip begins with ⟨read, rfl, reads⟩
  exact ⟨read, first :: rest, rfl, rfl, .unexpected reads (isGap_of_skipGaps begins) none⟩

theorem Behind.readTo (behind : Behind whole last text next) : ReadTo whole text next := by
  rcases behind with ⟨token, expected, ⟨read, rfl, reads⟩, fits, -⟩
  exact ⟨read ++ token, (List.append_assoc _ _ _).symm, reads.token fits⟩

theorem Behind.refused (behind : Behind whole last text next) (nothing : skipGaps text = [])
    (more : next ≠ .selector) : RefusedAt whole last := by
  obtain ⟨gaps, isGaps, rfl⟩ := exists_gaps_of_skipGaps nothing
  rw [List.append_nil] at behind
  rcases behind with ⟨token, expected, ⟨read, rfl, reads⟩, fits, rfl⟩
  exact ⟨read, token ++ gaps, rfl, rfl, .ended reads fits isGaps more⟩

/-! ## Items -/

/-- What is read after an item of a block. -/
def Item.following : Item → Expected
  | .closing => .selector
  | .semicolon => .item
  | .declaration _ _ => .item

/-- What the reading of an item comes to: the place behind it, or a refusal. -/
def ItemOutcome (whole : List Char) : Except Nat (Item × Nat × List Char) → Prop
  | .error unread => RefusedAt whole unread
  | .ok (item, last, rest) => Behind whole last rest item.following

theorem ReadTo.behind_name {first : Char} {property afterName : List Char}
    (place : ReadTo whole text .item) (begins : skipGaps text = first :: rest)
    (named : readProperty? (first :: rest) = some (property, afterName)) :
    Behind whole (rest.length + 1) afterName .colon := by
  obtain ⟨parts, isProperty, ends⟩ := readProperty?_eq_some_iff.mp named
  have behind := place.behind_token (begins.trans parts) (.property isProperty ends)
  rw [← parts] at behind
  exact behind

theorem readItem_outcome {outcome : Except Nat (Item × Nat × List Char)}
    (behind : Behind whole last text .item) (taken : readItem last text = outcome) :
    ItemOutcome whole outcome := by
  subst taken
  have place := behind.readTo
  fun_cases readItem last text with
  | case1 nothing => exact behind.refused nothing (by decide)
  | case2 rest begins => exact place.behind_token begins .semicolon
  | case3 rest begins => exact place.behind_token begins .closing
  | case4 first rest begins semicolon closing unnamed =>
      apply place.refused begins
      intro token more next split fits
      cases fits with
      | closing => exact closing (List.cons.inj split).1
      | semicolon => exact semicolon (List.cons.inj split).1
      | property isProperty ends =>
          have named := readProperty?_eq_some_iff.mpr ⟨split, isProperty, ends⟩
          cases unnamed.symm.trans named
  | case5 first rest begins semicolon closing property afterName named nothing =>
      exact (place.behind_name begins named).refused nothing (by decide)
  | case6 first rest begins semicolon closing property afterName named afterColon colon nothing =>
      have behindColon := (place.behind_name begins named).readTo.behind_token colon .colon
      exact behindColon.refused nothing (by decide)
  | case7 first rest begins semicolon closing property afterName named afterColon colon start
      remaining value unfit =>
      have behindColon := (place.behind_name begins named).readTo.behind_token colon .colon
      apply behindColon.readTo.refused value
      intro token more next split fits
      cases fits with
      | value solid ends =>
          obtain ⟨unblank, passes⟩ := solid.start_of_split split
          rw [unblank, passes] at unfit
          cases unfit
  | case8 first rest begins semicolon closing property afterName named afterColon colon start
      remaining value fit =>
      have behindColon := (place.behind_name begins named).readTo.behind_token colon .colon
      rw [Bool.or_eq_true, not_or, Bool.not_eq_true, Bool.not_eq_true, Bool.not_eq_false'] at fit
      exact behindColon.readTo.behind_run value fit.1 fit.2 fun _ _ => .value
  | case9 first rest begins semicolon closing property afterName named more colon =>
      have behindName := place.behind_name begins named
      cases other : skipGaps afterName with
      | nil => exact absurd other more
      | cons sign others =>
          apply behindName.readTo.refused other
          intro token more next split fits
          cases fits
          cases split
          exact colon _ other

/-! ## Blocks -/

/-- What the reading of a block's inside comes to: the place behind the block, or a refusal. -/
def PairsOutcome (whole : List Char) :
    Except Nat (List (List Char × List Char) × List Char) → Prop
  | .error unread => RefusedAt whole unread
  | .ok (_, rest) => ReadTo whole rest .selector

theorem readPairs_outcome (behind : Behind whole last text .item) :
    PairsOutcome whole (readPairs last text) := by
  fun_induction readPairs last text with
  | case1 last text unread taken => exact readItem_outcome behind taken
  | case2 last text next rest taken => exact Behind.readTo (readItem_outcome behind taken)
  | case3 last text next rest taken ih => exact ih (readItem_outcome behind taken)
  | case4 last text property value next rest taken ih =>
      have later := ih (readItem_outcome behind taken)
      cases read : readPairs next rest with
      | error unread =>
          rw [read] at later
          exact later
      | ok pairs =>
          rw [read] at later
          exact later

theorem ReadTo.behind_selector {first : Char} (place : ReadTo whole text .selector)
    (begins : skipGaps text = first :: rest) (fit : ¬ (isBlank first || isBrace first) = true) :
    Behind whole (rest.length + 1) (rest.dropWhile isSelectorCharacter) .opening := by
  rw [Bool.or_eq_true, not_or, Bool.not_eq_true, Bool.not_eq_true] at fit
  have passes : isSelectorCharacter first = true := by
    rw [isSelectorCharacter, fit.2, Bool.not_false]
  exact place.behind_run begins fit.1 passes fun _ _ => .selector

theorem ReadTo.behind_opening {first : Char} {inside : List Char}
    (place : ReadTo whole text .selector) (begins : skipGaps text = first :: rest)
    (fit : ¬ (isBlank first || isBrace first) = true)
    (opens : rest.dropWhile isSelectorCharacter = Char.ofNat 0x7b :: inside) :
    Behind whole (inside.length + 1) inside .item := by
  have behind := place.behind_selector begins fit
  rw [opens] at behind
  exact behind.readTo.behind_token (skipGaps_cons (by decide) inside) .opening

/-- A text that the reader of blocks refuses is refused where the reader says. -/
theorem refusedAt_of_readBlocks (place : ReadTo whole text .selector)
    (refused : readBlocks text = .error unread) : RefusedAt whole unread := by
  fun_induction readBlocks text generalizing unread with
  | case1 => cases refused
  | case2 text first rest begins unfit =>
      cases refused
      apply place.refused begins
      intro token more next split fits
      cases fits with
      | selector solid ends =>
          obtain ⟨unblank, passes⟩ := solid.start_of_split split
          rw [isSelectorCharacter, Bool.not_eq_true'] at passes
          rw [unblank, passes] at unfit
          cases unfit
  | case3 text first rest begins fit nothing =>
      cases refused
      have behind := place.behind_selector begins fit
      rw [nothing] at behind
      exact behind.refused rfl (by decide)
  | case4 text first rest begins fit inside unreadInside inner opens =>
      cases refused
      have outcome := readPairs_outcome (place.behind_opening begins fit opens)
      rw [inner] at outcome
      exact outcome
  | case5 text first rest begins fit inside pairs after inner opens ih =>
      have outcome := readPairs_outcome (place.behind_opening begins fit opens)
      rw [inner] at outcome
      exact ih outcome (error_of_map_eq_error refused)
  | case6 text first rest begins fit brace inside opens closing =>
      cases refused
      have behind := place.behind_selector begins fit
      have fails := List.head?_dropWhile_not isSelectorCharacter rest
      rw [opens] at behind fails
      have solid : isGap brace = false := by
        simp only [List.head?_cons, isSelectorCharacter, isBrace, Bool.not_eq_false',
          Bool.or_eq_true, beq_iff_eq] at fails
        rcases fails with rfl | rfl <;> decide
      apply behind.readTo.refused (skipGaps_cons solid inside)
      intro token more next split fits
      cases fits
      exact closing (List.cons.inj split).1

/-! ## Sheets -/

/-- A malformed source is one whose text without comments is refused at some place, and the report
tells this place. -/
theorem exists_refused_of_parse {source : String} {line column : Nat}
    (refused : parse source = .error (.malformed line column)) :
    ∃ read rest, stripComments source.toList = read ++ rest ∧ Refused read rest ∧
      SheetError.malformed line column = .ofBefore read := by
  cases outcome : readBlocks (stripComments source.toList) with
  | ok blocks =>
      simp only [parse, readSource, outcome, addBlocks_empty] at refused
      cases unfit : firstUnfit? (variablePairs blocks) with
      | none =>
          rw [unfit] at refused
          cases refused
      | some pair =>
          rw [unfit] at refused
          cases refused
  | error unread =>
      have whole : ReadTo (stripComments source.toList) (stripComments source.toList) .selector :=
        ⟨[], rfl, .start⟩
      rcases refusedAt_of_readBlocks whole outcome with ⟨read, rest, split, rfl, place⟩
      have before : (stripComments source.toList).take
          ((stripComments source.toList).length - rest.length) = read := by
        rw [split, List.length_append, Nat.add_sub_cancel]
        exact List.take_left
      simp only [parse, readSource, outcome, before] at refused
      exact ⟨read, rest, split, place, (Except.error.inj refused).symm⟩

/-- Comments are stripped by leaving, in order, the characters outside of them and their line
breaks, so that every character that is left has as many line breaks before it as in the source.
The line that is reported for a malformed source is the line of the source on which the refused
token begins, outside of the comments.  A variable whose name is not fit for one is refused once
the whole source is read, and that is reported without a line. -/
theorem parse_reports_source_line (source : String) :
    ∃ pieces, (∀ others, Scanned others source.toList ↔ others = pieces) ∧
      sourceOf (marksOf pieces) = source.toList ∧
      stripComments source.toList = keptOf (marksOf pieces) ∧
      (∀ before character behind, marksOf pieces = before ++ (character, true) :: behind →
        (keptOf before).count '\n' = (sourceOf before).count '\n') ∧
      ∀ line column, parse source = .error (.malformed line column) →
        ∃ earlier character later, pieces = earlier ++ .plain character :: later ∧
          Refused (keptOf (marksOf earlier)) (character :: keptOf (marksOf later)) ∧
          SheetError.malformed line column = .ofBefore (keptOf (marksOf earlier)) ∧
          line = (sourceOf (marksOf earlier)).count '\n' + 1 := by
  rcases exists_scanned source.toList with ⟨pieces, scanned, left⟩
  refine ⟨pieces, ?_, scanned.sourceOf_eq, left, ?_, ?_⟩
  · intro others
    constructor
    · exact fun again => again.unique scanned
    · rintro rfl
      exact scanned
  · intro before character behind split
    exact count_newline_before (split ▸ List.prefix_append _ _)
  · intro line column malformed
    rcases exists_refused_of_parse malformed with ⟨read, rest, split, refused, reported⟩
    obtain ⟨character, rest, rfl, solid⟩ := refused.exists_cons
    rcases exists_mark_of_keptOf (left.symm.trans split) with ⟨before, behind, marks, rfl, rfl⟩
    have unbroken : character ≠ '\n' := by
      rintro rfl
      cases solid
    rcases exists_plain_of_marks marks unbroken with ⟨earlier, later, rfl, rfl, rfl⟩
    refine ⟨earlier, character, later, rfl, refused, reported, ?_⟩
    have start : marksOf earlier <+: marksOf (earlier ++ .plain character :: later) :=
      marks ▸ List.prefix_append _ _
    rw [← count_newline_before start]
    exact (SheetError.malformed.inj reported).1

/-- A rule behind a comment of two lines, with a comment of two lines where a colon is missing. -/
def brokenSource : String :=
  "/* a\n */A\x7b\n gap/*\n*/ 1;\x7d"

theorem parse_brokenSource :
    parse brokenSource = .error (.malformed 4 2) ∧
      ∃ earlier character later,
        Scanned (earlier ++ .plain character :: later) brokenSource.toList ∧
          Refused (keptOf (marksOf earlier)) (character :: keptOf (marksOf later)) ∧
          (sourceOf (marksOf earlier)).count '\n' + 1 = 4 := by
  have malformed : parse brokenSource = .error (.malformed 4 2) := by decide +kernel
  rcases parse_reports_source_line brokenSource with ⟨pieces, scanned, -, -, -, lines⟩
  rcases lines 4 2 malformed with ⟨earlier, character, later, rfl, refused, -, line⟩
  exact ⟨malformed, earlier, character, later, (scanned _).mpr rfl, refused, line.symm⟩

end WidgetStyle.Sheet
