import WidgetStyle.Proofs.Selector.Leading
import WidgetStyle.Proofs.Selector.LongPlace

/-!
# Refused texts

A text that holds no selector is refused with a fault and its place.  What a fault says is
told here by the text that is left where it is found, and every reader that stops on one does
so at an end of its own text where this is true.  So the place of an error lies in the text
that was given, also in a group, where it lies in the piece that is no selector.  Whatever text
is given, it is refused in this way, or what is read is legible, or reading comes to a place
with too many digits, which fails without a fault.
-/

namespace WidgetStyle

open WidgetStyle.Text WidgetStyle.Selector

/-! ## What faults say -/

/-- What the fault says is true of the text that is left where it is found. -/
def SelectorFault.FoundAt (rest : List Char) : SelectorFault → Prop
  | emptySelector | unterminatedAttribute => rest = []
  | expectedSelector => readCondition {} rest = .ok none
  | unexpectedCharacter character => rest.head? = some character
  | expectedId | expectedClassName | expectedPseudoClassName | expectedAttributeName =>
      Ends isNameCharacter rest
  | unknownPseudoClass name =>
      name.toList = rest.takeWhile isNameCharacter ∧ PseudoName.ofText? (lowerString name) = none
  | expectedPlaceOpening | expectedNegationOpening => rest.head? ≠ some '('
  | invalidPlace => Ends Char.isDigit rest
  | placeTooSmall =>
      rest.takeWhile Char.isDigit ≠ [] ∧ Nat.ofDigitChars 10 (rest.takeWhile Char.isDigit) 0 = 0
  | expectedPlaceClosing | expectedNegationClosing => rest.head? ≠ some ')'
  | expectedNegatedPseudoClass => rest.head? ≠ some ':'
  | expectedEqualsSign _ => rest.head? ≠ some '='
  | expectedAttributeOperator =>
      ∃ character ∈ rest.head?, character ≠ '=' ∧ comparisonOf? character = none
  | unterminatedString => ∃ quote unclosed, rest = quote :: unclosed ∧ quote ∉ unclosed
  | expectedAttributeClosing => rest.head? ≠ some ']'

/-- The place of the error lies in the text, and what stands there is as the fault says. -/
def SelectorError.PlacedIn (error : SelectorError) (text : List Char) : Prop :=
  ∃ before rest, text = before ++ rest ∧ error.position = before.length ∧
    error.fault.FoundAt rest

/-- The error lies in a piece of the group that is refused for it, and its place is told in
the text of the whole group. -/
def SelectorError.PlacedInPiece (error : SelectorError) (text : List Char) : Prop :=
  ∃ before piece after inner, text = before ++ piece ++ after ∧ piece ∈ segments {} text ∧
    readSelector piece = .error (.refused inner) ∧ inner.PlacedIn piece ∧
      error = ⟨inner.fault, before.length + inner.position⟩

namespace Selector

variable {text rest : List Char} {compound : Compound} {stopped : Stop} {Value : Type}

/-- The chain has a compound, and each compound but the last has a combinator; the compounds
have parts, and the parts are complete. -/
def Legible (selector : Selector) : Prop :=
  ChainOf Compound.Legible selector.links

/-- The reader stopped at an end of the text, where its fault is found, or on a place in the
text that has too many digits. -/
def Stop.Within : Stop → List Char → Prop
  | .fault cause unread, text => ∃ rest, rest <:+ text ∧ unread = rest.length ∧ cause.FoundAt rest
  | .excess (.read digits), text => HoldsLongPlace text digits
  | .excess .written, _ => False

theorem Stop.Within.of_suffix (within : stopped.Within rest) (ending : rest <:+ text) :
    stopped.Within text := by
  match stopped with
  | .fault cause unread =>
      rcases within with ⟨left, inside, unread, found⟩
      exact ⟨left, inside.trans ending, unread, found⟩
  | .excess (.read digits) =>
      rcases within with ⟨opened, left, inside, place⟩
      exact ⟨opened, left, inside.trans ending, place⟩

theorem within_of_stop {fault : SelectorFault}
    (stops : (stop fault text : Except Stop Value) = .error stopped)
    (found : fault.FoundAt text) : stopped.Within text := by
  cases stops
  exact ⟨text, List.suffix_refl text, rfl, found⟩

theorem head?_ne_of_not_cons {character : Char} (other : ∀ tail, text ≠ character :: tail) :
    text.head? ≠ some character := by
  intro head
  exact other _ (List.eq_cons_of_mem_head? head)

theorem ends_of_takeWhile {test : Char → Bool} (nothing : text.takeWhile test = []) :
    Ends test text := by
  have whole := List.takeWhile_append_dropWhile (p := test) (l := text)
  rw [nothing, List.nil_append] at whole
  exact whole ▸ ends_dropWhile test text

theorem within_of_readName {missing : SelectorFault}
    (stops : readName missing text = .error stopped)
    (announced : ∀ rest, Ends isNameCharacter rest → missing.FoundAt rest) :
    stopped.Within text := by
  rw [readName] at stops
  split at stops
  · rename_i nothing
    have ends := ends_of_takeWhile (List.isEmpty_iff.mp nothing)
    exact within_of_stop stops (announced text ends)
  · cases stops

/-! ## Pseudo-classes -/

theorem within_of_readPlace (stops : readPlace text = .error stopped) : stopped.Within text := by
  unfold readPlace at stops
  split at stops
  · rename_i opened
    have start : skipBlanks opened <:+ '(' :: opened :=
      (skipBlanks_suffix opened).trans (List.suffix_cons '(' opened)
    simp only at stops
    split at stops
    · rename_i nothing
      have ends := ends_of_takeWhile (List.isEmpty_iff.mp nothing)
      exact (within_of_stop stops ends).of_suffix start
    · rename_i digits
      split at stops
      · rename_i closing
        split at stops
        · rename_i excess checked
          obtain ⟨many, rfl⟩ := checkDigits_eq_error_iff.mp checked
          cases stops
          exact ⟨opened, _, List.suffix_refl _, rfl, many, closing⟩
        · rename_i checked
          obtain ⟨-, rfl⟩ := checkDigits_eq_ok_iff.mp checked
          split at stops
          · rename_i zero
            have found : SelectorFault.placeTooSmall.FoundAt (skipBlanks opened) :=
              ⟨by simpa using digits, zero⟩
            exact (within_of_stop stops found).of_suffix start
          · cases stops
      · rename_i other
        have behind : skipBlanks ((skipBlanks opened).dropWhile Char.isDigit) <:+ '(' :: opened :=
          ((skipBlanks_suffix _).trans (List.dropWhile_suffix Char.isDigit)).trans start
        exact (within_of_stop stops (head?_ne_of_not_cons other)).of_suffix behind
  · rename_i other
    exact within_of_stop stops (head?_ne_of_not_cons other)

theorem within_of_openNegation (stops : openNegation text = .error stopped) :
    stopped.Within text := by
  unfold openNegation at stops
  split at stops
  · rename_i opened
    split at stops
    · cases stops
    · rename_i other
      have start := (skipBlanks_suffix opened).trans (List.suffix_cons '(' opened)
      exact (within_of_stop stops (head?_ne_of_not_cons other)).of_suffix start
  · rename_i other
    exact within_of_stop stops (head?_ne_of_not_cons other)

theorem within_of_closeNegation {negated : PseudoClass}
    (stops : closeNegation negated text = .error stopped) : stopped.Within text := by
  unfold closeNegation at stops
  split at stops
  · cases stops
  · rename_i other
    have found := within_of_stop stops (head?_ne_of_not_cons other)
    exact found.of_suffix (skipBlanks_suffix text)

theorem suffix_of_openNegation {inner : List Char} (opens : openNegation text = .ok inner) :
    inner <:+ text := by
  rcases openNegation_eq_ok_iff.mp opens with ⟨opened, rfl, colon⟩
  exact (suffix_of_skipBlanks colon).trans (List.suffix_cons '(' opened)

theorem within_of_readPseudoClass (stops : readPseudoClass text = .error stopped) :
    stopped.Within text := by
  fun_induction readPseudoClass text with
  | case1 text fault refused =>
      cases stops
      exact within_of_readName refused fun _ ends => ends
  | case2 text name argument named unknown =>
      have letters := (readName_eq_ok_iff.mp named).1
      exact within_of_stop stops ⟨letters, unknown⟩
  | case3 => cases stops
  | case4 text name argument named known | case5 text name argument named known =>
      have place := within_of_readPlace (error_of_map_eq_error stops)
      exact place.of_suffix ((local_readName _).suffix named)
  | case6 text name argument named known fault refused =>
      cases stops
      exact (within_of_openNegation refused).of_suffix ((local_readName _).suffix named)
  | case7 text name argument named known inner opens fault refused ih =>
      cases stops
      have inside := (suffix_of_openNegation opens).trans ((local_readName _).suffix named)
      exact (ih refused).of_suffix inside
  | case8 text name argument named known inner opens negated closing found ih =>
      have inside := (suffix_of_openNegation opens).trans ((local_readName _).suffix named)
      have closes := (local_readPseudoClass.suffix found).trans inside
      exact (within_of_closeNegation stops).of_suffix closes

/-! ## Attributes -/

theorem within_of_readComparison (stops : readComparison text = .error stopped) :
    stopped.Within text := by
  unfold readComparison at stops
  split at stops
  · exact within_of_stop stops rfl
  · cases stops
  · rename_i character tail plain
    split at stops
    · rename_i unknown
      have found : SelectorFault.expectedAttributeOperator.FoundAt (character :: tail) :=
        ⟨character, rfl, by simpa using plain, unknown⟩
      exact within_of_stop stops found
    · split at stops
      · cases stops
      · rename_i other
        have found : (SelectorFault.expectedEqualsSign character).FoundAt tail :=
          head?_ne_of_not_cons other
        exact (within_of_stop stops found).of_suffix (List.suffix_cons character tail)

theorem within_of_readQuoted {quote : Char} (stops : readQuoted quote text = .error stopped) :
    stopped.Within (quote :: text) := by
  unfold readQuoted at stops
  split at stops
  · rename_i nothing
    have unclosed : quote ∉ text := by
      intro member
      simpa using List.dropWhile_eq_nil_iff.mp nothing quote member
    exact within_of_stop stops ⟨quote, text, rfl, unclosed⟩
  · cases stops

theorem within_of_readValue (stops : readValue text = .error stopped) : stopped.Within text := by
  unfold readValue at stops
  split at stops
  · exact within_of_readQuoted stops
  · exact within_of_readQuoted stops
  · cases stops

theorem suffix_of_readFlag_skipBlanks (text : List Char) :
    (readFlag (skipBlanks text)).2 <:+ text := by
  refine List.IsSuffix.trans ?_ (skipBlanks_suffix text)
  unfold readFlag
  split
  · rename_i tail begins
    exact begins ▸ (skipBlanks_suffix tail).trans (List.suffix_cons _ tail)
  · rename_i tail begins
    exact begins ▸ (skipBlanks_suffix tail).trans (List.suffix_cons _ tail)
  · exact List.suffix_refl _

theorem within_of_readAttribute (stops : readAttribute text = .error stopped) :
    stopped.Within text := by
  rcases cases_of_bind_eq_error stops with refused | ⟨⟨name, afterName⟩, named, body⟩
  · exact (within_of_readName refused fun _ ends => ends).of_suffix (skipBlanks_suffix text)
  · have behindName : afterName <:+ text := (local_readName _).skipping.suffix named
    simp only at body
    split at body
    · cases body
    · rcases cases_of_bind_eq_error body with
        refused | ⟨⟨comparison, afterOperator⟩, compared, later⟩
      · have operator := (skipBlanks_suffix afterName).trans behindName
        exact (within_of_readComparison refused).of_suffix operator
      · have behindOperator : afterOperator <:+ text :=
          (local_readComparison.skipping.suffix compared).trans behindName
        rcases cases_of_bind_eq_error later with
          refused | ⟨⟨value, afterValue⟩, valued, closing⟩
        · have start := (skipBlanks_suffix afterOperator).trans behindOperator
          exact (within_of_readValue refused).of_suffix start
        · have behindValue : afterValue <:+ text :=
            (local_readValue.skipping.suffix valued).trans behindOperator
          simp only at closing
          split at closing
          · cases closing
          · rename_i other
            have flagged := (suffix_of_readFlag_skipBlanks afterValue).trans behindValue
            exact (within_of_stop closing (head?_ne_of_not_cons other)).of_suffix flagged

/-! ## Compounds and chains -/

theorem within_of_readCondition (stops : readCondition compound text = .error stopped) :
    stopped.Within text := by
  cases text with
  | nil => cases stops
  | cons character tail =>
      have behindSign := List.suffix_cons character tail
      simp only [readCondition] at stops
      split at stops
      · cases stops
      · split at stops
        · have refused := error_of_map_eq_error stops
          exact (within_of_readName refused fun _ ends => ends).of_suffix behindSign
        · split at stops
          · have refused := error_of_map_eq_error stops
            exact (within_of_readName refused fun _ ends => ends).of_suffix behindSign
          · split at stops
            · have refused := error_of_map_eq_error stops
              exact (within_of_readPseudoClass refused).of_suffix behindSign
            · split at stops
              · have refused := error_of_map_eq_error stops
                exact (within_of_readAttribute refused).of_suffix behindSign
              · split at stops
                · cases stops
                · cases stops

theorem within_of_readCompound (stops : readCompound compound text = .error stopped) :
    stopped.Within text := by
  fun_induction readCompound compound text with
  | case1 compound text fault refused =>
      cases stops
      exact within_of_readCondition refused
  | case2 => cases stops
  | case3 compound text condition remaining next ih =>
      exact (ih stops).of_suffix (readsCondition next).suffix

/-- Reading on from conditions never comes to an empty compound. -/
theorem isEmpty_of_readCompound {result : Compound} (inhabited : compound.isEmpty = false)
    (read : readCompound compound text = .ok (result, rest)) : result.isEmpty = false := by
  fun_induction readCompound compound text with
  | case1 => cases read
  | case2 =>
      cases read
      exact inhabited
  | case3 compound text condition remaining next ih =>
      exact ih (isEmpty_addTo condition compound) read

/-- Where an empty compound is read, no condition starts. -/
theorem readCondition_eq_none_of_isEmpty {result : Compound}
    (read : readCompound {} text = .ok (result, rest)) (empty : result.isEmpty = true) :
    readCondition {} text = .ok none := by
  rw [readCompound_eq] at read
  split at read
  · cases read
  · assumption
  · rename_i condition remaining next
    rw [isEmpty_of_readCompound (isEmpty_addTo condition {}) read] at empty
    cases empty

theorem within_of_stopAtMissing {afterCombinator : Bool}
    (nothing : readCondition {} text = .ok none)
    (stops : (stopAtMissing afterCombinator text : Except Stop Value) = .error stopped) :
    stopped.Within text := by
  cases text with
  | nil => exact within_of_stop stops nothing
  | cons character tail =>
      cases afterCombinator with
      | true => exact within_of_stop stops nothing
      | false => exact within_of_stop stops rfl

theorem within_of_readLinks {afterCombinator : Bool}
    (stops : readLinks afterCombinator text = .error stopped) : stopped.Within text := by
  fun_induction readLinks afterCombinator text with
  | case1 afterCombinator text fault refused =>
      cases stops
      exact within_of_readCompound refused
  | case2 afterCombinator text compound rest read empty =>
      exact within_of_stopAtMissing (readCondition_eq_none_of_isEmpty read empty) stops
  | case3 => cases stops
  | case4 =>
      -- A sign at the very end lacks its compound.
      exact (within_of_stop stops rfl).of_suffix (List.nil_suffix)
  | case5 afterCombinator text compound rest read inhabited character remaining next combinator
      sign following apart ih =>
      have behind := (suffix_of_skipBlanks next).trans (suffix_of_readCompound read)
      have start := (skipBlanks_suffix remaining).trans behind
      exact (ih (error_of_map_eq_error stops)).of_suffix start
  | case6 afterCombinator text compound rest read inhabited character remaining next bare
      shorter ih =>
      have start := (cons_suffix_of_skipBlanks next).trans (suffix_of_readCompound read)
      exact (ih (error_of_map_eq_error stops)).of_suffix start
  | case7 afterCombinator text compound rest read inhabited character remaining next =>
      have start := (cons_suffix_of_skipBlanks next).trans (suffix_of_readCompound read)
      exact (within_of_stop stops rfl).of_suffix start

/-! ## Selectors and groups -/

theorem Stop.Within.placedIn {fault : SelectorFault} {unread : Nat}
    (within : (Stop.fault fault unread).Within text) :
    SelectorError.PlacedIn ⟨fault, text.length - unread⟩ text := by
  rcases within with ⟨rest, ⟨before, rfl⟩, unread, found⟩
  exact ⟨before, rest, rfl, by simp [unread], found⟩

/-- What stops the reading of the whole text is found in it. -/
theorem within_of_readSelector
    (stops : (if (skipBlanks text).isEmpty then stop .emptySelector []
      else readLinks false (skipBlanks text)) = .error stopped) : stopped.Within text := by
  split at stops
  · exact (within_of_stop stops rfl).of_suffix List.nil_suffix
  · exact (within_of_readLinks stops).of_suffix (skipBlanks_suffix text)

theorem placedIn_of_readSelector {error : SelectorError}
    (refused : readSelector text = .error (.refused error)) : error.PlacedIn text := by
  simp only [readSelector] at refused
  split at refused
  · cases refused
  · rename_i fault unread stops
    cases refused
    exact (within_of_readSelector stops).placedIn
  · cases refused

/-- The only number that stops the reading of a selector is a place that it holds. -/
theorem longPlace_of_readSelector {excess : TooManyDigits}
    (fails : readSelector text = .error (.excess excess)) :
    ∃ digits, excess = .read digits ∧ HoldsLongPlace text digits := by
  simp only [readSelector] at fails
  split at fails
  · cases fails
  · cases fails
  · rename_i excess stops
    cases fails
    have within := within_of_readSelector stops
    cases excess with
    | read digits => exact ⟨digits, rfl, within⟩
    | written => exact within.elim

theorem legible_of_readSelector {selector : Selector} (read : readSelector text = .ok selector) :
    selector.Legible :=
  (readSelector_eq_ok_iff.mp read).legible

theorem legible_of_mem_readSegments {offset : Nat} {pieces : List (List Char)}
    {group : List Selector} (read : readSegments offset pieces = .ok group) :
    ∀ selector ∈ group, selector.Legible := by
  induction pieces generalizing offset group with
  | nil =>
      cases read
      simp
  | cons piece others ih =>
      simp only [readSegments] at read
      split at read
      · exact ih read
      · split at read
        · cases read
        · rename_i selector found
          rcases exists_of_map_eq_ok read with ⟨later, further, rfl⟩
          exact List.forall_mem_cons.mpr ⟨legible_of_readSelector found, ih further⟩

/-- The pieces of a text with the commas between them are the text. -/
theorem intercalate_segments (nesting : Nesting) (text : List Char) :
    [','].intercalate (segments nesting text) = text := by
  induction text generalizing nesting with
  | nil => rfl
  | cons character tail ih =>
      cases inner : character == ',' && nesting.isOutermost with
      | true =>
          rw [Bool.and_eq_true, beq_iff_eq] at inner
          rcases inner with ⟨rfl, outermost⟩
          rcases exists_segments nesting tail with ⟨first, others, cut⟩
          have joined := ih nesting
          rw [segments_separator outermost, cut, List.intercalate_cons_cons]
          rw [cut] at joined
          simp [joined]
      | false =>
          rcases exists_segments (nesting.after character) tail with ⟨first, others, cut⟩
          have joined := ih (nesting.after character)
          rw [segments_cons inner cut]
          rw [cut] at joined
          cases others with
          | nil => simpa using joined
          | cons second others =>
              rw [List.intercalate_cons_cons] at joined ⊢
              simp [← joined]

theorem prefix_intercalate (first : List Char) (others : List (List Char)) :
    first <+: [','].intercalate (first :: others) := by
  cases others with
  | nil => simp
  | cons second others => simp [List.intercalate_cons_cons]

/-- A group fails for one of its pieces, and the offset leads to this piece. -/
theorem exists_piece_of_readSegments {offset : Nat} {pieces : List (List Char)}
    {failure : SelectorFailure} (fails : readSegments offset pieces = .error failure) :
    ∃ before piece after inner, [','].intercalate pieces = before ++ piece ++ after ∧
      piece ∈ pieces ∧ readSelector piece = .error inner ∧
        failure = inner.behind (offset + before.length) := by
  induction pieces generalizing offset with
  | nil => cases fails
  | cons first others ih =>
      -- A piece among the others lies behind the first one and the comma.
      have later (fails : readSegments (offset + first.length + 1) others = .error failure) :
          ∃ before piece after inner,
            [','].intercalate (first :: others) = before ++ piece ++ after ∧
              piece ∈ first :: others ∧ readSelector piece = .error inner ∧
                failure = inner.behind (offset + before.length) := by
        rcases ih fails with ⟨before, piece, after, inner, joined, member, wrong, same⟩
        cases others with
        | nil => cases member
        | cons second others =>
            refine ⟨first ++ ',' :: before, piece, after, inner, ?_,
              List.mem_cons_of_mem first member, wrong, ?_⟩
            · rw [List.intercalate_cons_cons, joined]
              simp
            · have further : offset + first.length + 1 + before.length =
                  offset + (first ++ ',' :: before).length := by
                rw [List.length_append, List.length_cons]
                omega
              rw [same, further]
      simp only [readSegments] at fails
      split at fails
      · exact later fails
      · split at fails
        · rename_i inner wrong
          cases fails
          rcases prefix_intercalate first others with ⟨after, joined⟩
          exact ⟨[], first, after, inner, joined.symm, List.mem_cons_self, wrong, rfl⟩
        · exact later (error_of_map_eq_error fails)

theorem placedInPiece_of_parseGroup {text : String} {error : SelectorError}
    (refused : parseGroup text = .error (.refused error)) :
    error.PlacedInPiece text.toList := by
  rcases exists_piece_of_readSegments refused with
    ⟨before, piece, after, inner, joined, member, wrong, same⟩
  rw [intercalate_segments] at joined
  match inner with
  | .refused inner =>
      rw [Nat.zero_add, SelectorFailure.behind, Nat.add_comm] at same
      exact ⟨before, piece, after, inner, joined, member, wrong, placedIn_of_readSelector wrong,
        SelectorFailure.refused.inj same⟩

theorem longPlace_of_parseGroup {text : String} {excess : TooManyDigits}
    (fails : parseGroup text = .error (.excess excess)) :
    ∃ digits, excess = .read digits ∧
      ∃ piece ∈ segments {} text.toList, HoldsLongPlace piece digits := by
  rcases exists_piece_of_readSegments fails with
    ⟨before, piece, after, inner, -, member, wrong, same⟩
  match inner with
  | .excess inner =>
      cases same
      rcases longPlace_of_readSelector wrong with ⟨digits, rfl, holds⟩
      exact ⟨digits, rfl, piece, member, holds⟩

end Selector

theorem SelectorError.PlacedIn.position_le {error : SelectorError} {text : List Char}
    (placed : error.PlacedIn text) : error.position ≤ text.length := by
  rcases placed with ⟨before, rest, rfl, position, found⟩
  simp [position]

theorem SelectorError.PlacedInPiece.position_le {error : SelectorError} {text : List Char}
    (placed : error.PlacedInPiece text) : error.position ≤ text.length := by
  rcases placed with ⟨before, piece, after, inner, rfl, member, wrong, inside, rfl⟩
  have bound := inside.position_le
  simp
  omega

namespace Selector

/-- Every text is read or refused, alone and as a group, unless reading comes to a place with
too many digits.  What is read is legible, and the place of a refusal lies in the text, where
what stands is as the fault says. -/
theorem legible_or_refused_or_excess (text : String) :
    ((∃ selector, parse text = .ok selector ∧ selector.Legible) ∨
      (∃ error, parse text = .error (.refused error) ∧ error.position ≤ text.length ∧
        error.PlacedIn text.toList) ∨
      ∃ digits, parse text = .error (.excess (.read digits)) ∧
        HoldsLongPlace text.toList digits) ∧
    ((∃ group, parseGroup text = .ok group ∧ ∀ selector ∈ group, selector.Legible) ∨
      (∃ error, parseGroup text = .error (.refused error) ∧ error.position ≤ text.length ∧
        error.PlacedInPiece text.toList) ∨
      ∃ digits, parseGroup text = .error (.excess (.read digits)) ∧
        ∃ piece ∈ segments {} text.toList, HoldsLongPlace piece digits) := by
  constructor
  · match read : parse text with
    | .ok selector => exact .inl ⟨selector, rfl, legible_of_readSelector read⟩
    | .error (.refused error) =>
        have placed := placedIn_of_readSelector read
        exact .inr (.inl ⟨error, rfl, String.length_toList ▸ placed.position_le, placed⟩)
    | .error (.excess excess) =>
        rcases longPlace_of_readSelector read with ⟨digits, rfl, holds⟩
        exact .inr (.inr ⟨digits, rfl, holds⟩)
  · match read : parseGroup text with
    | .ok group => exact .inl ⟨group, rfl, legible_of_mem_readSegments read⟩
    | .error (.refused error) =>
        have placed := placedInPiece_of_parseGroup read
        exact .inr (.inl ⟨error, rfl, String.length_toList ▸ placed.position_le, placed⟩)
    | .error (.excess excess) =>
        rcases longPlace_of_parseGroup read with ⟨digits, rfl, holds⟩
        exact .inr (.inr ⟨digits, rfl, holds⟩)

/-- In a group the place counts from the start of the whole text. -/
example : parseGroup "A, .b, :big" = .error (.refused ⟨.unknownPseudoClass "big", 8⟩) := by
  decide +kernel

/-- A number with one digit too many between the parentheses. -/
theorem ones_excess :
    parse (String.ofList (placeText (List.replicate (maxDigits + 1) '1'))) =
        .error (.excess (.read (maxDigits + 1))) ∧
      parseGroup (String.ofList (placeText (List.replicate (maxDigits + 1) '1'))) =
        .error (.excess (.read (maxDigits + 1))) :=
  ⟨parse_ones, parseGroup_ones⟩

end Selector

end WidgetStyle
