import WidgetStyle.Proofs.Cascade.Application
import WidgetStyle.Proofs.Number.Range
import WidgetStyle.Proofs.Text.Blanks
import WidgetStyle.Sheet.Reader
import WidgetStyle.Tree.Mutation

/-!
# Oversized declarations

Styling fails on a declaration for two reasons: it gives a size as a count of cells that no
binary number can hold, or it gives a count with more digits than can be turned into a number.
A value that cannot be read is passed over, whatever it is, and so are a property that is not
known and a reference to nothing.  A declaration that is too large or too long fails wherever it
is used, and with it every node that a selector of its rule selects.  Apart from declarations,
only a sheet whose selectors cannot be read fails a node.
-/

namespace WidgetStyle

open WidgetStyle.Text WidgetStyle.Number

/-! ## Reading a size -/

namespace Text

/-- A text that has the ending is what comes before it, followed by the ending. -/
theorem dropEnding?_eq_some_iff {ending text rest : List Char} :
    dropEnding? ending text = some rest ↔ text = rest ++ ending := by
  rw [dropEnding?]
  split
  · rename_i ends
    obtain ⟨before, rfl⟩ := List.isSuffixOf_iff_suffix.mp ends
    simp [eq_comm]
  · rename_i ends
    simp only [reduceCtorEq, false_iff]
    rintro rfl
    exact ends (List.isSuffixOf_iff_suffix.mpr (List.suffix_append rest ending))

end Text

/-- The text is a count of cells with more digits than can be turned into a number. -/
def LongCount (text : List Char) : Prop :=
  (dropEnding ['p', 'x'] text).all isDigit = true ∧
    maxDigits < (dropEnding ['p', 'x'] text).length

theorem wholeNumber?_fails_iff {text : List Char} :
    (∃ excess, wholeNumber? text = .error excess) ↔
      text.all isDigit = true ∧ maxDigits < text.length := by
  rw [wholeNumber?, checkDigits]
  split
  · rename_i other
    rw [Bool.or_eq_true, Bool.not_eq_true', List.isEmpty_iff] at other
    refine iff_of_false ?_ ?_
    · intro fails
      cases fails.choose_spec
    · rintro ⟨digits, many⟩
      rcases other with rfl | some
      · cases many
      · rw [digits] at some
        cases some
  · rename_i digits
    rw [Bool.or_eq_true, Bool.not_eq_true', not_or, Bool.not_eq_false] at digits
    rw [and_iff_right digits.2]
    split
    · rename_i few
      refine iff_of_false ?_ (Nat.not_lt.mpr few)
      intro fails
      cases fails.choose_spec
    · rename_i many
      exact iff_of_true ⟨_, rfl⟩ (Nat.lt_of_not_le many)

theorem parseCells?_fails_iff {text : List Char} :
    (∃ error, parseCells? text = .error error) ↔ LongCount text := by
  rw [LongCount, ← wholeNumber?_fails_iff, parseCells?]
  cases wholeNumber? (dropEnding ['p', 'x'] text) <;> simp [Except.mapError]

/-- Only a text that ends in a digit or in the unit is a count of cells, or too long for one. -/
theorem getLast?_of_parseCells? {text : List Char} (counted : parseCells? text ≠ .ok none) :
    ∃ last, text.getLast? = some last ∧ (last = 'x' ∨ isDigit last = true) := by
  cases ends : dropEnding? ['p', 'x'] text with
  | some before =>
      rw [dropEnding?_eq_some_iff] at ends
      exact ⟨'x', by simp [ends], .inl rfl⟩
  | none =>
      rw [parseCells?, dropEnding, ends, Option.getD_none, wholeNumber?] at counted
      split at counted
      · exact absurd rfl counted
      · rename_i digits
        simp only [Bool.or_eq_true, List.isEmpty_iff, Bool.not_eq_true', not_or,
          Bool.not_eq_false, List.all_eq_true] at digits
        exact ⟨text.getLast digits.1, List.getLast?_eq_some_getLast digits.1,
          .inr (digits.2 _ (List.getLast_mem digits.1))⟩

theorem Size.ofCells_fails_iff {cells : Nat} :
    (∃ error, (Size.ofCells cells).map some = .error error) ↔ Binary64.leastExcess ≤ cells := by
  rw [← Binary64.ofNat?_eq_none_iff, Size.ofCells]
  cases Binary64.ofNat? cells <;> simp [Except.map]

/-- The text is a count of cells that no binary number can hold. -/
def VastCount (text : List Char) : Prop :=
  ∃ cells, parseCells? text = .ok (some cells) ∧ Binary64.leastExcess ≤ cells

/-- The word for a size that is left to the layout and a share end in other characters
than a count of cells, so neither of them hides a count. -/
theorem Size.parse?_fails_iff {text : List Char} :
    (∃ error, Size.parse? text = .error error) ↔
      VastCount (lower (trim text)) ∨ LongCount (lower (trim text)) := by
  rw [Size.parse?, VastCount, ← parseCells?_fails_iff]
  generalize lower (trim text) = word
  have noCount {last : Char} (ends : word.getLast? = some last)
      (other : ¬(last = 'x' ∨ isDigit last = true)) : parseCells? word = .ok none := by
    by_contra counted
    obtain ⟨last, same, digit⟩ := getLast?_of_parseCells? counted
    rw [ends, Option.some.injEq] at same
    exact other (same ▸ digit)
  split
  · rename_i automatic
    have none := @noCount 'o' (by rw [automatic]; rfl) (by decide)
    simp [none]
  · split
    · rename_i number share
      rw [dropEnding?_eq_some_iff] at share
      have none := @noCount '%' (by simp [share]) (by decide)
      simp [none]
    · match parseCells? word with
      | .error error => simp
      | .ok none => simp
      | .ok (some cells) => simp [Size.ofCells_fails_iff]

/-- The spacing of a box fails on the first of its words that is no count, if this one is too
long for a count. -/
theorem Spacing.parse?_fails_iff {text : List Char} :
    (∃ error, Spacing.parse? text = .error error) ↔
      ∃ before word after, words text = before ++ word :: after ∧ LongCount word ∧
        ∀ earlier ∈ before, ∃ cells, parseCells? earlier = .ok (some cells) := by
  have same : (∃ error, Spacing.parse? text = .error error) ↔
      ∃ error, Spacing.readCounts (words text) = .error error := by
    rw [Spacing.parse?]
    cases Spacing.readCounts (words text) <;> simp [Except.map]
  rw [same]
  induction words text with
  | nil => simp [Spacing.readCounts]
  | cons word rest ih =>
      have here := @parseCells?_fails_iff word
      rw [Spacing.readCounts]
      match read : parseCells? word with
      | .error error =>
          refine iff_of_true ⟨error, rfl⟩ ⟨[], word, rest, rfl, here.mp ⟨error, read⟩, ?_⟩
          exact List.forall_mem_nil _
      | .ok found =>
          have short : ¬LongCount word := fun long => by
            obtain ⟨error, fails⟩ := here.mpr long
            cases read.symm.trans fails
          cases found with
          | none =>
              refine iff_of_false (fun ⟨_, fails⟩ => by cases fails) ?_
              rintro ⟨_ | ⟨first, before⟩, other, after, parts, long, counts⟩
              · cases parts
                exact short long
              · cases parts
                obtain ⟨cells, count⟩ := counts word List.mem_cons_self
                cases read.symm.trans count
          | some cells =>
              have later : (∃ error, (Spacing.readCounts rest).map
                    (fun counts => counts.map (cells :: ·)) = .error error) ↔
                  ∃ error, Spacing.readCounts rest = .error error := by
                cases Spacing.readCounts rest <;> simp [Except.map]
              simp only [later, ih]
              constructor
              · rintro ⟨before, other, after, rfl, long, counts⟩
                exact ⟨word :: before, other, after, rfl, long,
                  List.forall_mem_cons.mpr ⟨⟨cells, read⟩, counts⟩⟩
              · rintro ⟨_ | ⟨first, before⟩, other, after, parts, long, counts⟩
                · cases parts
                  exact absurd long short
                · cases parts
                  exact ⟨before, other, after, rfl, long,
                    (List.forall_mem_cons.mp counts).2⟩

/-- The slots that hold a size. -/
def Slot.sizes : List Slot := [.width, .height, .minWidth, .minHeight, .maxWidth, .maxHeight]

/-- The slot holds a count of cells by itself. -/
def Slot.IsCount : Slot → Prop
  | .gap | .edge _ _ => True
  | _ => False

theorem Slot.parse?_fails_iff {slot : Slot} {text : List Char} :
    (∃ error, slot.parse? text = .error error) ↔
      slot ∈ Slot.sizes ∧ (∃ error, Size.parse? text = .error error) ∨
        slot.IsCount ∧ ∃ error, parseCells? (trim text) = .error error := by
  cases slot <;> simp [Slot.parse?, Slot.sizes, Slot.IsCount]

/-! ## Oversized declarations -/

theorem Variables.expand_of_plain {bindings : Variables} {value : String}
    (plain : Reference.ofText? value.toList = none) : bindings.expand value = value := by
  rw [expand, plain]

/-- The property cannot be given the value: for a size it is a count of cells that is too large
or too long, for a side or the gap one that is too long, and for a whole box its first word that
is no count is too long for one. -/
inductive Property.Oversized : Property → List Char → Prop where
  | vast {slot : Slot} {text : List Char} :
      slot ∈ Slot.sizes → VastCount (lower (trim text)) → Property.Oversized (.slot slot) text
  | long {slot : Slot} {text : List Char} :
      slot ∈ Slot.sizes → LongCount (lower (trim text)) → Property.Oversized (.slot slot) text
  | count {slot : Slot} {text : List Char} :
      slot.IsCount → LongCount (trim text) → Property.Oversized (.slot slot) text
  | box {box : Box} {text word : List Char} {before after : List (List Char)} :
      words text = before ++ word :: after → LongCount word →
        (∀ earlier ∈ before, ∃ cells, parseCells? earlier = .ok (some cells)) →
          Property.Oversized (.box box) text

/-- The declaration gives a property a value that it cannot be given. -/
def Declaration.Oversized (bindings : Variables) (declaration : Declaration) : Prop :=
  ∃ property,
    Property.dispatch? (String.ofList (lower (trim declaration.property.toList))) =
        some property ∧
      property.Oversized (trim (bindings.expand declaration.value).toList)

theorem Property.assignments?_fails_iff {property : Property} {text : List Char} :
    (∃ error, property.assignments? text = .error error) ↔ property.Oversized text := by
  cases property with
  | slot target =>
      have same : (∃ error, (Property.slot target).assignments? text = .error error) ↔
          ∃ error, target.parse? text = .error error := by
        rw [Property.assignments?]
        cases target.parse? text <;> simp [Except.map]
      rw [same, Slot.parse?_fails_iff, Size.parse?_fails_iff, parseCells?_fails_iff]
      constructor
      · rintro (⟨size, vast | long⟩ | ⟨count, long⟩)
        · exact .vast size vast
        · exact .long size long
        · exact .count count long
      · intro oversized
        cases oversized with
        | vast size vast => exact .inl ⟨size, .inl vast⟩
        | long size long => exact .inl ⟨size, .inr long⟩
        | count count long => exact .inr ⟨count, long⟩
  | box target =>
      have same : (∃ error, (Property.box target).assignments? text = .error error) ↔
          ∃ error, Spacing.parse? text = .error error := by
        rw [Property.assignments?]
        cases Spacing.parse? text <;> simp [Except.map]
      rw [same, Spacing.parse?_fails_iff]
      constructor
      · rintro ⟨before, word, after, parts, long, counts⟩
        exact .box parts long counts
      · intro oversized
        cases oversized with
        | box parts long counts => exact ⟨_, _, _, parts, long, counts⟩
  | border => exact iff_of_false (by simp [Property.assignments?]) nofun

theorem Declaration.fails_iff_oversized {bindings : Variables} {declaration : Declaration} :
    declaration.Fails bindings ↔ declaration.Oversized bindings := by
  rw [Fails, assignments?, declarationAssignments?, Oversized]
  cases Property.dispatch? (String.ofList (lower (trim declaration.property.toList))) with
  | none => simp
  | some property => simp [Property.assignments?_fails_iff]

namespace Cascade

variable {bindings : Variables} {sheet : Sheet} {config : Config}

theorem declare?_fails_iff {style : Style} {declaration : Declaration} :
    (∃ error, style.declare? declaration.property declaration.value bindings = .error error) ↔
      declaration.Oversized bindings := by
  rw [← Declaration.fails_iff_oversized, Declaration.Fails, Declaration.assignments?,
    Style.declare?]
  cases declarationAssignments? declaration.property declaration.value bindings <;>
    simp [Except.map]

theorem styleFrom_fails_iff_oversized {surroundings : Surroundings} {node : Node}
    (base : Style) :
    (∃ error, (ofSheet sheet config).styleFrom base surroundings node = .error error) ↔
      (∃ excess, sheet.readSelectors = .error excess) ∨
        ∃ declaration, sheet.Declares surroundings node declaration ∧
          declaration.Oversized sheet.bindings := by
  simp only [styleFrom_fails_iff, Declaration.fails_iff_oversized]

/-- The digits of a count of cells that no binary number can hold. -/
def vastDigits : List Char := List.replicate 309 '9'

/-- A sheet that makes an `App` that wide. -/
def vast : Sheet where
  rules :=
    [ { selector := "App"
        declarations := [{ property := "width", value := String.ofList vastDigits }] } ]

/-- The source of the sheet. -/
def vastSource : List Char :=
  "App \x7b width: ".toList ++ vastDigits ++ "; \x7d".toList

/-- A tree of one `App`. -/
def vastTree : Tree := (({} : Tree).plantRoot { widgetType := "App" }).2

theorem readSource_vastSource : Sheet.readSource vastSource = .ok vast := by
  have blocks : Sheet.readBlocks (Sheet.stripComments vastSource) =
      .ok [{ selector := "App", pairs := [("width", String.ofList vastDigits)] }] := by
    decide +kernel
  have pair : Declaration.ofPair "width" (String.ofList vastDigits) =
      { property := "width", value := String.ofList vastDigits } := by
    simp only [Declaration.ofPair, String.toList_ofList]
    decide +kernel
  simp only [Sheet.readSource, blocks, Sheet.addBlocks, Sheet.addBlock, Rule.ofPairs, List.map,
    pair]
  decide +kernel

theorem expand_vastDigits :
    vast.bindings.expand (String.ofList vastDigits) = String.ofList vastDigits := by
  refine Variables.expand_of_plain ?_
  rw [String.toList_ofList]
  decide +kernel

end Cascade

end WidgetStyle
