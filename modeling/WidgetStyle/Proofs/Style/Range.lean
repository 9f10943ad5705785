import WidgetStyle.Cascade.Basic
import WidgetStyle.Proofs.Number.Value
import WidgetStyle.Proofs.Outcomes
import WidgetStyle.Proofs.Style.Writing

/-!
# Styles in range

What a value is read as lies in the range of its slot: channels of colours fit into a byte,
fixed sizes are not negative, and an opacity is a share of one.  Assignments write such values,
merging and inheritance take over what other styles hold in the same slot, so every style that a
cascade gives is in range when the styles that go into it are.
-/

namespace WidgetStyle

open WidgetStyle.Number WidgetStyle.Text

/-! ## Colours -/

namespace Color

variable {text : List Char} {color : Color}

/-- Each channel is a byte. -/
structure InRange (color : Color) : Prop where
  red : color.red ≤ 255
  green : color.green ≤ 255
  blue : color.blue ≤ 255
  alpha : color.alpha ≤ 255

theorem inRange_opaqueOf {red green blue : Nat} (redFits : red ≤ 255) (greenFits : green ≤ 255)
    (blueFits : blue ≤ 255) : (opaqueOf red green blue).InRange :=
  ⟨redFits, greenFits, blueFits, Nat.le_refl 255⟩

theorem inRange_named : ∀ entry ∈ named, entry.2.InRange := by
  have fits : ∀ entry ∈ named, entry.2.red ≤ 255 ∧ entry.2.green ≤ 255 ∧ entry.2.blue ≤ 255 ∧
      entry.2.alpha ≤ 255 := by decide
  intro entry member
  rcases fits entry member with ⟨red, green, blue, alpha⟩
  exact ⟨red, green, blue, alpha⟩

theorem hexValue?_le {character : Char} {value : Nat} (read : hexValue? character = some value) :
    value ≤ 15 := by
  have code (last : Char) (below : character ≤ last) : character.toNat ≤ last.toNat :=
    UInt32.le_iff_toNat_le.mp below
  rw [hexValue?] at read
  split at read
  · rename_i digit
    have bound := code '9' digit.2
    have zero : '0'.toNat = 48 := rfl
    have nine : '9'.toNat = 57 := rfl
    cases read
    omega
  · split at read
    · rename_i letter
      have bound := code 'f' letter.2
      have first : 'a'.toNat = 97 := rfl
      have last : 'f'.toNat = 102 := rfl
      cases read
      omega
    · cases read

theorem forall_le_of_mapM_hexValue? {digits : List Char} {values : List Nat}
    (read : digits.mapM hexValue? = some values) : ∀ value ∈ values, value ≤ 15 := by
  induction digits generalizing values with
  | nil =>
      cases read
      exact fun _ member => nomatch member
  | cons digit rest ih =>
      rw [List.mapM_cons] at read
      rcases Option.bind_eq_some_iff.mp read with ⟨first, firstRead, later⟩
      rcases Option.bind_eq_some_iff.mp later with ⟨others, othersRead, whole⟩
      cases whole
      exact List.forall_mem_cons.mpr ⟨hexValue?_le firstRead, ih othersRead⟩

theorem inRange_ofHexDigits? {digits : List Char} (read : ofHexDigits? digits = some color) :
    color.InRange := by
  rw [ofHexDigits?] at read
  split at read
  · rename_i values
    have bound := forall_le_of_mapM_hexValue? values
    simp only [List.forall_mem_cons] at bound
    cases read
    exact inRange_opaqueOf (by omega) (by omega) (by omega)
  · rename_i values
    have bound := forall_le_of_mapM_hexValue? values
    simp only [List.forall_mem_cons] at bound
    cases read
    exact inRange_opaqueOf (by omega) (by omega) (by omega)
  · cases read

theorem alphaOfShare_le (share : Decimal) : alphaOfShare share ≤ 255 := by
  have bound (value product : Binary64) (read : value.clampToUnit.timesNat? 255 = some product) :
      product.nearestNat ≤ 255 :=
    Binary64.nearestNat_le value.inUnit_clampToUnit (by decide) read
  unfold alphaOfShare
  grind

theorem readAlpha?_le {alpha : Nat} (read : readAlpha? text = some alpha) : alpha ≤ 255 := by
  unfold readAlpha? at read
  split at read
  · cases read
    exact Nat.le_refl 255
  · rename_i rest
    cases shared : readShare? (skipBlanks rest) with
    | none =>
        rw [shared] at read
        cases read
    | some pair =>
        simp only [shared] at read
        split at read
        · cases read
          exact alphaOfShare_le pair.1
        · cases read
  · cases read

theorem inRange_readChannels? (read : readChannels? text = some color) : color.InRange := by
  unfold readChannels? at read
  split at read
  · split at read
    · split at read
      · split at read
        · split at read
          · rename_i alpha alphaRead
            split at read
            · rename_i fits
              cases read
              exact ⟨fits.1, fits.2.1, fits.2.2, readAlpha?_le alphaRead⟩
            · cases read
          · cases read
        · cases read
      · cases read
    · cases read
  · cases read

/-- Whatever is read as a colour has bytes for channels. -/
theorem inRange_parse? (read : parse? text = some color) : color.InRange := by
  unfold parse? at read
  generalize lower (trim text) = word at read
  simp only at read
  split at read
  · rename_i named
    cases read
    rcases List.lookup_eq_some_iff.mp named with ⟨before, after, split, -⟩
    exact inRange_named (_, color) (split ▸ List.mem_append_right before List.mem_cons_self)
  · split at read
    · exact inRange_ofHexDigits? read
    · exact inRange_readChannels? read
    · exact inRange_readChannels? read
    · cases read

end Color

/-! ## Sizes -/

namespace Size

variable {text : List Char} {size : Size}

/-- The number that goes with a size, which is zero where the size is left to the layout. -/
def value : Size → Binary64
  | auto => .zero
  | fixed cells => cells
  | percent share => share

/-- The number that goes with the size is zero, or finite and not negative, or finite. -/
def InRange (size : Size) : Prop :=
  match size with
  | auto => size.value = .zero
  | fixed _ => size.value.IsFinite ∧ 0 ≤ size.value.toRat
  | percent _ => size.value.IsFinite

theorem negative_of_ofNat? {number : Nat} {value : Binary64}
    (read : Binary64.ofNat? number = some value) : value.negative = false := by
  rw [Binary64.ofNat?, Binary64.ofRatio?, Binary64.ofRank?] at read
  split at read
  · cases read
    rfl
  · cases read

theorem inRange_ofCells {cells : Nat} (read : ofCells cells = .ok size) : size.InRange := by
  rw [ofCells] at read
  cases number : Binary64.ofNat? cells with
  | none =>
      rw [number] at read
      cases read
  | some value =>
      rw [number] at read
      cases read
      exact ⟨value.isFinite, Binary64.toRat_nonneg (negative_of_ofNat? number)⟩

theorem inRange_parse? (read : parse? text = .ok (some size)) : size.InRange := by
  unfold parse? at read
  generalize lower (trim text) = word at read
  simp only at read
  split at read
  · cases read
    rfl
  · split at read
    · rename_i number _
      have percent := Except.ok.inj read
      rcases Option.map_eq_some_iff.mp percent with ⟨share, -, rfl⟩
      exact share.isFinite
    · split at read
      · cases read
      · cases read
      · rcases exists_of_map_eq_ok read with ⟨whole, fixed, same⟩
        cases same
        exact inRange_ofCells fixed

end Size

/-! ## Slots -/

namespace Slot

/-- The range of a slot. -/
def InRange : (slot : Slot) → slot.Value → Prop
  | color, value | background, value | borderColor, value => Color.InRange value
  | width, value | height, value | minWidth, value | minHeight, value | maxWidth, value
  | maxHeight, value => Size.InRange value
  | gap, value | edge _ _, value => 0 ≤ Int.ofNat value
  | opacity, value =>
      Binary64.IsFinite value ∧ 0 ≤ Binary64.toRat value ∧ Binary64.toRat value ≤ 1
  | display, _ | position, _ | flexDirection, _ | justifyContent, _ | alignItems, _
  | borderStyle, _ | visible, _ => True

theorem inRange_parse? {slot : Slot} {text : List Char} {value : slot.Value}
    (read : slot.parse? text = .ok (some value)) : slot.InRange value := by
  cases slot with
  | width | height | minWidth | minHeight | maxWidth | maxHeight => exact Size.inRange_parse? read
  | color | background | borderColor => exact Color.inRange_parse? (Except.ok.inj read)
  | gap | edge => exact Int.natCast_nonneg value
  | opacity =>
      rcases Option.map_eq_some_iff.mp (Except.ok.inj read) with ⟨number, -, rfl⟩
      exact ⟨Binary64.isFinite _, number.inUnit_clampToUnit.toRat_mem⟩
  | display | position | flexDirection | justifyContent | alignItems | borderStyle | visible =>
      trivial

end Slot

/-- The value of an assignment is in the range of its slot. -/
def Assignment.InRange (assignment : Assignment) : Prop :=
  assignment.slot.InRange assignment.value

theorem inRange_borderAssignments? {text : List Char} {assignments : List Assignment}
    (read : borderAssignments? text = some assignments) :
    ∀ assignment ∈ assignments, assignment.InRange := by
  unfold borderAssignments? at read
  simp only at read
  split at read
  · cases read
  · split at read
    · cases read
      simp [Assignment.InRange, Slot.InRange]
    · rcases Option.map_eq_some_iff.mp read with ⟨color, parsed, rfl⟩
      simp [Assignment.InRange, Slot.InRange, Color.inRange_parse? parsed]

/-- Whatever a property writes is in range. -/
theorem Property.inRange_assignments? {property : Property} {text : List Char}
    {assignments : List Assignment} (read : property.assignments? text = .ok (some assignments)) :
    ∀ assignment ∈ assignments, assignment.InRange := by
  cases property with
  | slot slot =>
      rcases exists_of_map_eq_ok read with ⟨value, parsed, same⟩
      rcases Option.map_eq_some_iff.mp same with ⟨value, rfl, rfl⟩
      rw [List.forall_mem_singleton]
      exact Slot.inRange_parse? parsed
  | box box =>
      rcases exists_of_map_eq_ok read with ⟨counts, -, brought⟩
      rcases Option.map_eq_some_iff.mp brought with ⟨spacing, -, rfl⟩
      rw [List.forall_mem_map]
      exact fun side _ => Int.natCast_nonneg (spacing.read side)
  | border => exact inRange_borderAssignments? (Except.ok.inj read)

/-! ## Styles -/

namespace Style

variable {style after : Style}

/-- Every slot holds a value in its range. -/
def InRange (style : Style) : Prop :=
  ∀ slot : Slot, slot.InRange (style.read slot)

theorem inRange_default : ({} : Style).InRange := by
  have empty : ({} : Color).InRange :=
    ⟨Nat.zero_le _, Nat.zero_le _, Nat.zero_le _, Nat.zero_le _⟩
  intro slot
  cases slot with
  | width | height | minWidth | minHeight | maxWidth | maxHeight => rfl
  | color | background | borderColor => exact empty
  | gap => exact Int.natCast_nonneg _
  | edge box side => exact Int.natCast_nonneg _
  | opacity => exact ⟨Binary64.isFinite _, Binary64.inUnit_one.toRat_mem⟩
  | display | position | flexDirection | justifyContent | alignItems | borderStyle | visible =>
      trivial

theorem InRange.assign (inRange : style.InRange) {assignment : Assignment}
    (fits : assignment.InRange) : (style.assign assignment).InRange := by
  intro slot
  rw [Style.assign]
  by_cases same : slot = assignment.slot
  · rw [same, read_write]
    exact fits
  · rw [read_write_of_ne style _ same]
    exact inRange slot

theorem InRange.assignAll (inRange : style.InRange) {assignments : List Assignment}
    (fit : ∀ assignment ∈ assignments, assignment.InRange) :
    (style.assignAll assignments).InRange := by
  induction assignments generalizing style with
  | nil => exact inRange
  | cons assignment rest ih =>
      rw [List.forall_mem_cons] at fit
      exact ih (inRange.assign fit.1) fit.2

theorem InRange.declare? (inRange : style.InRange) {name value : String} {bindings : Variables}
    (declared : style.declare? name value bindings = .ok (some after)) : after.InRange := by
  rcases exists_of_map_eq_ok declared with ⟨written, read, same⟩
  rcases Option.map_eq_some_iff.mp same with ⟨assignments, rfl, rfl⟩
  rw [declarationAssignments?] at read
  split at read
  · cases read
  · exact inRange.assignAll (Property.inRange_assignments? read)

theorem InRange.overlay (inRange : style.InRange) {other : Style} (otherInRange : other.InRange) :
    (style.overlay other).InRange := by
  intro slot
  rw [read_overlay]
  split
  · exact otherInRange slot
  · exact inRange slot

theorem InRange.inherit (inRange : style.InRange) (fields : List Field) :
    (style.inherit fields).InRange := by
  intro slot
  rw [Style.inherit, read_foldl_take]
  split
  · exact inRange slot
  · exact inRange_default slot

/-- The styles that declarations make of the default style. -/
inductive Declared : Style → Prop where
  | default : Declared {}
  | declare {style after : Style} {name value : String} {bindings : Variables} :
      Declared style → style.declare? name value bindings = .ok (some after) → Declared after

theorem Declared.inRange (declared : style.Declared) : style.InRange := by
  induction declared with
  | default => exact inRange_default
  | declare _ applied ih => exact ih.declare? applied

end Style

/-! ## The cascade -/

namespace Cascade

variable {bindings : Variables} {style after : Style}

theorem inRange_applyAll (inRange : style.InRange) {declarations : List Declaration}
    (done : applyAll bindings style declarations = .ok after) : after.InRange := by
  induction declarations generalizing style with
  | nil =>
      cases done
      exact inRange
  | cons declaration rest ih =>
      rw [applyAll] at done
      split at done
      · cases done
      · rename_i next applied
        refine ih ?_ done
        rcases exists_of_map_eq_ok applied with ⟨result, declared, rfl⟩
        cases result with
        | none => exact inRange
        | some result => exact inRange.declare? declared

/-- A node that starts from a style in range has a style in range, if its inline style is. -/
theorem inRange_styleFrom {cascade : Cascade} {surroundings : Surroundings} {node : Node}
    (inRange : style.InRange) (inline : ∀ own, node.inlineStyle = some own → own.InRange)
    (done : cascade.styleFrom style surroundings node = .ok after) : after.InRange := by
  rw [styleFrom] at done
  split at done
  · cases done
  · simp only at done
    split at done
    · cases done
    · rename_i normal first
      have normalInRange := inRange_applyAll inRange first
      refine inRange_applyAll ?_ done
      cases own : node.inlineStyle with
      | none => exact normalInRange
      | some own => exact normalInRange.overlay (inline _ (by assumption))

end Cascade

end WidgetStyle
