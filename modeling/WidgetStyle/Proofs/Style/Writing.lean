import WidgetStyle.Style.Field
import WidgetStyle.Style.Property

/-!
# Slots after writes

What a slot holds after some writes is what the last write for it brought, and what
it held before when there was none.  Assignments write slot by slot; merging and
inheritance write field by field, and each slot is part of one field.
-/

namespace WidgetStyle

/-- The field that the slot is part of. -/
def Slot.field : Slot → Field
  | .display => .display
  | .position => .position
  | .flexDirection => .flexDirection
  | .justifyContent => .justifyContent
  | .alignItems => .alignItems
  | .gap => .gap
  | .width => .width
  | .height => .height
  | .minWidth => .minWidth
  | .minHeight => .minHeight
  | .maxWidth => .maxWidth
  | .maxHeight => .maxHeight
  | .edge .padding _ => .padding
  | .edge .margin _ => .margin
  | .color => .color
  | .background => .background
  | .borderStyle => .borderStyle
  | .borderColor => .borderColor
  | .opacity => .opacity
  | .visible => .visible

@[simp] theorem Slot.mem_slots_iff {slot : Slot} {field : Field} :
    slot ∈ field.slots ↔ slot.field = field := by
  cases slot with
  | edge box side =>
      cases box <;> cases field <;>
        simp [Field.slots, Field.slotsOfBox, Slot.field, Keyword.complete]
  | _ => cases field <;> simp [Field.slots, Field.slotsOfBox, Slot.field]

/-- The value that an assignment has for a slot, if it is made to this slot. -/
def Assignment.valueFor? (slot : Slot) (assignment : Assignment) : Option slot.Value :=
  if same : assignment.slot = slot then some (same ▸ assignment.value) else none

theorem Spacing.ext_read {left right : Spacing}
    (same : ∀ side, left.read side = right.read side) : left = right := by
  cases left
  cases right
  rw [mk.injEq]
  exact ⟨same .top, same .right, same .bottom, same .left⟩

namespace Style

variable {style source : Style} {slot : Slot}

/-- A style is known by what its slots hold. -/
theorem ext_read {left right : Style} (same : ∀ slot, left.read slot = right.read slot) :
    left = right := by
  have padding : left.padding = right.padding :=
    Spacing.ext_read fun side => same (.edge .padding side)
  have margin : left.margin = right.margin :=
    Spacing.ext_read fun side => same (.edge .margin side)
  cases left
  cases right
  rw [mk.injEq]
  exact ⟨same .display, same .position, same .flexDirection, same .justifyContent,
    same .alignItems, same .gap, same .width, same .height, same .minWidth, same .minHeight,
    same .maxWidth, same .maxHeight, padding, margin, same .color, same .background,
    same .borderStyle, same .borderColor, same .opacity, same .visible⟩

/-! ## Assignments -/

@[simp] theorem read_assign (style : Style) (assignment : Assignment) (slot : Slot) :
    (style.assign assignment).read slot =
      (assignment.valueFor? slot).getD (style.read slot) := by
  rcases assignment with ⟨target, value⟩
  rw [assign, Assignment.valueFor?]
  split
  · rename_i same
    cases same
    exact read_write style target value
  · rename_i different
    exact read_write_of_ne style value (Ne.symm different)

/-- Of the assignments made to a slot the last one counts. -/
@[simp] theorem read_assignAll (style : Style) (assignments : List Assignment) (slot : Slot) :
    (style.assignAll assignments).read slot =
      ((assignments.filterMap (·.valueFor? slot)).getLast?).getD (style.read slot) := by
  induction assignments generalizing style with
  | nil => rfl
  | cons assignment rest ih =>
      have step : style.assignAll (assignment :: rest) = (style.assign assignment).assignAll rest :=
        rfl
      rw [step, ih, read_assign, List.filterMap_cons]
      cases assignment.valueFor? slot with
      | none => rfl
      | some value =>
          rw [List.getLast?_cons]
          cases (rest.filterMap (·.valueFor? slot)).getLast? <;> rfl

/-! ## Fields -/

theorem read_foldl_write (slots : List Slot) :
    (slots.foldl (fun result slot => result.write slot (source.read slot)) style).read slot =
      if slot ∈ slots then source.read slot else style.read slot := by
  induction slots generalizing style with
  | nil => rfl
  | cons first rest ih =>
      rw [List.foldl_cons, ih]
      by_cases later : slot ∈ rest
      · rw [if_pos later, if_pos (List.mem_cons_of_mem _ later)]
      · rw [if_neg later]
        by_cases same : slot = first
        · rw [if_pos (same ▸ List.mem_cons_self), same]
          exact read_write style first _
        · rw [if_neg (by simp [same, later])]
          exact read_write_of_ne style _ same

theorem read_foldl_take (fields : List Field) :
    (fields.foldl (fun result field => result.take field source) style).read slot =
      if slot.field ∈ fields then source.read slot else style.read slot := by
  induction fields generalizing style with
  | nil => rfl
  | cons first rest ih =>
      rw [List.foldl_cons, ih, take, read_foldl_write]
      simp only [Slot.mem_slots_iff, List.mem_cons]
      by_cases later : slot.field ∈ rest <;> simp [later]

/-- A slot is taken over with its whole field when the field is set. -/
@[simp] theorem read_overlay (style other : Style) (slot : Slot) :
    (style.overlay other).read slot =
      if other.isSet slot.field then other.read slot else style.read slot := by
  rw [overlay, read_foldl_take]
  simp only [List.mem_filter, Keyword.complete, true_and]

end Style

end WidgetStyle
