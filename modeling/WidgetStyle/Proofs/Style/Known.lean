import WidgetStyle.Proofs.Text.Blanks
import WidgetStyle.Report

/-!
# Known properties

A declaration tells its property by the parts of the name: a plain name, a box and a side with
a hyphen between them, or the border.  A validation goes by the list of all names.  Both know
the same names, and every known property has a text that can be read for it.  A validation
therefore warns of a property exactly when no declaration of it applies to any style.
-/

namespace WidgetStyle

open WidgetStyle.Text

namespace Property

variable {name : String} {property : Property}

/-! ## Names and their parts -/

/-- What is known as a side is spelt as one. -/
theorem mem_supported_of_edge? (found : edge? name = some property) : name ∈ supported := by
  rcases Option.bind_eq_some_iff.mp found with ⟨box, isBox, rest⟩
  rcases Option.map_eq_some_iff.mp rest with ⟨side, isSide, -⟩
  rcases List.lookup_eq_some_iff.mp isBox with ⟨before, after, split, -⟩
  have member : (String.ofList (name.toList.takeWhile (· != '-')), box) ∈ boxes := by
    rw [split]
    exact List.mem_append_right before List.mem_cons_self
  have spelt : name = String.ofList (name.toList.takeWhile (· != '-')) ++ "-" ++
      Keyword.name side := by
    have nameOfSide := Keyword.name_of_ofName? isSide
    have hyphen := List.head?_dropWhile_not (· != '-') name.toList
    have whole := @List.takeWhile_append_dropWhile _ (· != '-') name.toList
    cases remaining : name.toList.dropWhile (· != '-') with
    | nil =>
        rw [remaining] at nameOfSide
        cases side <;> exact absurd nameOfSide (by decide)
    | cons first others =>
        rw [remaining] at hyphen nameOfSide whole
        have isHyphen : first = '-' := by simpa using hyphen
        generalize name.toList.takeWhile (· != '-') = front at whole ⊢
        rw [nameOfSide, ← String.toList_inj, ← whole, isHyphen]
        simp
  rw [spelt]
  refine List.mem_append_left _ (List.mem_append_right _ (List.mem_flatMap.mpr ⟨_, member, ?_⟩))
  exact List.mem_map.mpr ⟨side, Keyword.complete side, rfl⟩

/-- The listed names are those of the properties that can be told by the parts of a name. -/
theorem mem_supported_iff : name ∈ supported ↔ (dispatch? name).isSome = true := by
  have told : ∀ name ∈ supported, (dispatch? name).isSome = true := by decide +kernel
  constructor
  · exact told name
  · intro known
    rcases Option.isSome_iff_exists.mp known with ⟨property, found⟩
    rw [dispatch?, Option.or_eq_some_iff] at found
    rcases found with isPlain | ⟨-, found⟩
    · rcases List.lookup_isSome_iff.mp (Option.isSome_of_eq_some isPlain) with
        ⟨entry, member, same⟩
      rw [beq_iff_eq.mp same]
      exact List.mem_append_left _ (List.mem_append_left _ (List.mem_map_of_mem member))
    · rw [Option.or_eq_some_iff] at found
      rcases found with isEdge | ⟨-, isBorder⟩
      · exact mem_supported_of_edge? isEdge
      · rw [Option.ite_none_right_eq_some] at isBorder
        rw [isBorder.1]
        exact List.mem_append_right _ (List.mem_singleton_self "border")

/-! ## Properties and their texts -/

/-- A text that can be read for the property. -/
def sample : Property → String
  | .slot .display | .slot .borderStyle | .border => "none"
  | .slot .position => "static"
  | .slot .flexDirection => "row"
  | .slot .justifyContent | .slot .alignItems => "start"
  | .slot .gap | .slot (.edge _ _) | .box _ | .slot .opacity => "0"
  | .slot .width | .slot .height | .slot .minWidth | .slot .minHeight | .slot .maxWidth
  | .slot .maxHeight => "auto"
  | .slot .color | .slot .background | .slot .borderColor => "transparent"
  | .slot .visible => "visible"

theorem isSome_sample (property : Property) :
    ((property.assignments? (trim (Variables.expand {} property.sample).toList)).toOption.bind
      id).isSome = true := by
  cases property with
  | slot slot =>
      cases slot with
      | edge box side => cases box <;> cases side <;> decide +kernel
      | _ => decide +kernel
  | box box => cases box <;> decide +kernel
  | border => decide +kernel

theorem exists_assignments?_sample (property : Property) :
    ∃ assignments, property.assignments? (trim (Variables.expand {} property.sample).toList) =
      .ok (some assignments) := by
  have read := isSome_sample property
  cases written : property.assignments? (trim (Variables.expand {} property.sample).toList) with
  | error => simp [written, Except.toOption] at read
  | ok assignments =>
      simp only [written, Except.toOption, Option.bind_some, id] at read
      rcases Option.isSome_iff_exists.mp read with ⟨assignments, rfl⟩
      exact ⟨assignments, rfl⟩

/-- Some declaration of the name applies to some style. -/
def Applies (name : String) : Prop :=
  ∃ value bindings, ∃ style after : Style, style.declare? name value bindings = .ok (some after)

/-- A declaration can apply exactly when its property is known, blanks at its ends and the case
of its letters apart. -/
theorem applies_iff : Applies name ↔ (dispatch? (lowerString (trimString name))).isSome = true := by
  have lowered : String.ofList (lower (trim name.toList)) = lowerString (trimString name) := by
    rw [lowerString, trimString, String.toList_ofList]
  constructor
  · intro applies
    rcases applies with ⟨value, bindings, style, after, applied⟩
    rw [Style.declare?, declarationAssignments?, lowered] at applied
    cases found : dispatch? (lowerString (trimString name)) with
    | none =>
        rw [found] at applied
        cases applied
    | some property => rfl
  · intro known
    rcases Option.isSome_iff_exists.mp known with ⟨property, found⟩
    rcases exists_assignments?_sample property with ⟨assignments, read⟩
    refine ⟨property.sample, {}, {}, Style.assignAll {} assignments, ?_⟩
    rw [Style.declare?, declarationAssignments?, lowered, found]
    simp only [read]
    rfl

end Property

/-! ## Reports -/

namespace Report

@[simp] theorem property_ofPair (property value : String) :
    (Declaration.ofPair property value).property = trimString property := by
  rw [Declaration.ofPair]
  split <;> rfl

/-- A property is on the list of all names exactly when a declaration of it can apply. -/
theorem isKnownProperty_ofPair_iff (property value : String) :
    isKnownProperty (Declaration.ofPair property value) = true ↔
      Property.Applies (Declaration.ofPair property value).property := by
  have trimmed : trimString (trimString property) = trimString property := by
    rw [trimString, trimString, String.toList_ofList, trim_trim]
  rw [isKnownProperty, property_ofPair, Property.applies_iff, trimmed, List.contains_iff_mem,
    Property.mem_supported_iff]

end Report

end WidgetStyle
