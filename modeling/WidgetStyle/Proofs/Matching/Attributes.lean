import Mathlib.Data.List.Basic
import Mathlib.Data.List.Infix
import WidgetStyle.Matching.Compound
import WidgetStyle.Proofs.Text.Lowercase
import WidgetStyle.Selector.Reader

/-!
# Texts of attributes

Three attributes of a widget are texts: its classes, its element id and its type.  A comparison
looks at some texts of the widget and holds if it holds of one of them.  An attribute that is
missing counts as the empty text, so a condition can hold of a widget that lacks the attribute:
exactly if it compares the attribute as a whole, by a comparison that the attribute takes part in,
with the empty text.
-/

namespace WidgetStyle

open WidgetStyle.Text

namespace Comparison

variable {comparison : Comparison} {subject value : List Char}

theorem isInside_iff_infix : isInside value subject = true ↔ value <:+: subject := by
  induction subject with
  | nil => rw [isInside, List.isEmpty_iff, List.infix_nil]
  | cons character subject ih =>
      rw [isInside, Bool.or_eq_true, List.isPrefixOf_iff_prefix, ih, List.infix_cons_iff]

/-- The empty text compares well with itself only. -/
theorem holds_nil_iff : comparison.holds [] value = true ↔ value = [] := by
  cases comparison with
  | equals => rw [holds, beq_iff_eq, eq_comm]
  | containsWord => rw [holds, beq_iff_eq, eq_comm]
  | startsWithWord =>
      have longer : (value ++ ['-']).isPrefixOf [] = false := by
        cases value <;> rfl
      rw [holds, longer, Bool.or_false, beq_iff_eq, eq_comm]
  | startsWith => rw [holds, List.isPrefixOf_iff_prefix, List.prefix_nil]
  | endsWith => rw [holds, List.isSuffixOf_iff_suffix, List.suffix_nil]
  | contains => rw [holds, isInside, List.isEmpty_iff]

theorem compare_empty_iff {ignoreCase : Bool} {value : String} :
    comparison.compare ignoreCase "" value = true ↔ value = "" := by
  have empty : "".toList = [] := rfl
  cases ignoreCase with
  | false =>
      rw [compare, if_neg Bool.false_ne_true, empty, holds_nil_iff, String.toList_eq_nil_iff]
  | true =>
      have lowered : lower "".toList = [] := rfl
      rw [compare, if_pos rfl, lowered, holds_nil_iff, lower_eq_nil_iff, String.toList_eq_nil_iff]

end Comparison

namespace WidgetAttribute

variable {feature : WidgetAttribute} {comparison : Comparison} {identity : Identity}

/-- The names of the attributes that are texts. -/
def textNames : List String :=
  ["class", "id", "type"]

/-- Whether the attribute is a text. -/
def isText : WidgetAttribute → Bool
  | classes | elementId | widgetType => true
  | toggle _ | presence _ => false

theorem exists_text_of_mem {name : String} (textual : name ∈ textNames) :
    ∃ feature, ofName? name = some feature ∧ feature.isText = true := by
  simp only [textNames, List.mem_cons, List.not_mem_nil, or_false] at textual
  rcases textual with rfl | rfl | rfl
  · exact ⟨classes, rfl, rfl⟩
  · exact ⟨elementId, rfl, rfl⟩
  · exact ⟨widgetType, rfl, rfl⟩

/-- The texts that a comparison looks at. -/
def subjects (feature : WidgetAttribute) (comparison : Comparison) (identity : Identity) :
    List String :=
  match feature with
  | classes =>
      if comparison = .equals then [joinedClasses identity] else identity.classes
  | elementId => if comparison.appliesToId then [identity.elementId.getD ""] else []
  | widgetType => if comparison.appliesToType then [identity.widgetType] else []
  | toggle _ | presence _ => []

/-- A comparison holds of an attribute if it holds of one of the texts it looks at. -/
theorem comparesWell_iff (text : feature.isText = true) {value : String} {ignoreCase : Bool}
    {flags : Flags} :
    feature.comparesWell comparison (some value) ignoreCase identity flags = true ↔
      ∃ subject ∈ feature.subjects comparison identity,
        comparison.compare ignoreCase subject value = true := by
  cases feature with
  | classes =>
      rw [comparesWell, subjects]
      split
      · simp
      · rw [List.any_eq_true]
  | elementId =>
      rw [comparesWell, subjects, Bool.and_eq_true]
      cases comparison.appliesToId <;> simp
  | widgetType =>
      rw [comparesWell, subjects, Bool.and_eq_true]
      cases comparison.appliesToType <;> simp
  | toggle => cases text
  | presence => cases text

theorem comparesWell_none (text : feature.isText = true) {ignoreCase : Bool} {flags : Flags} :
    feature.comparesWell comparison none ignoreCase identity flags = false := by
  cases feature with
  | classes => rfl
  | elementId => rfl
  | widgetType => rfl
  | toggle => cases text
  | presence => cases text

/-! ## Missing attributes -/

/-- Whether a comparison looks at the attribute as a whole, so that it has a text to look at even
if the attribute is missing. -/
def comparesWhole : WidgetAttribute → Comparison → Bool
  | classes, comparison => decide (comparison = .equals)
  | elementId, comparison => comparison.appliesToId
  | widgetType, comparison => comparison.appliesToType
  | toggle _, _ | presence _, _ => false

theorem subjects_of_missing {flags : Flags} (text : feature.isText = true)
    (missing : feature.isPresent identity flags = false) :
    feature.subjects comparison identity =
      if feature.comparesWhole comparison then [""] else [] := by
  cases feature with
  | classes =>
      have none : identity.classes = [] := by simpa [isPresent] using missing
      have joined : joinedClasses identity = "" := by
        rw [joinedClasses, none, sortNames, List.mergeSort_nil]
        rfl
      rw [subjects, comparesWhole, joined, none]
      simp
  | elementId =>
      have none : identity.elementId = none := by simpa [isPresent] using missing
      rw [subjects, none]
      rfl
  | widgetType =>
      have empty : identity.widgetType = "" := by simpa [isPresent] using missing
      rw [subjects, empty]
      rfl
  | toggle => cases text
  | presence => cases text

theorem comparesWell_of_missing {flags : Flags} (text : feature.isText = true)
    (missing : feature.isPresent identity flags = false) {value : Option String}
    {ignoreCase : Bool} :
    feature.comparesWell comparison value ignoreCase identity flags = true ↔
      feature.comparesWhole comparison = true ∧ value = some "" := by
  cases value with
  | none => simp [comparesWell_none text]
  | some value =>
      rw [comparesWell_iff text, subjects_of_missing text missing]
      cases feature.comparesWhole comparison <;> simp [Comparison.compare_empty_iff]

end WidgetAttribute

namespace AttributeCondition

/-- The condition that asks only whether the attribute is there. -/
def bare (condition : AttributeCondition) : AttributeCondition :=
  { condition with test := .present }

/-- Whether the condition holds where its attribute is missing: it compares the attribute as a
whole with the empty text. -/
def acceptsMissing (condition : AttributeCondition) : Bool :=
  match WidgetAttribute.ofName? condition.name, condition.test with
  | some feature, .compare comparison value _ =>
      feature.comparesWhole comparison && decide (value = some "")
  | _, _ => false

theorem holdsOf_of_missing {condition : AttributeCondition} {node : Node}
    (textual : condition.name ∈ WidgetAttribute.textNames)
    (missing : condition.bare.holdsOf node = false) :
    condition.holdsOf node = condition.acceptsMissing := by
  rcases WidgetAttribute.exists_text_of_mem textual with ⟨feature, named, text⟩
  have absent : feature.isPresent node.identity node.flags = false := by
    simpa [bare, holdsOf, named] using missing
  cases asked : condition.test with
  | present => simp [holdsOf, acceptsMissing, named, asked, absent]
  | compare comparison value ignoreCase =>
      rw [Bool.eq_iff_iff]
      simp only [holdsOf, acceptsMissing, named, asked, Bool.and_eq_true, decide_eq_true_eq]
      exact WidgetAttribute.comparesWell_of_missing text absent

/-- A condition on a text that holds of a node implies that the node has the attribute, unless
the attribute is missing and the condition holds where it is. -/
theorem holdsOf_imp_bare_iff (condition : AttributeCondition) (node : Node)
    (textual : condition.name ∈ WidgetAttribute.textNames) :
    (condition.holdsOf node = true → condition.bare.holdsOf node = true) ↔
      condition.bare.holdsOf node = true ∨ condition.acceptsMissing = false := by
  cases present : condition.bare.holdsOf node with
  | true => simp
  | false =>
      rw [holdsOf_of_missing textual present]
      cases condition.acceptsMissing <;> simp

/-- The condition that a class ends like `y`, in any case. -/
def endsLikeY : AttributeCondition :=
  ⟨"class", .compare .endsWith (some "Y") true⟩

/-- What holds of no missing attribute implies that the attribute is there. -/
theorem endsLikeY_imp_bare :
    "class" ∈ WidgetAttribute.textNames ∧
      endsLikeY.holdsOf { id := ⟨1⟩, identity := { classes := ["primary"] } } = true ∧
      ∀ node, endsLikeY.holdsOf node = true → endsLikeY.bare.holdsOf node = true := by
  have textual : "class" ∈ WidgetAttribute.textNames := by decide
  refine ⟨textual, by decide +kernel, ?_⟩
  intro node
  exact (holdsOf_imp_bare_iff endsLikeY node textual).mpr (.inr (by decide))

/-- A widget without an element id has the empty one by comparison, but has none. -/
theorem emptyId_missing :
    let condition : AttributeCondition := ⟨"id", .compare .equals (some "") false⟩
    let node : Node := { id := ⟨1⟩, identity := { widgetType := "App" } }
    Selector.parse "[id=\"\"]" = .ok (.ofCompound { attributes := [condition] }) ∧
      condition.holdsOf node = true ∧ condition.bare.holdsOf node = false := by
  decide +kernel

end AttributeCondition

end WidgetStyle
