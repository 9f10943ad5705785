import WidgetStyle.Matching.Selector
import WidgetStyle.Proofs.Tree.Growth

/-!
# Nodes that look alike

What a condition of a selector sees of a node: its identity, its flags but for the
mark as dirty, and its place.  Classes are a set, so the order in which a node
lists them is not seen.  Nodes that look alike meet the same compounds.
-/

namespace WidgetStyle

open WidgetStyle.Text

/-- Two nodes look the same to every condition. -/
structure Node.Like (left right : Node) : Prop where
  widgetType : left.identity.widgetType = right.identity.widgetType
  elementId : left.identity.elementId = right.identity.elementId
  classes : left.identity.classes.Perm right.identity.classes
  flags : ∀ flag, flag ≠ .dirty → left.flags.read flag = right.flags.read flag
  placement : left.placement = right.placement

namespace Node.Like

variable {left right : Node}

/-- Nodes that are the same by themselves but for their ids look alike. -/
theorem of_face_but_id (same : { left.face with id := right.id } = right.face) :
    left.Like right where
  widgetType := congrArg (·.identity.widgetType) same
  elementId := congrArg (·.identity.elementId) same
  classes := .of_eq (congrArg (·.identity.classes) same)
  flags := by
    intro flag notDirty
    have kept : ∀ node : Node, node.flags.read flag = node.face.flags.read flag := by
      intro node
      cases flag with
      | dirty => exact absurd rfl notDirty
      | _ => rfl
    rw [kept left, kept right, ← same]
  placement := congrArg (·.placement) same

/-- Nodes that are the same by themselves look alike. -/
theorem of_face (same : left.face = right.face) : left.Like right := by
  apply of_face_but_id
  rw [same]
  rfl

end Node.Like

/-! ## Classes in any order -/

/-- Sorted names do not tell in which order they came. -/
theorem Text.sortNames_eq_of_perm {left right : List String} (perm : left.Perm right) :
    sortNames left = sortNames right := by
  have sorted : ∀ names : List String,
      (sortNames names).Pairwise fun first second => decide (first ≤ second) = true := by
    intro names
    refine List.pairwise_mergeSort ?_ ?_ names
    · intro first second third
      simp only [decide_eq_true_eq]
      exact String.le_trans
    · intro first second
      simp only [Bool.or_eq_true, decide_eq_true_eq]
      exact String.le_total first second
  have same : (sortNames left).Perm (sortNames right) :=
    (List.mergeSort_perm left _).trans (perm.trans (List.mergeSort_perm right _).symm)
  refine List.Perm.eq_of_pairwise ?_ (sorted left) (sorted right) same
  intro first second _ _ before after
  exact String.le_antisymm (of_decide_eq_true before) (of_decide_eq_true after)

theorem WidgetAttribute.joinedClasses_eq {left right : Identity}
    (perm : left.classes.Perm right.classes) : joinedClasses left = joinedClasses right := by
  rw [joinedClasses, joinedClasses, sortNames_eq_of_perm perm]

/-! ## Attributes -/

namespace WidgetAttribute

/-- The flag behind an attribute, if there is one. -/
def flag? : WidgetAttribute → Option Flag
  | toggle flag | presence flag => some flag
  | classes | elementId | widgetType => none

theorem mem_of_lookup {name : String} {feature : WidgetAttribute} :
    ∀ {entries : List (String × WidgetAttribute)},
      entries.lookup name = some feature → (name, feature) ∈ entries
  | [], found => by cases found
  | entry :: rest, found => by
      rw [List.lookup_cons] at found
      split at found
      · rename_i same
        cases found
        rw [beq_iff_eq] at same
        rw [same]
        exact List.mem_cons_self
      · exact List.mem_cons_of_mem _ (mem_of_lookup found)

/-- No attribute asks whether a node is dirty. -/
theorem flag?_ne_dirty {name : String} {feature : WidgetAttribute}
    (found : ofName? name = some feature) : feature.flag? ≠ some .dirty := by
  have clean : ∀ entry, entry ∈ table → entry.2.flag? ≠ some .dirty := by decide
  exact clean _ (mem_of_lookup found)

theorem isPresent_eq {left right : Node} (like : left.Like right) {feature : WidgetAttribute}
    (notDirty : feature.flag? ≠ some .dirty) :
    feature.isPresent left.identity left.flags = feature.isPresent right.identity right.flags := by
  cases feature with
  | classes =>
      have empty : left.identity.classes.isEmpty = right.identity.classes.isEmpty := by
        rw [Bool.eq_iff_iff, List.isEmpty_iff, List.isEmpty_iff]
        exact ⟨fun none => (none ▸ like.classes).symm.eq_nil,
          fun none => (none ▸ like.classes).eq_nil⟩
      exact congrArg (!·) empty
  | elementId => exact congrArg Option.isSome like.elementId
  | widgetType => exact congrArg (fun name => !String.isEmpty name) like.widgetType
  | toggle flag => exact like.flags flag fun same => notDirty (congrArg some same)
  | presence flag => exact like.flags flag fun same => notDirty (congrArg some same)

theorem comparesWell_eq {left right : Node} (like : left.Like right) {feature : WidgetAttribute}
    (notDirty : feature.flag? ≠ some .dirty) (comparison : Comparison) (value : Option String)
    (ignoreCase : Bool) :
    feature.comparesWell comparison value ignoreCase left.identity left.flags =
      feature.comparesWell comparison value ignoreCase right.identity right.flags := by
  cases feature with
  | classes =>
      cases value with
      | none => rfl
      | some value =>
          simp only [comparesWell, joinedClasses_eq like.classes]
          rw [like.classes.any_eq]
  | elementId =>
      cases value with
      | none => rfl
      | some value => simp only [comparesWell, like.elementId]
  | widgetType =>
      cases value with
      | none => rfl
      | some value => simp only [comparesWell, like.widgetType]
  | toggle flag =>
      have same := like.flags flag fun same => notDirty (congrArg some same)
      simp only [comparesWell, same]
  | presence flag => cases value <;> rfl

end WidgetAttribute

theorem AttributeCondition.holdsOf_eq {left right : Node} (like : left.Like right)
    (condition : AttributeCondition) : condition.holdsOf left = condition.holdsOf right := by
  rw [holdsOf, holdsOf]
  cases found : WidgetAttribute.ofName? condition.name with
  | none => rfl
  | some feature =>
      have notDirty := WidgetAttribute.flag?_ne_dirty found
      cases condition.test with
      | present => exact WidgetAttribute.isPresent_eq like notDirty
      | compare comparison value ignoreCase =>
          exact WidgetAttribute.comparesWell_eq like notDirty comparison value ignoreCase

/-! ## Pseudo-classes and compounds -/

theorem StateClass.holdsOf_eq {left right : Node} (like : left.Like right) (fact : StateClass) :
    fact.holdsOf left = fact.holdsOf right := by
  cases fact with
  | focus => exact like.flags .focused nofun
  | hover => exact like.flags .hovered nofun
  | active => exact like.flags .active nofun
  | disabled => exact like.flags .disabled nofun
  | enabled => exact congrArg (!·) (like.flags .disabled nofun)
  | checked => exact like.flags .checked nofun
  | selected => exact like.flags .selected nofun
  | empty => exact like.flags .empty nofun
  | firstChild => exact congrArg Placement.isFirst like.placement
  | lastChild => exact congrArg Placement.isLast like.placement
  | onlyChild => exact congrArg Placement.isOnly like.placement

theorem PseudoClass.holdsOf_eq {left right : Node} (like : left.Like right)
    (pseudoClass : PseudoClass) : pseudoClass.holdsOf left = pseudoClass.holdsOf right := by
  induction pseudoClass with
  | state fact => exact fact.holdsOf_eq like
  | nthChild place => rw [holdsOf, holdsOf, like.placement]
  | nthLastChild place => rw [holdsOf, holdsOf, like.placement]
  | negation inner ih => rw [holdsOf, holdsOf, ih]
  | negationOfNothing => rfl

theorem Identity.hasClass_eq {left right : Identity} (perm : left.classes.Perm right.classes) :
    left.hasClass = right.hasClass := by
  funext name
  rw [hasClass, hasClass, Bool.eq_iff_iff, List.contains_iff_mem, List.contains_iff_mem,
    perm.mem_iff]

/-- Nodes that look alike meet the same compounds. -/
theorem Compound.holdsOf_eq {left right : Node} (like : left.Like right) (compound : Compound) :
    compound.holdsOf left = compound.holdsOf right := by
  have states : (fun pseudoClass : PseudoClass => pseudoClass.holdsOf left) =
      fun pseudoClass => pseudoClass.holdsOf right :=
    funext fun pseudoClass => pseudoClass.holdsOf_eq like
  have conditions : (fun condition : AttributeCondition => condition.holdsOf left) =
      fun condition => condition.holdsOf right :=
    funext fun condition => condition.holdsOf_eq like
  rw [holdsOf, holdsOf, states, conditions, like.widgetType, like.elementId,
    Identity.hasClass_eq like.classes]

end WidgetStyle
