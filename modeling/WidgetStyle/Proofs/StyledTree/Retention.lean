import WidgetStyle.Proofs.History.Ownership
import WidgetStyle.Proofs.History.Registration
import WidgetStyle.Proofs.StyledTree.Coherence
import WidgetStyle.Proofs.StyledTree.Steps

/-!
# What becomes of a node

A node that is there before a rebuild is there afterwards as it was, except that it may
have other classes and another place, or it is gone from the tree, the registry and the
cache.  No step of a rebuild does anything else to a node, and nodes that are gone do not
come back.
-/

namespace WidgetStyle

/-! ## Nodes that last -/

/-- The second node is the first one at a later time: of its type and element id, under its
parent, in its state but for the mark as dirty, and with its inline style. -/
structure Node.Lasts (former kept : Node) : Prop where
  widgetType : kept.identity.widgetType = former.identity.widgetType
  elementId : kept.identity.elementId = former.identity.elementId
  parent : kept.parent = former.parent
  flags : ∀ flag, flag ≠ .dirty → kept.flags.read flag = former.flags.read flag
  inlineStyle : kept.inlineStyle = former.inlineStyle

namespace Node.Lasts

variable {former middle kept : Node}

theorem trans (first : former.Lasts middle) (second : middle.Lasts kept) : former.Lasts kept where
  widgetType := second.widgetType.trans first.widgetType
  elementId := second.elementId.trans first.elementId
  parent := second.parent.trans first.parent
  flags flag shown := (second.flags flag shown).trans (first.flags flag shown)
  inlineStyle := second.inlineStyle.trans first.inlineStyle

/-- Of its core a node that lasts may only change the classes. -/
theorem of_core {classes : List String}
    (same : kept.core =
      { former.core with identity := { former.core.identity with classes } }) :
    former.Lasts kept where
  widgetType := congrArg (·.identity.widgetType) same
  elementId := congrArg (·.identity.elementId) same
  parent := congrArg (·.parent) same
  flags flag shown := by
    rw [← Node.read_core shown kept, same, ← Node.read_core shown former]
  inlineStyle := congrArg (·.inlineStyle) same

end Node.Lasts

namespace View

mutual

theorem nodup_classes_of_proper : (view : View) → view.Proper →
    ∀ identity ∈ view.identities, identity.classes.Nodup
  | .widget _ children => by
      intro proper identity member
      rcases List.mem_cons.mp member with rfl | inside
      · exact proper.1
      · exact nodup_classes_of_allProper children proper.2 identity inside

theorem nodup_classes_of_allProper : (views : List View) → AllProper views →
    ∀ identity ∈ allIdentities views, identity.classes.Nodup
  | [] => by
      intro _ identity member
      cases member
  | view :: rest => by
      intro proper identity member
      rcases List.mem_append.mp member with here | later
      · exact nodup_classes_of_proper view proper.1 identity here
      · exact nodup_classes_of_allProper rest proper.2 identity later

end

end View

namespace StyledTree

variable {start styled before middle after : StyledTree} {parent id top : NodeId}
  {identity : Identity} {done : List Identity} {order : List NodeId}

/-- The node is still there and lasts, and the style that was cached for it is cached still. -/
structure Retained (before after : StyledTree) (id : NodeId) : Prop where
  node : ∃ former kept, before.tree.get? id = some former ∧ after.tree.get? id = some kept ∧
    former.Lasts kept
  style : after.styles.get? id = before.styles.get? id

namespace Retained

theorem contains (retained : Retained before after id) : after.tree.contains id = true := by
  obtain ⟨_, _, _, found, _⟩ := retained.node
  exact Tree.contains_of_get? found

theorem trans (first : Retained before middle id) (second : Retained middle after id) :
    Retained before after id := by
  obtain ⟨former, between, found, reached, lasts⟩ := first.node
  obtain ⟨again, kept, foundAgain, last, onwards⟩ := second.node
  rw [reached] at foundAgain
  cases foundAgain
  exact ⟨⟨former, kept, found, last, lasts.trans onwards⟩, second.style.trans first.style⟩

theorem of_core (classes : List String → List String) (known : before.tree.contains id = true)
    (same : after.tree.core? id = (before.tree.core? id).map fun node =>
      { node with identity := { node.identity with classes := classes node.identity.classes } })
    (style : after.styles.get? id = before.styles.get? id) : Retained before after id := by
  obtain ⟨former, found⟩ := Tree.contains_iff.mp known
  rw [Tree.core?_of_get? found, Option.map_some] at same
  obtain ⟨kept, reached, core⟩ := Option.map_eq_some_iff.mp same
  exact ⟨⟨former, kept, found, reached, .of_core core⟩, style⟩

theorem of_core_eq (known : before.tree.contains id = true)
    (same : after.tree.core? id = before.tree.core? id)
    (style : after.styles.get? id = before.styles.get? id) : Retained before after id := by
  refine of_core (fun classes => classes) known ?_ style
  rw [same]
  exact (congrFun Option.map_id _).symm

end Retained

/-! ## Steps -/

/-- What a change does to nodes: it retains a node or forgets it, and brings none back. -/
structure Passes (before after : StyledTree) : Prop where
  nextId : before.tree.nextId.value ≤ after.tree.nextId.value
  former : ∀ {id}, after.tree.contains id = true → id.value < before.tree.nextId.value →
    before.tree.contains id = true
  uncached : ∀ {id}, before.styles.get? id = none → after.styles.get? id = none
  fate : ∀ {id}, before.tree.contains id = true → Retained before after id ∨
    after.tree.contains id = false ∧ after.styles.get? id = none

namespace Passes

theorem refl (styled : StyledTree) : Passes styled styled where
  nextId := Int.le_refl _
  former known _ := known
  uncached none := none
  fate known := .inl (.of_core_eq known rfl rfl)

theorem trans (linked : before.tree.Linked) (first : Passes before middle)
    (second : Passes middle after) : Passes before after where
  nextId := Int.le_trans first.nextId second.nextId
  former known older :=
    first.former (second.former known (Int.lt_of_lt_of_le older first.nextId)) older
  uncached none := second.uncached (first.uncached none)
  fate := by
    intro id known
    rcases first.fate known with retained | ⟨gone, uncached⟩
    · rcases second.fate retained.contains with still | lost
      · exact .inl (retained.trans still)
      · exact .inr lost
    · refine .inr ⟨?_, second.uncached uncached⟩
      rw [Bool.eq_false_iff] at gone ⊢
      intro back
      exact gone (second.former back (Int.lt_of_lt_of_le (linked.beforeNext known) first.nextId))

/-- A change that leaves alone what nodes are by themselves, and the cache too. -/
theorem of_confined {Touched : NodeId → Prop}
    (confined : before.tree.Confined after.tree Touched)
    (cores : ∀ {id}, before.tree.contains id = true → after.tree.core? id = before.tree.core? id)
    (styles : after.styles = before.styles) : Passes before after where
  nextId := confined.nextId
  former known older := (confined.former known older).1
  uncached none := by rwa [styles]
  fate known := .inl (.of_core_eq known (cores known) (by rw [styles]))

theorem appendChild (formed : before.tree.WellFormed)
    (added : before.appendChild parent identity = .ok (id, after)) : Passes before after := by
  obtain ⟨tree, grown, rfl⟩ := appendChild_eq_ok added
  refine .of_confined (formed.confined_append grown) ?_ rfl
  intro other known
  have appended := formed.appended grown
  rw [appended.core, if_neg]
  intro same
  rw [same, appended.new_eq] at known
  exact Int.lt_irrefl _ (formed.beforeNext known)

theorem permuteChildren {tree : Tree} (formed : before.tree.WellFormed)
    (permuted : before.tree.permuteChildren parent order = .ok tree) :
    Passes before { before with tree } :=
  .of_confined (formed.confined_permute permuted) (fun _ => (formed.permuted permuted).core _) rfl

theorem adopt (adopting : before.adopt? id identity = some after) : Passes before after := by
  rcases adopt?_eq_some adopting with rfl | ⟨tree, replaced, rfl⟩
  · exact .refl after
  · have confined := Tree.WellFormed.confined_reclass replaced
    have reclassed := Tree.reclassed replaced
    refine ⟨confined.nextId, fun known older => (confined.former known older).1,
      fun uncached => uncached, fun {other} known => .inl ?_⟩
    by_cases same : other = id
    · have core := reclassed.core other
      rw [if_pos same, ← same] at core
      exact .of_core (fun _ => identity.classes.foldl Identity.insertName []) known core rfl
    · exact .of_core_eq known (confined.core known same) rfl

theorem removeSubtree (formed : before.tree.WellFormed)
    (known : before.tree.contains top = true) : Passes before (before.removeSubtree top).2 := by
  have removed := formed.removed known
  have styles := get?_styles_removeSubtree formed known
  constructor
  · exact Int.le_of_eq (congrArg NodeId.value removed.nextId).symm
  · intro id alive _
    exact ((removed.contains_iff formed.toLinkedBy).mp alive).1
  · intro id none
    rw [styles, none, ite_self]
  · intro id there
    by_cases below : before.tree.Below top id
    · refine .inr ⟨?_, by rw [styles, if_pos (formed.toLinked.mem_subtree_iff.mpr below)]⟩
      rw [Bool.eq_false_iff]
      intro alive
      exact ((removed.contains_iff formed.toLinkedBy).mp alive).2 below
    · exact .inl (.of_core_eq there (formed.core?_removeSubtree known below)
        (by rw [styles, if_neg fun member => below (formed.toLinked.mem_subtree_iff.mp member)]))

end Passes

theorem Steps.passes (formed : start.tree.WellFormed) (steps : Steps start done styled) :
    Passes start styled := by
  have linked := formed.toLinked
  induction steps with
  | none => exact .refl start
  | append steps added ih => exact ih.trans linked (.appendChild (steps.wellFormed formed) added)
  | adopt _ _ adopting ih => exact ih.trans linked (.adopt adopting)
  | remove steps known _ ih =>
      exact ih.trans linked (.removeSubtree (steps.wellFormed formed) known)
  | permute steps permuted ih =>
      exact ih.trans linked (.permuteChildren (steps.wellFormed formed) permuted)

/-! ## The registry -/

/-- A node that takes over classes is of the type and element id of the identity, and it has its
identity set if its classes are others. -/
theorem exists_of_adopt? (adopting : before.adopt? id identity = some after) :
    ∃ node, before.tree.get? id = some node ∧
      node.identity.widgetType = identity.widgetType ∧
      node.identity.elementId = identity.elementId ∧
      (after = before ∨ after.tree = before.tree.setIdentity node
        { node.identity with classes := identity.classes.foldl Identity.insertName [] }) := by
  rw [adopt?] at adopting
  split at adopting
  · cases adopting
  · rename_i node found
    split at adopting
    · rename_i agree
      refine ⟨node, found, agree.1, agree.2, ?_⟩
      split at adopting
      · cases adopting
        exact .inl rfl
      · rw [Tree.replaceClasses, Tree.require, found] at adopting
        cases adopting
        exact .inr rfl
    · cases adopting

theorem rebooked_adopt? (adopting : before.adopt? id identity = some after) :
    before.tree.Rebooked after.tree := by
  obtain ⟨node, found, -, -, rfl | renamed⟩ := exists_of_adopt? adopting
  · exact (Tree.SameEntries.refl _).rebooked
  · rw [renamed]
    exact Tree.rebooked_setIdentity found (Identity.nodup_foldl_insertName List.nodup_nil _)

/-- The registry stays in step with the tree. -/
theorem Steps.registered (formed : start.tree.WellFormed) (registered : start.tree.Registered)
    (steps : Steps start done styled) (distinct : ∀ identity ∈ done, identity.classes.Nodup) :
    styled.tree.Registered := by
  induction steps with
  | none => exact registered
  | @append done _ _ _ _ identity steps added ih =>
      have earlier := ih fun other member => distinct other (List.mem_append_left _ member)
      have last := distinct identity (List.mem_append_right _ (List.mem_singleton_self _))
      obtain ⟨tree, grown, rfl⟩ := appendChild_eq_ok added
      exact earlier.rebooked ((steps.wellFormed formed).rebooked_appendChild last grown)
  | adopt _ _ adopting ih =>
      have earlier := ih fun other member => distinct other (List.mem_append_left _ member)
      exact earlier.rebooked (rebooked_adopt? adopting)
  | @remove _ styled top _ _ _ ih =>
      obtain ⟨gone, withdrawn⟩ := Tree.withdrawn_removeSubtree styled.tree top
      exact (ih distinct).withdrawn withdrawn
  | permute _ permuted ih =>
      exact (ih distinct).rebooked (Tree.sameEntries_permuteChildren permuted).rebooked

end StyledTree

end WidgetStyle
