import WidgetStyle.Proofs.Tree.Core

/-!
# Changes confined to a region

A change of a tree touches some nodes and leaves the others with what they are by
themselves and with the children they have.  Nodes are never moved: one that is
there before and after has the same parent, and ids are not handed out twice.
This is the frame that lets one part of a build be read apart from the rest.
-/

namespace WidgetStyle.Tree

/-- The node was there already, by itself as it is now and with the children it has now. -/
structure SameAt (before after : Tree) (id : NodeId) : Prop where
  known : before.contains id = true
  core : after.core? id = before.core? id
  children : after.childrenOf id = before.childrenOf id

theorem SameAt.trans {before middle after : Tree} {id : NodeId} (first : SameAt before middle id)
    (second : SameAt middle after id) : SameAt before after id where
  known := first.known
  core := second.core.trans first.core
  children := second.children.trans first.children

/-- A change that leaves alone what it does not touch, and moves no node. -/
structure Confined (before after : Tree) (Touched : NodeId → Prop) : Prop where
  core : ∀ {id}, before.contains id = true → ¬Touched id → after.core? id = before.core? id
  children : ∀ {id}, before.contains id = true → ¬Touched id →
    after.childrenOf id = before.childrenOf id
  nextId : before.nextId.value ≤ after.nextId.value
  former : ∀ {id}, after.contains id = true → id.value < before.nextId.value →
    before.contains id = true ∧ after.parentId? id = before.parentId? id

namespace Confined

variable {before middle after : Tree} {Touched Wider First Second : NodeId → Prop}

theorem refl (tree : Tree) : Confined tree tree Touched where
  core _ _ := rfl
  children _ _ := rfl
  nextId := Int.le_refl _
  former known _ := ⟨known, rfl⟩

theorem mono (confined : Confined before after Touched)
    (within : ∀ {id}, before.contains id = true → Touched id → Wider id) :
    Confined before after Wider where
  core known outside := confined.core known fun touched => outside (within known touched)
  children known outside := confined.children known fun touched => outside (within known touched)
  nextId := confined.nextId
  former := confined.former

theorem contains (confined : Confined before after Touched) {id : NodeId}
    (known : before.contains id = true) (outside : ¬Touched id) : after.contains id = true :=
  (contains_eq_of_core?_eq (confined.core known outside)).trans known

theorem trans (first : Confined before middle First) (second : Confined middle after Second) :
    Confined before after fun id => First id ∨ Second id where
  core := by
    intro id known outside
    have untouched := not_or.mp outside
    rw [second.core (first.contains known untouched.1) untouched.2, first.core known untouched.1]
  children := by
    intro id known outside
    have untouched := not_or.mp outside
    rw [second.children (first.contains known untouched.1) untouched.2,
      first.children known untouched.1]
  nextId := Int.le_trans first.nextId second.nextId
  former := by
    intro id known older
    have last := second.former known (Int.lt_of_lt_of_le older first.nextId)
    have earlier := first.former last.1 older
    exact ⟨earlier.1, last.2.trans earlier.2⟩

/-- What lies above a former node afterwards lay above it before. -/
theorem below (confined : Confined before after Touched) (linked : before.Linked)
    {top id : NodeId} (known : before.contains id = true) (under : after.Below top id) :
    before.Below top id := by
  induction under with
  | top => exact .top
  | child link _ ih =>
      have former := confined.former (contains_of_parentId? link) (linked.beforeNext known)
      rw [link] at former
      exact .child former.2.symm (ih (linked.contains_parent former.2.symm))

/-- Below a node from which on nothing is touched nothing is new. -/
theorem below_untouched
    (confined : Confined before after Touched) (linked : before.Linked)
    (afterLinked : after.Linked) {top id : NodeId}
    (known : before.contains top = true)
    (apart : ∀ id, before.Below top id → ¬Touched id) (below : after.Below top id) :
    before.Below top id ∧ before.contains id = true := by
  induction below with
  | top => exact ⟨.top, known⟩
  | child link _ ih =>
      have listed := afterLinked.childOf.mpr link
      rw [confined.children ih.2 (apart _ ih.1)] at listed
      exact ⟨.child (linked.childOf.mp listed) ih.1, linked.contains_child listed⟩

/-- What is below a new node is new. -/
theorem not_known_below (confined : Confined before after Touched) (linked : before.Linked)
    {top id : NodeId} (new : ¬before.contains top = true) (below : after.Below top id) :
    ¬before.contains id = true := by
  induction below with
  | top => exact new
  | child link _ ih =>
      intro known
      have former := confined.former (contains_of_parentId? link) (linked.beforeNext known)
      exact ih (linked.contains_parent (former.2.symm.trans link))

end Confined

/-! ## The operations of a build -/

namespace WellFormed

variable {tree after : Tree}

theorem confined_append (wellFormed : tree.WellFormed) {parent new : NodeId}
    {identity : Identity} (added : tree.appendChild parent identity = .ok (new, after)) :
    Confined tree after (· = parent) := by
  have appended := wellFormed.appended added
  have older : ∀ {id : NodeId}, id.value < tree.nextId.value → id ≠ new := by
    intro id older same
    rw [same, appended.new_eq] at older
    exact Int.lt_irrefl _ older
  have cores : ∀ {id : NodeId}, id.value < tree.nextId.value →
      after.core? id = tree.core? id := by
    intro id before
    rw [appended.core, if_neg (older before)]
  constructor
  · intro id known _
    exact cores (wellFormed.beforeNext known)
  · intro id _ outside
    rw [appended.children, if_neg outside]
  · rw [appended.nextId]
    exact Int.le_of_lt (Int.lt_succ _)
  · intro id known before
    exact ⟨(contains_eq_of_core?_eq (cores before)).symm.trans known,
      parentId?_eq_of_core?_eq (cores before)⟩

theorem confined_remove (wellFormed : tree.WellFormed) {id parent : NodeId}
    (link : tree.parentId? id = some parent) :
    Confined tree (tree.removeSubtree id).2 fun other => other = parent ∨ tree.Below id other := by
  have known := contains_of_parentId? link
  have linked := wellFormed.toLinked
  have removed := wellFormed.removed known
  constructor
  · intro other _ outside
    exact wellFormed.core?_removeSubtree known (not_or.mp outside).2
  · intro other _ outside
    rw [removed.children (not_or.mp outside).2, linked.erase_childrenOf]
    intro same
    rw [link] at same
    exact outside (.inl (Option.some.inj same).symm)
  · exact Int.le_of_eq (congrArg NodeId.value removed.nextId).symm
  · intro other alive _
    have kept := (removed.contains_iff linked.toLinkedBy).mp alive
    exact ⟨kept.1, removed.parents kept.2⟩

theorem confined_permute (wellFormed : tree.WellFormed) {parent : NodeId} {order : List NodeId}
    (done : tree.permuteChildren parent order = .ok after) :
    Confined tree after (· = parent) := by
  have permuted := wellFormed.permuted done
  constructor
  · intro id _ _
    exact permuted.core id
  · intro id _ outside
    rw [permuted.children, if_neg outside]
  · exact Int.le_of_eq (congrArg NodeId.value permuted.nextId).symm
  · intro id known _
    exact ⟨(contains_eq_of_core?_eq (permuted.core id)).symm.trans known,
      parentId?_eq_of_core?_eq (permuted.core id)⟩

theorem confined_reclass {changed : NodeId} {classes : List String}
    (done : tree.replaceClasses changed classes = .ok after) :
    Confined tree after (· = changed) := by
  have reclassed := reclassed done
  constructor
  · intro id _ outside
    rw [reclassed.core, if_neg outside]
  · intro id _ _
    exact (reclassed.links.children id).symm
  · exact Int.le_of_eq (congrArg NodeId.value reclassed.links.nextId)
  · intro id known _
    exact ⟨(reclassed.links.contains_eq id).trans known, (reclassed.links.parents id).symm⟩

end WellFormed

end WidgetStyle.Tree
