import WidgetStyle.Proofs.Tree.Growth

/-!
# Removal

Taking out a subtree keeps a tree well-formed.  The node is first struck from its
parent's children, after which its subtree is still what it was, and then the
subtree is dropped.  What remains keeps its links, and of the children lists only
the one of the parent is shorter.
-/

namespace WidgetStyle.Tree

/-! ## Dropping nodes -/

@[simp] theorem get?_dropNodes (tree : Tree) (ids : List NodeId) (id : NodeId) :
    (tree.dropNodes ids).get? id = if id ∈ ids then none else tree.get? id := by
  rw [get?, dropNodes, List.find?_filter]
  split
  · rename_i dropped
    rw [List.find?_eq_none]
    intro node _
    by_cases same : node.id = id <;> simp [same, dropped]
  · rename_i kept
    apply congrArg (List.find? · tree.nodes)
    funext node
    by_cases same : node.id = id <;> simp [same, kept]

@[simp] theorem ids_dropNodes (tree : Tree) (ids : List NodeId) :
    (tree.dropNodes ids).nodes.map (·.id) =
      (tree.nodes.map (·.id)).filter fun id => !ids.contains id := by
  rw [dropNodes, List.filter_map]
  rfl

/-! ## Striking a node from its parent's children -/

/-- The tree with a node struck from the children of another one, before these are
put in their places. -/
def struck (tree : Tree) (parent id : NodeId) : Tree :=
  tree.modify parent fun node => { node with children := node.children.erase id }

theorem get?_struck (tree : Tree) (parent id other : NodeId) :
    (tree.struck parent id).get? other =
      if other = parent then
        (tree.get? parent).map fun node => { node with children := node.children.erase id }
      else tree.get? other :=
  get?_modify tree parent other _ fun _ => rfl

theorem detach_root {tree : Tree} {node : Node} (parentless : node.parent = none) :
    tree.detach node = tree := by
  rw [detach, parent?, parentless]
  rfl

theorem detach_child {birth : NodeId → Int} {tree : Tree} (linked : tree.LinkedBy birth)
    {id parent : NodeId} {node : Node} (found : tree.get? id = some node)
    (link : node.parent = some parent) :
    tree.detach node = (tree.struck parent id).placeChildren parent := by
  have above : tree.parentId? id = some parent := (parentId?_of_get? found).trans link
  obtain ⟨parentNode, lookup⟩ := contains_iff.mp (linked.contains_parent above)
  rw [detach, parent?, link, Option.bind_some, lookup, id_of_get? found]
  simp only [id_of_get? lookup]
  rfl

/-- What detaching a node changes in the links: it is struck from all children. -/
structure Detached (before after : Tree) (id : NodeId) : Prop where
  ids : after.nodes.map (·.id) = before.nodes.map (·.id)
  root : after.root = before.root
  nextId : after.nextId = before.nextId
  parents : ∀ other, after.parentId? other = before.parentId? other
  children : ∀ other, after.childrenOf other = (before.childrenOf other).erase id
  placed : ∀ {parent child : NodeId} {place : Nat} {node : Node},
    (after.childrenOf parent)[place]? = some child → after.get? child = some node →
      node.placement = Placement.ofIndex place (after.childrenOf parent).length

namespace LinkedBy

variable {birth : NodeId → Int} {tree : Tree}

theorem erase_childrenOf (linked : tree.LinkedBy birth) {id other : NodeId}
    (apart : tree.parentId? id ≠ some other) :
    (tree.childrenOf other).erase id = tree.childrenOf other :=
  List.erase_of_not_mem fun member => apart (linked.childOf.mp member)

theorem childrenOf_struck (linked : tree.LinkedBy birth) {parent id : NodeId}
    (link : tree.parentId? id = some parent) (other : NodeId) :
    (tree.struck parent id).childrenOf other = (tree.childrenOf other).erase id := by
  obtain ⟨node, found⟩ := contains_iff.mp (linked.contains_parent link)
  rw [childrenOf, get?_struck]
  by_cases same : other = parent
  · rw [if_pos same, found, same, childrenOf_of_get? found]
    rfl
  · have apart : tree.parentId? id ≠ some other := by
      rw [link]
      exact fun equal => same (Option.some.inj equal).symm
    rw [if_neg same, linked.erase_childrenOf apart, childrenOf]

theorem childrenOf_struck_of_ne (linked : tree.LinkedBy birth) {parent id other : NodeId}
    (link : tree.parentId? id = some parent) (apart : other ≠ parent) :
    (tree.struck parent id).childrenOf other = tree.childrenOf other := by
  rw [linked.childrenOf_struck link, linked.erase_childrenOf]
  rw [link]
  exact fun same => apart (Option.some.inj same).symm

end LinkedBy

@[simp] theorem ids_struck (tree : Tree) (parent id : NodeId) :
    (tree.struck parent id).nodes.map (·.id) = tree.nodes.map (·.id) := by
  rw [struck, modify_eq_mapNodes, mapNodes, List.map_map]
  apply List.map_congr_left
  intro node _
  simp only [Function.comp_apply]
  split <;> rfl

@[simp] theorem size_struck (tree : Tree) (parent id : NodeId) :
    (tree.struck parent id).size = tree.size := by
  have lengths := congrArg List.length (ids_struck tree parent id)
  rwa [List.length_map, List.length_map] at lengths

@[simp] theorem parentId?_struck (tree : Tree) (parent id other : NodeId) :
    (tree.struck parent id).parentId? other = tree.parentId? other := by
  rw [parentId?, get?_struck]
  split
  · rename_i same
    rw [same, parentId?, Option.bind_map]
    rfl
  · rfl

theorem FormedBy.detach {birth : NodeId → Int} {tree : Tree} (formed : tree.FormedBy birth)
    {id : NodeId} {node : Node} (found : tree.get? id = some node) :
    Detached tree (tree.detach node) id := by
  have linked := formed.toLinkedBy
  cases link : node.parent with
  | none =>
      rw [detach_root link]
      have apart : ∀ other, tree.parentId? id ≠ some other := by
        intro other
        rw [parentId?_of_get? found, link]
        exact nofun
      exact
        { ids := rfl, root := rfl, nextId := rfl, parents := fun _ => rfl
          children := fun other => (linked.erase_childrenOf (apart other)).symm
          placed := fun listed lookup => formed.placed listed lookup }
  | some parent =>
      have above : tree.parentId? id = some parent := (parentId?_of_get? found).trans link
      have links := sameLinks_placeChildren (tree.struck parent id) parent
      have children : ∀ other, ((tree.struck parent id).placeChildren parent).childrenOf other =
          (tree.childrenOf other).erase id := fun other =>
        (links.children other).symm.trans (linked.childrenOf_struck above other)
      rw [detach_child linked found link]
      refine
        { ids := links.ids.symm.trans (ids_struck tree parent id)
          root := links.root.symm
          nextId := links.nextId.symm
          parents := fun other =>
            (links.parents other).symm.trans (parentId?_struck tree parent id other)
          children
          placed := ?_ }
      intro target child place former listed lookup
      have distinct : ((tree.struck parent id).childrenOf parent).Nodup := by
        rw [linked.childrenOf_struck above]
        exact (linked.childrenDistinct parent).erase id
      rw [← links.children] at listed ⊢
      apply placement_placeChildren distinct _ _ listed lookup
      · intro different member
        rw [linked.childrenOf_struck_of_ne above different] at listed
        rw [linked.childrenOf_struck above] at member
        have first := linked.childOf.mp (List.mem_of_mem_erase member)
        rw [linked.childOf.mp (List.mem_of_getElem? listed)] at first
        exact different (Option.some.inj first)
      · intro different before beforeFound
        rw [linked.childrenOf_struck_of_ne above different] at listed ⊢
        rw [get?_struck] at beforeFound
        split at beforeFound
        · rename_i equal
          obtain ⟨origin, originFound, rfl⟩ := Option.map_eq_some_iff.mp beforeFound
          rw [equal] at listed
          have placed := formed.placed listed originFound
          exact placed
        · exact formed.placed listed beforeFound

/-- What lies below a child is still there when one is struck. -/
theorem LinkedBy.subtree_struck {birth : NodeId → Int} {tree : Tree}
    (linked : tree.LinkedBy birth) {parent id child : NodeId}
    (link : tree.parentId? id = some parent) (childLink : tree.parentId? child = some parent) :
    (tree.struck parent id).subtree child = tree.subtree child := by
  apply linked.subtree_of_child childLink (Nat.le_of_eq (size_struck tree parent id).symm)
  exact fun other _ apart => linked.childrenOf_struck_of_ne link apart

/-- Without a child there are fewer siblings. -/
theorem FormedBy.not_isClean_struck {birth : NodeId → Int} {tree : Tree}
    (formed : tree.FormedBy birth) {parent id other : NodeId}
    (link : tree.parentId? id = some parent) (strict : tree.StrictlyBelow parent other)
    (kept : ¬tree.Below id other) :
    ¬((tree.struck parent id).placeChildren parent).IsClean other := by
  have linked := formed.toLinkedBy
  have struckChildren : (tree.struck parent id).childrenOf parent =
      (tree.childrenOf parent).erase id := linked.childrenOf_struck link parent
  obtain ⟨child, childLink, below⟩ := Below.exists_child strict
  have remains : child ≠ id := fun same => kept (same ▸ below)
  refine formed.not_isClean_of_resized ?_ ?_ ?_ ?_ ?_ childLink ?_ below
  · rw [struckChildren]
    exact (linked.childrenDistinct parent).erase id
  · have member := linked.childOf.mpr link
    have occupied := List.length_pos_of_mem member
    rw [struckChildren, List.length_erase_of_mem member]
    omega
  · exact Nat.le_of_eq (size_struck tree parent id).symm
  · exact fun inner _ apart => linked.childrenOf_struck_of_ne link apart
  · rw [struckChildren]
    exact (List.mem_erase_of_ne remains).mpr (linked.childOf.mpr childLink)
  · rw [get?_struck, if_neg (linked.ne_parent childLink)]

/-- A detached subtree is still what it was. -/
theorem Detached.subtree_eq {birth : NodeId → Int} {before after : Tree}
    (linked : before.LinkedBy birth) {id : NodeId} (detached : Detached before after id)
    (known : before.contains id = true) :
    after.subtree id = before.subtree id := by
  have sizes : after.size = before.size := by
    have lengths := congrArg List.length detached.ids
    rwa [List.length_map, List.length_map] at lengths
  refine linked.subtree_congr known (Nat.le_of_eq sizes.symm) ?_
  intro other met
  rw [detached.children]
  apply linked.erase_childrenOf
  intro link
  exact linked.not_strictlyBelow_self id ⟨other, link, linked.mem_subtree_iff.mp met⟩

/-! ## Removing a subtree -/

theorem removeSubtree_unknown {tree : Tree} {id : NodeId} (unknown : tree.get? id = none) :
    tree.removeSubtree id = ([], tree) := by
  rw [removeSubtree, unknown]

/-- What is removed with a node is its subtree. -/
theorem FormedBy.removeSubtree_of_get? {birth : NodeId → Int} {tree : Tree}
    (formed : tree.FormedBy birth) {id : NodeId} {node : Node} (found : tree.get? id = some node) :
    tree.removeSubtree id =
      (tree.subtree id,
        { (tree.detach node).dropNodes (tree.subtree id) with
          root := if tree.root = some id then none else tree.root }) := by
  have detached := formed.detach found
  have same := detached.subtree_eq formed.toLinkedBy (contains_of_get? found)
  have root : ((tree.detach node).dropNodes (tree.subtree id)).root = tree.root := detached.root
  rw [removeSubtree, found]
  simp only [same, root]
  split
  · rfl
  · rw [← root]

/-- What a tree looks like after a subtree was removed from it. -/
structure Removed (before after : Tree) (id : NodeId) : Prop where
  ids : after.nodes.map (·.id) =
    (before.nodes.map (·.id)).filter fun other => !(before.subtree id).contains other
  root : after.root = if before.root = some id then none else before.root
  nextId : after.nextId = before.nextId
  dropped : ∀ {other}, before.Below id other → after.get? other = none
  parents : ∀ {other}, ¬before.Below id other → after.parentId? other = before.parentId? other
  children : ∀ {other}, ¬before.Below id other →
    after.childrenOf other = (before.childrenOf other).erase id
  placed : ∀ {parent child : NodeId} {place : Nat} {node : Node},
    (after.childrenOf parent)[place]? = some child → after.get? child = some node →
      node.placement = Placement.ofIndex place (after.childrenOf parent).length

theorem FormedBy.get?_removeSubtree {birth : NodeId → Int} {tree : Tree}
    (formed : tree.FormedBy birth) {id : NodeId} {node : Node} (found : tree.get? id = some node)
    (other : NodeId) :
    (tree.removeSubtree id).2.get? other =
      if other ∈ tree.subtree id then none else (tree.detach node).get? other := by
  rw [formed.removeSubtree_of_get? found]
  exact get?_dropNodes (tree.detach node) (tree.subtree id) other

theorem FormedBy.removed {birth : NodeId → Int} {tree : Tree} (formed : tree.FormedBy birth)
    {id : NodeId} (known : tree.contains id = true) :
    Removed tree (tree.removeSubtree id).2 id := by
  obtain ⟨node, found⟩ := contains_iff.mp known
  have linked := formed.toLinkedBy
  have detached := formed.detach found
  have lookup := formed.get?_removeSubtree found
  have kept : ∀ {other}, ¬tree.Below id other →
      (tree.removeSubtree id).2.get? other = (tree.detach node).get? other := by
    intro other outside
    rw [lookup, if_neg fun member => outside (linked.mem_subtree_iff.mp member)]
  have children : ∀ {other}, ¬tree.Below id other →
      (tree.removeSubtree id).2.childrenOf other = (tree.detach node).childrenOf other := by
    intro other outside
    rw [childrenOf, kept outside, childrenOf]
  refine
    { ids := ?_, root := ?_, nextId := ?_, dropped := ?_, parents := ?_
      children := ?_, placed := ?_ }
  · rw [formed.removeSubtree_of_get? found, ← detached.ids]
    exact ids_dropNodes (tree.detach node) (tree.subtree id)
  · rw [formed.removeSubtree_of_get? found]
  · rw [formed.removeSubtree_of_get? found]
    exact detached.nextId
  · intro other below
    rw [lookup, if_pos (linked.mem_subtree_iff.mpr below)]
  · intro other outside
    rw [parentId?, kept outside]
    exact detached.parents other
  · intro other outside
    rw [children outside]
    exact detached.children other
  · intro parent child place former listed childFound
    have parentKept : ¬tree.Below id parent := by
      intro below
      rw [childrenOf, lookup, if_pos (linked.mem_subtree_iff.mpr below)] at listed
      cases listed
    have childKept : ¬tree.Below id child := by
      intro below
      rw [lookup, if_pos (linked.mem_subtree_iff.mpr below)] at childFound
      cases childFound
    rw [children parentKept] at listed ⊢
    rw [kept childKept] at childFound
    exact detached.placed listed childFound

namespace Removed

variable {birth : NodeId → Int} {before after : Tree} {id : NodeId}

theorem contains_iff (linked : before.LinkedBy birth) (removed : Removed before after id)
    {other : NodeId} :
    after.contains other = true ↔ before.contains other = true ∧ ¬before.Below id other := by
  rw [contains_iff_mem, removed.ids, List.mem_filter, ← contains_iff_mem,
    ← linked.mem_subtree_iff]
  simp

theorem childrenOf_dropped (removed : Removed before after id) {other : NodeId}
    (below : before.Below id other) : after.childrenOf other = [] :=
  childrenOf_eq_nil (removed.dropped below)

theorem parentId?_dropped (removed : Removed before after id) {other : NodeId}
    (below : before.Below id other) : after.parentId? other = none := by
  rw [parentId?, removed.dropped below]
  rfl

/-- The nodes that are left are as old as they were. -/
theorem linkedBy (linked : before.LinkedBy birth) (removed : Removed before after id) :
    after.LinkedBy birth where
  distinct := by
    rw [removed.ids]
    exact linked.distinct.filter _
  rootFound := by
    intro root rooted
    rw [removed.root] at rooted
    split at rooted
    · cases rooted
    · rename_i different
      have found := linked.rootFound rooted
      have outside : ¬before.Below id root := by
        intro below
        rcases below.cases_top with rfl | ⟨parent, link, -⟩
        · exact different rooted
        · rw [found.2] at link
          cases link
      rw [removed.contains_iff linked, removed.parents outside]
      exact ⟨⟨found.1, outside⟩, found.2⟩
  rootOnly := by
    intro other member parentless
    have old := (removed.contains_iff linked).mp member
    rw [removed.parents old.2] at parentless
    have rooted := linked.rootOnly old.1 parentless
    rw [removed.root, rooted, if_neg]
    intro same
    exact old.2 (Option.some.inj same ▸ .top)
  childOf := by
    intro child parent
    by_cases childBelow : before.Below id child
    · rw [removed.parentId?_dropped childBelow]
      refine ⟨?_, nofun⟩
      intro member
      have parentKept : ¬before.Below id parent := by
        intro below
        rw [removed.childrenOf_dropped below] at member
        cases member
      rw [removed.children parentKept,
        (linked.childrenDistinct parent).mem_erase_iff] at member
      rcases childBelow.cases_top with same | ⟨above, link, under⟩
      · exact absurd same member.1
      · rw [linked.childOf.mp member.2] at link
        cases link
        exact absurd under parentKept
    · rw [removed.parents childBelow, ← linked.childOf]
      by_cases parentBelow : before.Below id parent
      · rw [removed.childrenOf_dropped parentBelow]
        refine ⟨fun member => (List.not_mem_nil member).elim, ?_⟩
        intro member
        exact absurd (.child (linked.childOf.mp member) parentBelow) childBelow
      · rw [removed.children parentBelow, (linked.childrenDistinct parent).mem_erase_iff]
        refine ⟨fun member => member.2, fun member => ⟨?_, member⟩⟩
        rintro rfl
        exact childBelow .top
  parentOlder := by
    intro child parent link
    by_cases below : before.Below id child
    · rw [removed.parentId?_dropped below] at link
      cases link
    · rw [removed.parents below] at link
      exact linked.parentOlder link
  childrenDistinct := by
    intro other
    by_cases below : before.Below id other
    · rw [removed.childrenOf_dropped below]
      exact .nil
    · rw [removed.children below]
      exact (linked.childrenDistinct other).erase id

theorem linked (linked : before.Linked) (removed : Removed before after id) :
    after.Linked where
  toLinkedBy := (removed.linkedBy linked.toLinkedBy).aged
  beforeNext member :=
    removed.nextId ▸ linked.beforeNext ((removed.contains_iff linked.toLinkedBy).mp member).1

end Removed

/-- Removing a subtree keeps a tree well-formed. -/
theorem WellFormed.removeSubtree {tree : Tree} (wellFormed : tree.WellFormed) (id : NodeId) :
    (tree.removeSubtree id).2.WellFormed := by
  cases found : tree.get? id with
  | none => rw [removeSubtree_unknown found]; exact wellFormed
  | some node =>
      have removed := wellFormed.removed (contains_of_get? found)
      exact
        { toLinked := removed.linked wellFormed.toLinked
          placed := fun listed lookup => removed.placed listed lookup }

/-- A tree whose root was removed has no nodes left. -/
theorem WellFormed.nodes_removeSubtree_root {tree : Tree} (wellFormed : tree.WellFormed)
    {root : NodeId} (rooted : tree.root = some root) :
    (tree.removeSubtree root).2.nodes = [] := by
  have removed := wellFormed.removed (wellFormed.rootFound rooted).1
  apply (wellFormed.removeSubtree root).toLinked.nodes_eq_nil
  rw [removed.root, if_pos rooted]

/-- Planting a root leaves that root and nothing else. -/
theorem WellFormed.nodes_plantRoot {tree : Tree} (wellFormed : tree.WellFormed)
    (identity : Identity) :
    (tree.plantRoot identity).2.nodes = [tree.newNode identity none] := by
  cases rooted : tree.root with
  | none =>
      rw [plantRoot, rooted]
      change tree.nodes ++ [tree.newNode identity none] = _
      rw [wellFormed.toLinked.nodes_eq_nil rooted, List.nil_append]
  | some root =>
      have removed := wellFormed.removed (wellFormed.rootFound rooted).1
      rw [plantRoot, rooted]
      change (tree.removeSubtree root).2.nodes ++
        [(tree.removeSubtree root).2.newNode identity none] = _
      rw [wellFormed.nodes_removeSubtree_root rooted, List.nil_append, newNode, newNode,
        removed.nextId]

theorem WellFormed.plantRoot_eq {tree : Tree} (wellFormed : tree.WellFormed)
    (identity : Identity) :
    ∃ registry, tree.plantRoot identity =
      (tree.nextId,
        { nodes := [tree.newNode identity none], root := some tree.nextId, registry,
          nextId := tree.nextId.next }) := by
  have nodes := wellFormed.nodes_plantRoot identity
  refine ⟨(tree.plantRoot identity).2.registry, ?_⟩
  cases rooted : tree.root with
  | none =>
      rw [plantRoot, rooted] at nodes ⊢
      rw [← nodes]
      rfl
  | some root =>
      have removed := wellFormed.removed (wellFormed.rootFound rooted).1
      rw [plantRoot, rooted] at nodes ⊢
      rw [← nodes, ← removed.nextId]
      rfl

/-- Planting a root keeps a tree well-formed. -/
theorem WellFormed.plantRoot {tree : Tree} (wellFormed : tree.WellFormed) (identity : Identity) :
    (tree.plantRoot identity).2.WellFormed := by
  obtain ⟨registry, planted⟩ := wellFormed.plantRoot_eq identity
  rw [planted]
  refine wellFormed_singleton (tree.newNode identity none) registry tree.nextId.next ?_ rfl rfl
  change tree.nextId.value < tree.nextId.value + 1
  omega

end WidgetStyle.Tree
