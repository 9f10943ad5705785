import WidgetStyle.Proofs.Tree.Descent

/-!
# Outlines

Two ways to say that a change of a tree leaves something alone.  Trees have the
same links when no node came, went or moved.  They have the same outline when,
besides, no node changed in anything but its style, its mark as dirty and its
entries in the registry, which is all that matching looks at.
-/

namespace WidgetStyle

/-- The node without its style and without the mark as dirty. -/
def Node.outline (node : Node) : Node :=
  { node with computed := none, flags := { node.flags with dirty := false } }

namespace Tree

/-! ## Changing all nodes -/

/-- The tree with every node changed. -/
def mapNodes (tree : Tree) (change : Node → Node) : Tree :=
  { tree with nodes := tree.nodes.map change }

theorem get?_mapNodes (tree : Tree) (id : NodeId) (change : Node → Node)
    (keepsId : ∀ node, (change node).id = node.id) :
    (tree.mapNodes change).get? id = (tree.get? id).map change := by
  rw [get?, get?, mapNodes, List.find?_map]
  simp only [Function.comp_def, keepsId]

theorem modify_eq_mapNodes (tree : Tree) (id : NodeId) (change : Node → Node) :
    tree.modify id change =
      tree.mapNodes fun node => if node.id = id then change node else node := rfl

/-! ## Trees with the same links -/

/-- Two trees have the same nodes in the same places. -/
structure SameLinks (left right : Tree) : Prop where
  ids : left.nodes.map (·.id) = right.nodes.map (·.id)
  root : left.root = right.root
  nextId : left.nextId = right.nextId
  parents : ∀ id, left.parentId? id = right.parentId? id
  children : ∀ id, left.childrenOf id = right.childrenOf id

namespace SameLinks

variable {left middle right : Tree}

theorem refl (tree : Tree) : SameLinks tree tree :=
  ⟨rfl, rfl, rfl, fun _ => rfl, fun _ => rfl⟩

theorem symm (same : SameLinks left right) : SameLinks right left where
  ids := same.ids.symm
  root := same.root.symm
  nextId := same.nextId.symm
  parents id := (same.parents id).symm
  children id := (same.children id).symm

theorem trans (first : SameLinks left middle) (second : SameLinks middle right) :
    SameLinks left right where
  ids := first.ids.trans second.ids
  root := first.root.trans second.root
  nextId := first.nextId.trans second.nextId
  parents id := (first.parents id).trans (second.parents id)
  children id := (first.children id).trans (second.children id)

theorem contains_eq (same : SameLinks left right) (id : NodeId) :
    left.contains id = right.contains id := by
  rw [Bool.eq_iff_iff, contains_iff_mem, contains_iff_mem, same.ids]

theorem size_eq (same : SameLinks left right) : left.size = right.size := by
  have lengths := congrArg List.length same.ids
  rwa [List.length_map, List.length_map] at lengths

theorem collect_eq (same : SameLinks left right) (bound : Nat) (stack : List NodeId) :
    left.collect bound stack = right.collect bound stack := by
  induction bound generalizing stack with
  | zero => cases stack <;> rfl
  | succ bound ih =>
      cases stack with
      | nil => rfl
      | cons id stack => rw [collect, collect, same.children, ih]

theorem subtree_eq (same : SameLinks left right) (id : NodeId) :
    left.subtree id = right.subtree id := by
  rw [subtree, subtree, descendants, descendants, same.size_eq, same.children, same.collect_eq]

theorem below (same : SameLinks left right) {top id : NodeId} (under : left.Below top id) :
    right.Below top id := by
  induction under with
  | top => exact .top
  | child link _ ih => exact .child (same.parents _ ▸ link) ih

theorem below_iff (same : SameLinks left right) {top id : NodeId} :
    left.Below top id ↔ right.Below top id :=
  ⟨same.below, same.symm.below⟩

theorem linkedBy {birth : NodeId → Int} (same : SameLinks left right)
    (linked : left.LinkedBy birth) : right.LinkedBy birth where
  distinct := same.ids ▸ linked.distinct
  rootFound rooted := by
    have found := linked.rootFound (same.root.trans rooted)
    exact ⟨same.contains_eq _ ▸ found.1, same.parents _ ▸ found.2⟩
  rootOnly known parentless :=
    same.root ▸ linked.rootOnly ((same.contains_eq _).trans known)
      ((same.parents _).trans parentless)
  childOf := by
    intro child parent
    rw [← same.children, ← same.parents]
    exact linked.childOf
  parentOlder link := linked.parentOlder ((same.parents _).trans link)
  childrenDistinct id := same.children id ▸ linked.childrenDistinct id

theorem linked (same : SameLinks left right) (linked : left.Linked) : right.Linked where
  toLinkedBy := (same.linkedBy linked.toLinkedBy).aged
  beforeNext known :=
    same.nextId ▸ linked.beforeNext ((same.contains_eq _).trans known)

end SameLinks

/-- A change of nodes that keeps their links keeps the links of the tree. -/
theorem sameLinks_mapNodes (tree : Tree) (change : Node → Node)
    (keepsId : ∀ node, (change node).id = node.id)
    (keepsParent : ∀ node, (change node).parent = node.parent)
    (keepsChildren : ∀ node, (change node).children = node.children) :
    SameLinks tree (tree.mapNodes change) where
  ids := by
    rw [mapNodes, List.map_map]
    exact List.map_congr_left fun node _ => (keepsId node).symm
  root := rfl
  nextId := rfl
  parents id := by
    rw [parentId?, parentId?, get?_mapNodes _ _ _ keepsId]
    cases tree.get? id with
    | none => rfl
    | some node => exact (keepsParent node).symm
  children id := by
    rw [childrenOf, childrenOf, get?_mapNodes _ _ _ keepsId]
    cases tree.get? id with
    | none => rfl
    | some node => exact (keepsChildren node).symm

/-- A change of one node that keeps its links keeps the links of the tree. -/
theorem sameLinks_modify (tree : Tree) (id : NodeId) (change : Node → Node)
    (keepsId : ∀ node, (change node).id = node.id)
    (keepsParent : ∀ node, (change node).parent = node.parent)
    (keepsChildren : ∀ node, (change node).children = node.children) :
    SameLinks tree (tree.modify id change) := by
  rw [modify_eq_mapNodes]
  apply sameLinks_mapNodes <;> intro node <;> split
  · exact keepsId node
  · rfl
  · exact keepsParent node
  · rfl
  · exact keepsChildren node
  · rfl

/-! ## Trees with the same outline -/

/-- Two trees differ at most in styles, marks as dirty and registries. -/
structure SameOutline (left right : Tree) : Prop where
  nodes : left.nodes.map Node.outline = right.nodes.map Node.outline
  root : left.root = right.root
  nextId : left.nextId = right.nextId

namespace SameOutline

variable {left middle right : Tree}

theorem refl (tree : Tree) : SameOutline tree tree :=
  ⟨rfl, rfl, rfl⟩

theorem symm (same : SameOutline left right) : SameOutline right left :=
  ⟨same.nodes.symm, same.root.symm, same.nextId.symm⟩

theorem trans (first : SameOutline left middle) (second : SameOutline middle right) :
    SameOutline left right :=
  ⟨first.nodes.trans second.nodes, first.root.trans second.root,
    first.nextId.trans second.nextId⟩

/-- The outline of a node is found in the outlines of all nodes. -/
theorem map_outline_get? (tree : Tree) (id : NodeId) :
    (tree.get? id).map Node.outline =
      (tree.nodes.map Node.outline).find? fun node => decide (node.id = id) := by
  rw [List.find?_map]
  rfl

theorem get? (same : SameOutline left right) (id : NodeId) :
    (left.get? id).map Node.outline = (right.get? id).map Node.outline := by
  rw [map_outline_get?, map_outline_get?, same.nodes]

/-- A node of the one tree has its counterpart in the other one. -/
theorem exists_get? (same : SameOutline left right) {id : NodeId} {node : Node}
    (found : left.get? id = some node) :
    ∃ other, right.get? id = some other ∧ other.outline = node.outline := by
  have outlines := same.get? id
  rw [found] at outlines
  exact Option.map_eq_some_iff.mp outlines.symm

theorem sameLinks (same : SameOutline left right) : SameLinks left right where
  ids := by
    have outlines := congrArg (List.map (·.id)) same.nodes
    rwa [List.map_map, List.map_map] at outlines
  root := same.root
  nextId := same.nextId
  parents id := by
    have outlines := congrArg (Option.bind · (·.parent)) (same.get? id)
    simp only [Option.bind_map] at outlines
    exact outlines
  children id := by
    cases found : left.get? id with
    | none =>
        have outlines := same.get? id
        rw [found] at outlines
        rw [childrenOf_eq_nil found, childrenOf_eq_nil (Option.map_eq_none_iff.mp outlines.symm)]
    | some node =>
        obtain ⟨other, otherFound, outlines⟩ := same.exists_get? found
        rw [childrenOf_of_get? found, childrenOf_of_get? otherFound]
        exact (congrArg (·.children) outlines).symm

end SameOutline

/-- A change of nodes that keeps their outlines keeps the outline of the tree. -/
theorem sameOutline_mapNodes (tree : Tree) (change : Node → Node)
    (keeps : ∀ node, (change node).outline = node.outline) :
    SameOutline tree (tree.mapNodes change) where
  nodes := by
    rw [mapNodes, List.map_map]
    exact List.map_congr_left fun node _ => (keeps node).symm
  root := rfl
  nextId := rfl

theorem sameOutline_modify (tree : Tree) (id : NodeId) (change : Node → Node)
    (keeps : ∀ node, (change node).outline = node.outline) :
    SameOutline tree (tree.modify id change) := by
  rw [modify_eq_mapNodes]
  apply sameOutline_mapNodes
  intro node
  split
  · exact keeps node
  · rfl

/-! ## Well-formed trees -/

/-- A tree whose links describe one tree and whose children know their places. -/
structure FormedBy (birth : NodeId → Int) (tree : Tree) : Prop extends tree.LinkedBy birth where
  placed : ∀ {parent child : NodeId} {place : Nat} {node : Node},
    (tree.childrenOf parent)[place]? = some child → tree.get? child = some node →
      node.placement = Placement.ofIndex place (tree.childrenOf parent).length

/-- Such a tree all of whose ids have been handed out. -/
structure WellFormed (tree : Tree) : Prop extends tree.Linked, tree.FormedBy tree.age

/-- Well-formedness is a matter of the outline alone. -/
theorem SameOutline.formedBy {birth : NodeId → Int} {left right : Tree}
    (same : SameOutline left right) (formed : left.FormedBy birth) : right.FormedBy birth where
  toLinkedBy := same.sameLinks.linkedBy formed.toLinkedBy
  placed := by
    intro parent child place node listed found
    obtain ⟨other, otherFound, outlines⟩ := same.symm.exists_get? found
    rw [← same.sameLinks.children] at listed ⊢
    rw [← formed.placed listed otherFound]
    exact (congrArg (·.placement) outlines).symm

theorem SameOutline.wellFormed {left right : Tree} (same : SameOutline left right)
    (wellFormed : left.WellFormed) : right.WellFormed where
  toLinked := same.sameLinks.linked wellFormed.toLinked
  placed := (same.formedBy wellFormed.toFormedBy).placed

end Tree

end WidgetStyle
