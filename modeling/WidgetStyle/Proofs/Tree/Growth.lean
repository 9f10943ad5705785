import WidgetStyle.Proofs.Tree.Marking

/-!
# Growing and reordering

New nodes and new orders of children keep a tree well-formed.  Each operation
first changes the links, which is all that the conditions on links see, and then
puts the children of the one node whose children changed in their places.
-/

namespace WidgetStyle

/-- The node by itself: neither its style nor its children. -/
def Node.face (node : Node) : Node :=
  { node.outline with children := [] }

namespace Tree

theorem face_of_sameOutline {left right : Tree} (same : SameOutline left right) (id : NodeId) :
    (left.get? id).map Node.face = (right.get? id).map Node.face := by
  have outlines := congrArg (Option.map fun node : Node => { node with children := [] })
    (same.get? id)
  rwa [Option.map_map, Option.map_map] at outlines

/-! ## Changes of one node -/

/-- A change of one node that keeps its links and, below the root, its place keeps
the tree well-formed. -/
theorem WellFormed.modify {tree : Tree} (wellFormed : tree.WellFormed) (id : NodeId)
    (change : Node → Node) (keepsId : ∀ node, (change node).id = node.id)
    (keepsParent : ∀ node, (change node).parent = node.parent)
    (keepsChildren : ∀ node, (change node).children = node.children)
    (keepsPlace : ∀ node parent, tree.get? id = some node → node.parent = some parent →
      (change node).placement = node.placement) :
    (tree.modify id change).WellFormed := by
  have links := sameLinks_modify tree id change keepsId keepsParent keepsChildren
  refine ⟨links.linked wellFormed.toLinked, ?_⟩
  intro parent child place node listed found
  rw [← links.children] at listed ⊢
  rw [get?_modify _ _ _ _ keepsId] at found
  split at found
  · rename_i same
    obtain ⟨former, lookup, rfl⟩ := Option.map_eq_some_iff.mp found
    have link := wellFormed.childOf.mp (List.mem_of_getElem? listed)
    rw [same, parentId?_of_get? lookup] at link
    rw [keepsPlace former parent lookup link]
    exact wellFormed.placed (same ▸ listed) lookup
  · exact wellFormed.placed listed found

/-! ## Placing -/

/-- Placing the children of a node puts these in their places and leaves other nodes where they
are. -/
theorem placement_placeChildren {tree : Tree} {target parent child : NodeId} {place : Nat}
    {node : Node} (distinct : (tree.childrenOf target).Nodup)
    (apart : parent ≠ target → child ∉ tree.childrenOf target)
    (others : parent ≠ target → ∀ former, tree.get? child = some former →
      former.placement = Placement.ofIndex place (tree.childrenOf parent).length)
    (listed : (tree.childrenOf parent)[place]? = some child)
    (found : (tree.placeChildren target).get? child = some node) :
    node.placement = Placement.ofIndex place (tree.childrenOf parent).length := by
  by_cases same : parent = target
  · subst same
    have outlines := outline_placeChildren_of_mem distinct listed
    rw [found] at outlines
    obtain ⟨former, -, outline⟩ := Option.map_eq_some_iff.mp outlines.symm
    exact (congrArg (·.placement) outline).symm
  · have outlines := outline_placeChildren_of_not_mem (apart same)
    rw [found] at outlines
    obtain ⟨former, lookup, outline⟩ := Option.map_eq_some_iff.mp outlines.symm
    have placement : former.placement = node.placement := congrArg (·.placement) outline
    rw [← placement]
    exact others same former lookup

/-- Placing the children of a node makes a tree well-formed in which only these
might be out of place. -/
theorem wellFormed_placeChildren {tree : Tree} (linked : tree.Linked) (target : NodeId)
    (others : ∀ {parent child : NodeId} {place : Nat} {node : Node}, parent ≠ target →
      (tree.childrenOf parent)[place]? = some child → tree.get? child = some node →
        node.placement = Placement.ofIndex place (tree.childrenOf parent).length) :
    (tree.placeChildren target).WellFormed := by
  have links := sameLinks_placeChildren tree target
  refine ⟨links.linked linked, ?_⟩
  intro parent child place node listed found
  rw [← links.children] at listed ⊢
  apply placement_placeChildren (linked.childrenDistinct target) _ _ listed found
  · intro different member
    have link := linked.childOf.mp (List.mem_of_getElem? listed)
    rw [linked.childOf.mp member] at link
    exact different (Option.some.inj link).symm
  · exact fun different former lookup => others different listed lookup

theorem face_placeChildren_of_not_mem {tree : Tree} {target id : NodeId}
    (outside : id ∉ tree.childrenOf target) :
    ((tree.placeChildren target).get? id).map Node.face = (tree.get? id).map Node.face := by
  have outlines := congrArg (Option.map fun node : Node => { node with children := [] })
    (outline_placeChildren_of_not_mem outside)
  rwa [Option.map_map, Option.map_map] at outlines

/-- When the number of a node's children changes, placing them leaves nothing
clean below those that were there before. -/
theorem FormedBy.not_isClean_of_resized {birth : NodeId → Int} {before middle : Tree}
    (formed : before.FormedBy birth) {parent child id : NodeId}
    (distinct : (middle.childrenOf parent).Nodup)
    (resized : (middle.childrenOf parent).length ≠ (before.childrenOf parent).length)
    (larger : before.size ≤ middle.size)
    (children : ∀ other, before.contains other = true → other ≠ parent →
      middle.childrenOf other = before.childrenOf other)
    (listed : child ∈ middle.childrenOf parent) (link : before.parentId? child = some parent)
    (same : middle.get? child = before.get? child) (below : before.Below child id) :
    ¬(middle.placeChildren parent).IsClean id := by
  intro clean
  have linked := formed.toLinkedBy
  obtain ⟨node, found⟩ := contains_iff.mp (contains_of_parentId? link)
  obtain ⟨former, formerListed⟩ := List.mem_iff_getElem?.mp (linked.childOf.mpr link)
  obtain ⟨place, placeListed⟩ := List.mem_iff_getElem?.mp listed
  have subtree := linked.subtree_of_child link larger children
  have placement := placement_of_isClean_placeChildren distinct placeListed clean
    (same.trans found) (subtree ▸ linked.mem_subtree_iff.mpr below)
  rw [formed.placed formerListed found] at placement
  exact resized (Int.ofNat_inj.mp placement.2).symm

/-! ## A new node -/

/-- The node that comes next. -/
def newNode (tree : Tree) (identity : Identity) (parent : Option NodeId) : Node :=
  { id := tree.nextId, identity, flags := { dirty := true }, parent }

@[simp] theorem insertNode_nodes (tree : Tree) (identity : Identity) (parent : Option NodeId) :
    (tree.insertNode identity parent).2.nodes = tree.nodes ++ [tree.newNode identity parent] :=
  rfl

theorem Linked.get?_nextId {tree : Tree} (linked : tree.Linked) :
    tree.get? tree.nextId = none := by
  cases found : tree.get? tree.nextId with
  | none => rfl
  | some node =>
      exact absurd (linked.beforeNext (contains_of_get? found)) (Int.lt_irrefl _)

theorem Linked.get?_insertNode {tree : Tree} (linked : tree.Linked) (identity : Identity)
    (parent : Option NodeId) (id : NodeId) :
    (tree.insertNode identity parent).2.get? id =
      if id = tree.nextId then some (tree.newNode identity parent) else tree.get? id := by
  have fresh := linked.get?_nextId
  rw [Tree.get?] at fresh
  rw [Tree.get?, Tree.get?, insertNode_nodes, List.find?_append]
  split
  · rename_i same
    rw [same, fresh]
    simp [newNode]
  · rename_i different
    simp [newNode, Ne.symm different]

/-- The tree with a new node linked in as the last child, before the children are
put in their places. -/
def grown (tree : Tree) (parent : NodeId) (identity : Identity) : Tree :=
  (tree.insertNode identity (some parent)).2.modify parent fun node =>
    { node with children := node.children ++ [tree.nextId] }

theorem appendChild_of_get? {tree : Tree} {parent : NodeId} {node : Node}
    (found : tree.get? parent = some node) (identity : Identity) :
    tree.appendChild parent identity =
      .ok (tree.nextId, (tree.grown parent identity).placeChildren parent) := by
  rw [appendChild, require, found]
  rfl

theorem appendChild_unknown {tree : Tree} {parent : NodeId} (unknown : tree.get? parent = none)
    (identity : Identity) : tree.appendChild parent identity = .error (.unknownNode parent) := by
  rw [appendChild, require, unknown]

namespace Linked

variable {tree : Tree} {parent : NodeId}

theorem parent_ne_nextId (linked : tree.Linked) (known : tree.contains parent = true) :
    parent ≠ tree.nextId := by
  rintro rfl
  exact Int.lt_irrefl _ (linked.beforeNext known)

theorem get?_grown (linked : tree.Linked) (known : tree.contains parent = true)
    (identity : Identity) (id : NodeId) :
    (tree.grown parent identity).get? id =
      if id = tree.nextId then some (tree.newNode identity (some parent))
      else if id = parent then
        (tree.get? parent).map fun node =>
          { node with children := node.children ++ [tree.nextId] }
      else tree.get? id := by
  have different := linked.parent_ne_nextId known
  have modified := get?_modify (tree.insertNode identity (some parent)).2 parent id
    (fun node => { node with children := node.children ++ [tree.nextId] }) fun _ => rfl
  rw [grown, modified, linked.get?_insertNode, linked.get?_insertNode, if_neg different]
  by_cases same : id = parent
  · rw [if_pos same, same, if_neg different, if_pos rfl]
  · rw [if_neg same, if_neg same]

theorem parentId?_grown (linked : tree.Linked) (known : tree.contains parent = true)
    (identity : Identity) (id : NodeId) :
    (tree.grown parent identity).parentId? id =
      if id = tree.nextId then some parent else tree.parentId? id := by
  rw [parentId?, linked.get?_grown known]
  split
  · rfl
  · split
    · rename_i same
      rw [same, parentId?, Option.bind_map]
      rfl
    · rfl

theorem childrenOf_grown (linked : tree.Linked) (known : tree.contains parent = true)
    (identity : Identity) (id : NodeId) :
    (tree.grown parent identity).childrenOf id =
      if id = parent then tree.childrenOf parent ++ [tree.nextId] else tree.childrenOf id := by
  have different := linked.parent_ne_nextId known
  obtain ⟨node, found⟩ := contains_iff.mp known
  rw [childrenOf, linked.get?_grown known]
  by_cases new : id = tree.nextId
  · rw [if_pos new, new, if_neg (Ne.symm different), childrenOf_eq_nil linked.get?_nextId]
    rfl
  · rw [if_neg new]
    by_cases same : id = parent
    · rw [if_pos same, if_pos same, childrenOf_of_get? found, found]
      rfl
    · rw [if_neg same, if_neg same, childrenOf]

@[simp] theorem ids_grown (tree : Tree) (parent : NodeId) (identity : Identity) :
    (tree.grown parent identity).nodes.map (·.id) = tree.nodes.map (·.id) ++ [tree.nextId] := by
  rw [grown, modify_eq_mapNodes, mapNodes, List.map_map, insertNode_nodes, List.map_append]
  congr 1
  · apply List.map_congr_left
    intro node _
    simp only [Function.comp_apply]
    split <;> rfl
  · simp only [List.map_cons, List.map_nil, Function.comp_apply]
    split <;> rfl

theorem contains_grown_iff (tree : Tree) (parent : NodeId) (identity : Identity) {id : NodeId} :
    (tree.grown parent identity).contains id = true ↔
      tree.contains id = true ∨ id = tree.nextId := by
  rw [contains_iff_mem, contains_iff_mem, ids_grown, List.mem_append, List.mem_singleton]

/-- The new node is younger than its parent. -/
theorem grown_linkedBy (linked : tree.Linked) (known : tree.contains parent = true)
    (identity : Identity) :
    (tree.grown parent identity).LinkedBy
      (Function.update tree.age tree.nextId (tree.age parent + 1)) where
  distinct := by
    rw [ids_grown]
    refine List.nodup_append.mpr ⟨linked.distinct, List.nodup_singleton _, ?_⟩
    intro id member other single same
    rw [List.mem_singleton] at single
    exact linked.parent_ne_nextId (contains_iff_mem.mpr member) (same.trans single)
  rootFound := by
    intro root rooted
    have found : tree.contains root = true ∧ tree.parentId? root = none :=
      linked.rootFound rooted
    rw [linked.parentId?_grown known, if_neg (linked.parent_ne_nextId found.1)]
    exact ⟨(contains_grown_iff tree parent identity).mpr (.inl found.1), found.2⟩
  rootOnly := by
    intro id member parentless
    rw [linked.parentId?_grown known] at parentless
    rcases (contains_grown_iff tree parent identity).mp member with old | rfl
    · rw [if_neg (linked.parent_ne_nextId old)] at parentless
      exact linked.rootOnly old parentless
    · rw [if_pos rfl] at parentless
      cases parentless
  childOf := by
    intro child above
    have fresh : tree.parentId? tree.nextId = none := by
      rw [parentId?, linked.get?_nextId]
      rfl
    rw [linked.parentId?_grown known, linked.childrenOf_grown known]
    by_cases new : child = tree.nextId
    · rw [if_pos new, new]
      by_cases same : above = parent
      · simp [same]
      · rw [if_neg same, linked.childOf, fresh]
        simp [Ne.symm same]
    · rw [if_neg new]
      by_cases same : above = parent
      · simp [same, new, linked.childOf]
      · rw [if_neg same, linked.childOf]
  parentOlder := by
    intro child above link
    rw [linked.parentId?_grown known] at link
    split at link
    · rename_i same
      cases link
      rw [same, Function.update_self, Function.update_of_ne (linked.parent_ne_nextId known)]
      exact Int.lt_succ _
    · rename_i old
      rw [Function.update_of_ne old,
        Function.update_of_ne (linked.parent_ne_nextId (linked.contains_parent link))]
      exact linked.parentOlder link
  childrenDistinct := by
    intro id
    rw [linked.childrenOf_grown known]
    split
    · refine List.nodup_append.mpr
        ⟨linked.childrenDistinct parent, List.nodup_singleton _, ?_⟩
      intro child member other single same
      rw [List.mem_singleton] at single
      exact linked.parent_ne_nextId (linked.contains_child member) (same.trans single)
    · exact linked.childrenDistinct id

theorem grown_linked (linked : tree.Linked) (known : tree.contains parent = true)
    (identity : Identity) : (tree.grown parent identity).Linked where
  toLinkedBy := (linked.grown_linkedBy known identity).aged
  beforeNext := by
    intro id member
    change id.value < tree.nextId.value + 1
    rcases (contains_grown_iff tree parent identity).mp member with old | rfl
    · have bound := linked.beforeNext old
      omega
    · omega

end Linked

/-- Adding a child keeps a tree well-formed. -/
theorem WellFormed.appendChild {tree grownTree : Tree} (wellFormed : tree.WellFormed)
    {parent id : NodeId} {identity : Identity}
    (added : tree.appendChild parent identity = .ok (id, grownTree)) : grownTree.WellFormed := by
  cases found : tree.get? parent with
  | none => rw [appendChild_unknown found] at added; cases added
  | some node =>
      have known := contains_of_get? found
      rw [appendChild_of_get? found] at added
      cases added
      have linked := wellFormed.toLinked
      refine wellFormed_placeChildren (linked.grown_linked known identity) parent ?_
      intro above child place former different listed lookup
      rw [linked.childrenOf_grown known, if_neg different] at listed ⊢
      have old := linked.contains_child (List.mem_of_getElem? listed)
      rw [linked.get?_grown known, if_neg (linked.parent_ne_nextId old)] at lookup
      split at lookup
      · rename_i same
        obtain ⟨before, beforeFound, rfl⟩ := Option.map_eq_some_iff.mp lookup
        rw [same] at listed
        have placement := wellFormed.placed listed beforeFound
        exact placement
      · exact wellFormed.placed listed lookup

/-! ## Another order of children -/

/-- The tree with the children of a node in another order, before they are put in
their places. -/
def reordered (tree : Tree) (parent : NodeId) (order : List NodeId) : Tree :=
  tree.modify parent fun node => { node with children := order }

theorem permuteChildren_of_get? {tree : Tree} {parent : NodeId} {node : Node}
    (found : tree.get? parent = some node) (order : List NodeId) :
    tree.permuteChildren parent order =
      if order.isPerm node.children then
        .ok ((tree.reordered parent order).placeChildren parent)
      else .error (.wrongChildren parent) := by
  rw [permuteChildren, require, found]
  rfl

/-- The children of a node can be brought in an order exactly when that is a
permutation of them. -/
theorem permuteChildren_eq_ok_iff {tree result : Tree} {parent : NodeId} {order : List NodeId} :
    tree.permuteChildren parent order = .ok result ↔
      tree.contains parent = true ∧ order.Perm (tree.childrenOf parent) ∧
        result = (tree.reordered parent order).placeChildren parent := by
  cases found : tree.get? parent with
  | none =>
      rw [permuteChildren, require, found, contains, found]
      simp
  | some node =>
      rw [permuteChildren_of_get? found, childrenOf_of_get? found, ← List.isPerm_iff]
      constructor
      · intro permuted
        split at permuted
        · rename_i perm
          cases permuted
          exact ⟨contains_of_get? found, perm, rfl⟩
        · cases permuted
      · rintro ⟨-, perm, rfl⟩
        rw [if_pos perm]

theorem get?_reordered (tree : Tree) (parent : NodeId) (order : List NodeId) (id : NodeId) :
    (tree.reordered parent order).get? id =
      if id = parent then (tree.get? parent).map fun node => { node with children := order }
      else tree.get? id :=
  get?_modify tree parent id _ fun _ => rfl

@[simp] theorem parentId?_reordered (tree : Tree) (parent : NodeId) (order : List NodeId) (id : NodeId) :
    (tree.reordered parent order).parentId? id = tree.parentId? id := by
  rw [parentId?, get?_reordered]
  split
  · rename_i same
    rw [same, parentId?, Option.bind_map]
    rfl
  · rfl

theorem childrenOf_reordered {tree : Tree} {parent : NodeId}
    (known : tree.contains parent = true) (order : List NodeId) (id : NodeId) :
    (tree.reordered parent order).childrenOf id =
      if id = parent then order else tree.childrenOf id := by
  obtain ⟨node, found⟩ := contains_iff.mp known
  rw [childrenOf, get?_reordered]
  by_cases same : id = parent
  · rw [if_pos same, if_pos same, found]
    rfl
  · rw [if_neg same, if_neg same, childrenOf]

@[simp] theorem ids_reordered (tree : Tree) (parent : NodeId) (order : List NodeId) :
    (tree.reordered parent order).nodes.map (·.id) = tree.nodes.map (·.id) := by
  rw [reordered, modify_eq_mapNodes, mapNodes, List.map_map]
  apply List.map_congr_left
  intro node _
  simp only [Function.comp_apply]
  split <;> rfl

@[simp] theorem contains_reordered (tree : Tree) (parent : NodeId) (order : List NodeId) (id : NodeId) :
    (tree.reordered parent order).contains id = tree.contains id := by
  rw [Bool.eq_iff_iff, contains_iff_mem, contains_iff_mem, ids_reordered]

theorem LinkedBy.reordered {birth : NodeId → Int} {tree : Tree} (linked : tree.LinkedBy birth)
    {parent : NodeId} (known : tree.contains parent = true) {order : List NodeId}
    (perm : order.Perm (tree.childrenOf parent)) :
    (tree.reordered parent order).LinkedBy birth where
  distinct := ids_reordered tree parent order ▸ linked.distinct
  rootFound := by
    intro root rooted
    rw [contains_reordered, parentId?_reordered]
    exact linked.rootFound rooted
  rootOnly := by
    intro id member parentless
    rw [contains_reordered] at member
    rw [parentId?_reordered] at parentless
    exact linked.rootOnly member parentless
  childOf := by
    intro child above
    rw [parentId?_reordered, childrenOf_reordered known, ← linked.childOf]
    split
    · rename_i same
      rw [same, perm.mem_iff]
    · rfl
  parentOlder link := linked.parentOlder ((parentId?_reordered ..).symm.trans link)
  childrenDistinct := by
    intro id
    rw [childrenOf_reordered known]
    split
    · exact perm.nodup_iff.mpr (linked.childrenDistinct parent)
    · exact linked.childrenDistinct id

theorem Linked.reordered_linked {tree : Tree} (linked : tree.Linked) {parent : NodeId}
    (known : tree.contains parent = true) {order : List NodeId}
    (perm : order.Perm (tree.childrenOf parent)) : (tree.reordered parent order).Linked where
  toLinkedBy := (linked.toLinkedBy.reordered known perm).aged
  beforeNext member := linked.beforeNext ((contains_reordered ..).symm.trans member)

/-- Reordering children keeps a tree well-formed. -/
theorem WellFormed.permuteChildren {tree result : Tree} (wellFormed : tree.WellFormed)
    {parent : NodeId} {order : List NodeId}
    (permuted : tree.permuteChildren parent order = .ok result) : result.WellFormed := by
  obtain ⟨known, perm, rfl⟩ := permuteChildren_eq_ok_iff.mp permuted
  refine wellFormed_placeChildren (wellFormed.toLinked.reordered_linked known perm) parent ?_
  intro above child place former different listed lookup
  rw [childrenOf_reordered known, if_neg different] at listed ⊢
  rw [get?_reordered] at lookup
  split at lookup
  · rename_i same
    obtain ⟨before, beforeFound, rfl⟩ := Option.map_eq_some_iff.mp lookup
    rw [same] at listed
    have placement := wellFormed.placed listed beforeFound
    exact placement
  · exact wellFormed.placed listed lookup

/-! ## A first node -/

/-- A tree without links is well-formed when the root is its only node, if it has any. -/
theorem wellFormed_of_linkless {tree : Tree} (distinct : (tree.nodes.map (·.id)).Nodup)
    (rootOnly : ∀ id, tree.root = some id ↔ tree.contains id = true)
    (parentless : ∀ id, tree.parentId? id = none) (childless : ∀ id, tree.childrenOf id = [])
    (issued : ∀ id, tree.contains id = true → id.value < tree.nextId.value) :
    tree.WellFormed := by
  have linked : tree.LinkedBy NodeId.value := by
    constructor
    case distinct => exact distinct
    case rootFound => exact fun rooted => ⟨(rootOnly _).mp rooted, parentless _⟩
    case rootOnly => exact fun known _ => (rootOnly _).mpr known
    case childOf => simp [parentless, childless]
    case parentOlder => simp [parentless]
    case childrenDistinct => simp [childless]
  constructor
  case placed => simp [childless]
  exact ⟨linked.aged, fun known => issued _ known⟩

/-- A tree of one node that has no links is well-formed. -/
theorem wellFormed_singleton (node : Node) (registry : Registry) (next : NodeId)
    (before : node.id.value < next.value) (parentless : node.parent = none)
    (childless : node.children = []) :
    Tree.WellFormed { nodes := [node], root := some node.id, registry, nextId := next } := by
  have lookup : ∀ id,
      ({ nodes := [node], root := some node.id, registry, nextId := next } : Tree).get? id =
        if id = node.id then some node else none := by
    intro id
    rw [Tree.get?, List.find?_singleton]
    by_cases same : id = node.id
    · simp [same]
    · simp [same, Ne.symm same]
  apply wellFormed_of_linkless
  case distinct => exact List.nodup_singleton _
  case rootOnly =>
    intro id
    rw [contains, lookup]
    by_cases same : id = node.id
    · simp [same]
    · simp [same, Ne.symm same]
  case parentless =>
    intro id
    rw [parentId?, lookup]
    by_cases same : id = node.id
    · simp [same, parentless]
    · simp [same]
  case childless =>
    intro id
    rw [childrenOf, lookup]
    by_cases same : id = node.id
    · simp [same, childless]
    · simp [same]
  case issued =>
    intro id known
    rw [contains, lookup] at known
    split at known
    · rename_i same
      rw [same]
      exact before
    · cases known

theorem wellFormed_empty (next : NodeId) : Tree.WellFormed { nextId := next } := by
  apply wellFormed_of_linkless
  case distinct => exact .nil
  case rootOnly => exact fun _ => ⟨nofun, nofun⟩
  case parentless => exact fun _ => rfl
  case childless => exact fun _ => rfl
  case issued => exact nofun

end Tree

end WidgetStyle
