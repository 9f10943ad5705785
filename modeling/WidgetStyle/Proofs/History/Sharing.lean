import WidgetStyle.Proofs.History.Basic

/-!
# Histories in which nodes share states

A node can be given the state that another node holds.  Whatever is written to the one state
then shows in both nodes, their places included, though they do not stand in one place.  A
history without such a step is a plain one.  With such steps a history still leads to the nodes
and links, the identities and the registry that a plain one leads to: states are read by no
operation that decides on these.
-/

namespace WidgetStyle

/-- A tree with the groups of its nodes that hold states together. -/
structure SharedTree where
  sharing : Sharing := []
  tree : Tree sharing := {}

/-- A change of a tree by one of its own operations, or a node that is given the state of
another one. -/
inductive SharedChange where
  | change (change : TreeChange)
  | shareState (id other : NodeId)

namespace SharedTree

/-- The tree after a change.  A change that cannot be made leaves it as it is. -/
def apply (shared : SharedTree) : SharedChange → SharedTree
  | .change change =>
      { sharing := change.sharingAfter shared.sharing
        tree := change.apply (shared.tree.regroup (change.sharingAfter shared.sharing)) }
  | .shareState id other =>
      match shared.tree.shareState id other with
      | .ok tree => { sharing := shared.sharing.join id other, tree }
      | .error _ => shared

/-- The tree after the changes of a history. -/
def replay (shared : SharedTree) (changes : List SharedChange) : SharedTree :=
  changes.foldl apply shared

/-- Where no state is shared from the start, and none is by a change, the history is a plain
one. -/
theorem replay_unshared (tree : Tree) (changes : List TreeChange) :
    replay { tree } (changes.map .change) = { tree := TreeChange.replay tree changes } := by
  induction changes generalizing tree with
  | nil => rfl
  | cons change later ih =>
      have first : apply { tree } (.change change) = { tree := change.apply tree } := by
        cases change <;> rfl
      rw [List.map_cons, replay, List.foldl_cons, first]
      exact ih (change.apply tree)

end SharedTree

@[simp] theorem Node.identity_frame (node : Node) : node.frame.identity = node.identity :=
  rfl

namespace Tree

variable {sharing : Sharing}

/-! ## Trees without their states -/

/-- The tree without the states and styles of its nodes. -/
def skeleton (tree : Tree sharing) : Tree where
  nodes := tree.nodes.map Node.frame
  root := tree.root
  registry := tree.registry
  nextId := tree.nextId

@[simp] theorem skeleton_skeleton (tree : Tree sharing) :
    tree.skeleton.skeleton = tree.skeleton := by
  rw [skeleton, skeleton, List.map_map]
  rfl

@[simp] theorem get?_skeleton (tree : Tree sharing) (id : NodeId) :
    tree.skeleton.get? id = (tree.get? id).map Node.frame := by
  rw [get?, skeleton, List.find?_map]
  rfl

@[simp] theorem childrenOf_skeleton (tree : Tree sharing) (id : NodeId) :
    tree.skeleton.childrenOf id = tree.childrenOf id := by
  rw [childrenOf, childrenOf, get?_skeleton]
  cases tree.get? id with
  | none => rfl
  | some node => rfl

@[simp] theorem size_skeleton (tree : Tree sharing) : tree.skeleton.size = tree.size :=
  List.length_map Node.frame

theorem collect_skeleton (tree : Tree sharing) (bound : Nat) (stack : List NodeId) :
    tree.skeleton.collect bound stack = tree.collect bound stack := by
  induction bound generalizing stack with
  | zero => cases stack <;> rfl
  | succ bound ih =>
      cases stack with
      | nil => rfl
      | cons id rest => rw [collect, collect, childrenOf_skeleton, ih]

@[simp] theorem subtree_skeleton (tree : Tree sharing) (id : NodeId) :
    tree.skeleton.subtree id = tree.subtree id := by
  rw [subtree, subtree, descendants, descendants, size_skeleton, childrenOf_skeleton,
    collect_skeleton]

theorem linked_skeleton_iff (tree : Tree sharing) :
    tree.skeleton.Linked ↔ tree.snapshot.Linked := by
  have links : SameLinks tree.snapshot tree.skeleton :=
    sameLinks_mapNodes tree.snapshot Node.frame (fun _ => rfl) (fun _ => rfl) fun _ => rfl
  exact ⟨links.symm.linked, links.linked⟩

/-- Trees have one skeleton when what there is of each node but its state and its style agrees. -/
theorem skeleton_congr {left : Tree sharing} {groups : Sharing} {right : Tree groups}
    (nodes : left.nodes.map Node.frame = right.nodes.map Node.frame)
    (root : left.root = right.root) (registry : left.registry = right.registry)
    (nextId : left.nextId = right.nextId) : left.skeleton = right.skeleton := by
  rw [skeleton, skeleton, nodes, root, registry, nextId]

theorem skeleton_withRoot {left : Tree sharing} {groups : Sharing} {right : Tree groups}
    (same : left.skeleton = right.skeleton) (root : Option NodeId) :
    ({ left with root } : Tree sharing).skeleton = ({ right with root } : Tree groups).skeleton :=
  skeleton_congr (congrArg nodes same) rfl (congrArg registry same) (congrArg nextId same)

/-- A change of one node that looks at nothing but what its skeleton shows. -/
theorem skeleton_modify (tree : Tree sharing) (id : NodeId) (change : Node → Node)
    (framed : ∀ node, (change node).frame = (change node.frame).frame) :
    (tree.modify id change).skeleton = (tree.skeleton.modify id change).skeleton := by
  refine skeleton_congr ?_ rfl rfl rfl
  rw [modify, modify, skeleton, List.map_map, List.map_map, List.map_map]
  apply List.map_congr_left
  intro node _
  simp only [Function.comp_apply]
  rw [apply_ite Node.frame, apply_ite Node.frame, framed node]
  rfl

/-! ## Changes that leave the skeleton alone -/

theorem skeleton_kept (tree : Tree sharing) (id : NodeId) (change : Node → Node)
    (keeps : ∀ node, (change node).frame = node.frame) :
    (tree.modify id change).skeleton = tree.skeleton := by
  refine skeleton_congr ?_ rfl rfl rfl
  rw [modify, List.map_map]
  apply List.map_congr_left
  intro node _
  simp only [Function.comp_apply]
  split
  · exact keeps node
  · rfl

theorem skeleton_foldl {Item : Type} {step : Tree sharing → Item → Tree sharing}
    (each : ∀ tree item, (step tree item).skeleton = tree.skeleton) (tree : Tree sharing)
    (items : List Item) : (items.foldl step tree).skeleton = tree.skeleton := by
  induction items generalizing tree with
  | nil => rfl
  | cons item later ih => exact (ih _).trans (each tree item)

theorem skeleton_modifyState (tree : Tree sharing) (id : NodeId) (change : Node → Node)
    (keeps : ∀ node, (change node).frame = node.frame) :
    (tree.modifyState id change).skeleton = tree.skeleton :=
  skeleton_foldl (fun tree holder => skeleton_kept tree holder change keeps) tree _

@[simp] theorem skeleton_dirtySubtree (tree : Tree sharing) (id : NodeId) :
    (tree.dirtySubtree id).skeleton = tree.skeleton := by
  rw [dirtySubtree]
  split
  · refine skeleton_congr ?_ rfl rfl rfl
    rw [List.map_map]
    apply List.map_congr_left
    intro node _
    simp only [Function.comp_apply]
    split <;> rfl
  · rfl

@[simp] theorem skeleton_dirtyDependents (tree : Tree sharing) (id : NodeId) :
    (tree.dirtyDependents id).skeleton = tree.skeleton :=
  (skeleton_foldl skeleton_dirtySubtree _ _).trans (skeleton_dirtySubtree tree id)

/-- A change of a state with all that it makes dirty. -/
theorem skeleton_changed (tree : Tree sharing) (id : NodeId) (change : Node → Node)
    (keeps : ∀ node, (change node).frame = node.frame) :
    ((tree.modifyState id change).dirtyDependents id).skeleton = tree.skeleton :=
  (skeleton_dirtyDependents _ id).trans (skeleton_modifyState tree id change keeps)

theorem skeleton_changed_alike {tree : Tree sharing} {id : NodeId} {one other : Node → Node}
    (keeps : ∀ node, (one node).frame = node.frame)
    (keepsOther : ∀ node, (other node).frame = node.frame) :
    ((tree.modifyState id one).dirtyDependents id).skeleton =
      ((tree.skeleton.modifyState id other).dirtyDependents id).skeleton := by
  rw [skeleton_changed tree id one keeps, skeleton_changed tree.skeleton id other keepsOther,
    skeleton_skeleton]

@[simp] theorem skeleton_cleanAll (tree : Tree sharing) :
    tree.cleanAll.skeleton = tree.skeleton := by
  rw [skeleton, cleanAll, List.map_map]
  rfl

theorem skeleton_placeChild (total : Nat) (tree : Tree sharing) (entry : NodeId × Nat) :
    (placeChild total tree entry).skeleton = tree.skeleton := by
  have placed := skeleton_modifyState tree entry.1
    (fun node => { node with placement := .ofIndex entry.2 total }) fun _ => rfl
  rw [placeChild]
  split
  · rfl
  · simp only
    split
    · exact placed
    · exact (skeleton_dirtySubtree _ entry.1).trans placed

@[simp] theorem skeleton_placeChildren (tree : Tree sharing) (parent : NodeId) :
    (tree.placeChildren parent).skeleton = tree.skeleton :=
  skeleton_foldl (skeleton_placeChild _) tree _

@[simp] theorem skeleton_turnFlag (tree : Tree sharing) (flag : Flag) (value : Bool) (id : NodeId) :
    (tree.turnFlag flag value id).skeleton = tree.skeleton := by
  rw [turnFlag]
  split
  · split
    · rfl
    · exact skeleton_changed tree id _ fun _ => rfl
  · rfl

@[simp] theorem skeleton_giveFlag (tree : Tree sharing) (flag : Flag) (owner : Option NodeId) :
    (tree.giveFlag flag owner).skeleton = tree.skeleton := by
  have cleared := skeleton_foldl (fun tree id => skeleton_turnFlag tree flag false id) tree
  cases owner with
  | none => exact cleared _
  | some id => exact (skeleton_turnFlag _ flag true id).trans (cleared _)

@[simp] theorem skeleton_regroup (tree : Tree sharing) (groups : Sharing) :
    (tree.regroup groups).skeleton = tree.skeleton :=
  rfl

/-! ## Changes of the skeleton -/

@[simp] theorem require_skeleton (tree : Tree sharing) (id : NodeId) :
    tree.skeleton.require id = (tree.require id).map Node.frame := by
  rw [require, require, get?_skeleton]
  cases tree.get? id with
  | none => rfl
  | some node => rfl

theorem skeleton_insertNode (tree : Tree sharing) (identity : Identity)
    (parent : Option NodeId) :
    (tree.insertNode identity parent).2.skeleton =
      (tree.skeleton.insertNode identity parent).2.skeleton := by
  refine skeleton_congr ?_ rfl rfl rfl
  simp only [insertNode, skeleton, List.map_append, List.map_map]
  rfl

theorem skeleton_dropNodes (tree : Tree sharing) (ids : List NodeId) :
    (tree.dropNodes ids).skeleton = (tree.skeleton.dropNodes ids).skeleton := by
  have gone : ids.filterMap tree.skeleton.get? = (ids.filterMap tree.get?).map Node.frame := by
    rw [List.map_filterMap]
    exact List.filterMap_congr fun id _ => get?_skeleton tree id
  refine skeleton_congr ?_ rfl ?_ rfl
  · simp only [dropNodes, skeleton, List.filter_map, List.map_map]
    rfl
  · simp only [dropNodes, gone, List.foldl_map]
    rfl

theorem skeleton_detach (tree : Tree sharing) (node : Node) :
    (tree.detach node).skeleton = (tree.skeleton.detach node.frame).skeleton := by
  have above : tree.skeleton.parent? node.frame = (tree.parent? node).map Node.frame := by
    rw [parent?, parent?, Option.map_bind]
    exact congrArg node.parent.bind (funext (get?_skeleton tree))
  rw [detach, detach, above]
  cases tree.parent? node with
  | none => exact (skeleton_skeleton tree).symm
  | some parent =>
      have struck := skeleton_modify tree parent.id
        (fun parent => { parent with children := parent.children.erase node.id }) fun _ => rfl
      exact (skeleton_placeChildren _ _).trans (struck.trans (skeleton_placeChildren _ _).symm)

/-- What becomes of two trees of one skeleton when a subtree is removed from them. -/
theorem skeleton_removeSubtree (tree : Tree sharing) (id : NodeId) :
    (tree.removeSubtree id).2.skeleton = (tree.skeleton.removeSubtree id).2.skeleton := by
  rw [removeSubtree, removeSubtree, get?_skeleton]
  cases tree.get? id with
  | none => exact (skeleton_skeleton tree).symm
  | some node =>
      have detached := skeleton_detach tree node
      have ids : (tree.detach node).subtree id = (tree.skeleton.detach node.frame).subtree id := by
        rw [← subtree_skeleton, detached, subtree_skeleton]
      have rest : ((tree.detach node).dropNodes ((tree.detach node).subtree id)).skeleton =
          ((tree.skeleton.detach node.frame).dropNodes
            ((tree.skeleton.detach node.frame).subtree id)).skeleton := by
        rw [skeleton_dropNodes, detached, ← skeleton_dropNodes, ids]
      have root : ((tree.detach node).dropNodes ((tree.detach node).subtree id)).root =
          ((tree.skeleton.detach node.frame).dropNodes
            ((tree.skeleton.detach node.frame).subtree id)).root := congrArg Tree.root rest
      simp only [Option.map_some, root]
      split
      · exact skeleton_withRoot rest none
      · exact rest

theorem skeleton_plantRoot (tree : Tree sharing) (identity : Identity) :
    (tree.plantRoot identity).2.skeleton = (tree.skeleton.plantRoot identity).2.skeleton := by
  have planted {left : Tree sharing} {right : Tree} (same : left.skeleton = right.skeleton) :
      ({ (left.insertNode identity none).2 with
          root := some (left.insertNode identity none).1 } : Tree sharing).skeleton =
        ({ (right.insertNode identity none).2 with
          root := some (right.insertNode identity none).1 } : Tree).skeleton := by
    have grown : (left.insertNode identity none).2.skeleton =
        (right.insertNode identity none).2.skeleton := by
      rw [skeleton_insertNode, same, ← skeleton_insertNode]
    have next : (left.insertNode identity none).1 = (right.insertNode identity none).1 :=
      congrArg nextId same
    rw [next]
    exact skeleton_withRoot grown _
  rw [plantRoot, plantRoot]
  cases rooted : tree.root with
  | none =>
      have rootless : tree.skeleton.root = none := rooted
      rw [rootless]
      exact planted (skeleton_skeleton tree).symm
  | some root =>
      have same : tree.skeleton.root = some root := rooted
      rw [same]
      exact planted (skeleton_removeSubtree tree root)

theorem skeleton_setIdentity (tree : Tree sharing) (node : Node) (identity : Identity) :
    (tree.setIdentity node identity).skeleton =
      (tree.skeleton.setIdentity node.frame identity).skeleton := by
  simp only [setIdentity, skeleton_dirtyDependents]
  have changed := skeleton_modify tree node.id (fun node => { node with identity }) fun _ => rfl
  exact skeleton_congr (congrArg nodes changed) rfl rfl rfl

end Tree

namespace TreeChange

open WidgetStyle.Tree

variable {sharing : Sharing}

/-! ## Skeletons along a history -/

/-- An operation that asks for a node comes to the skeleton that it comes to on a skeleton. -/
theorem skeleton_require (tree : Tree sharing) (id : NodeId) (result : Node → Tree sharing)
    (other : Node → Tree) (same : ∀ node, (result node).skeleton = (other node.frame).skeleton) :
    ((tree.require id).map result).map skeleton =
      ((tree.skeleton.require id).map other).map skeleton := by
  rw [require_skeleton]
  cases tree.require id with
  | error error => rfl
  | ok node => exact congrArg Except.ok (same node)

theorem skeleton_appendChild (tree : Tree sharing) (parent : NodeId) (identity : Identity) :
    ((tree.appendChild parent identity).map (·.2)).map skeleton =
      ((tree.skeleton.appendChild parent identity).map (·.2)).map skeleton := by
  rw [Tree.appendChild, Tree.appendChild, require_skeleton]
  cases tree.require parent with
  | error error => rfl
  | ok node =>
      let link (node : Node) : Node := { node with children := node.children ++ [tree.nextId] }
      have linked := skeleton_modify (tree.insertNode identity (some parent)).2 parent link
        fun _ => rfl
      have again := skeleton_modify (tree.skeleton.insertNode identity (some parent)).2 parent link
        fun _ => rfl
      rw [skeleton_insertNode tree identity (some parent), ← again] at linked
      apply congrArg Except.ok
      exact (skeleton_placeChildren _ parent).trans
        (linked.trans (skeleton_placeChildren _ parent).symm)

theorem skeleton_permuteChildren (tree : Tree sharing) (parent : NodeId) (order : List NodeId) :
    (tree.permuteChildren parent order).map skeleton =
      (tree.skeleton.permuteChildren parent order).map skeleton := by
  rw [Tree.permuteChildren, Tree.permuteChildren, require_skeleton]
  cases tree.require parent with
  | error error => rfl
  | ok node =>
      have ordered := skeleton_modify tree parent (fun node => { node with children := order })
        fun _ => rfl
      have sameChildren : node.frame.children = node.children := rfl
      simp only [Except.map, sameChildren]
      by_cases permutes : order.isPerm node.children = true
      · simp only [permutes, if_true, Except.ok.injEq]
        exact (skeleton_placeChildren _ parent).trans
          (ordered.trans (skeleton_placeChildren _ parent).symm)
      · simp only [permutes]
        rfl

/-- What a change comes to does not show in the skeleton but for the skeleton it starts from. -/
theorem skeleton_outcome (tree : Tree sharing) (change : TreeChange) :
    (change.outcome tree).map skeleton = (change.outcome tree.skeleton).map skeleton := by
  cases change with
  | plantRoot identity => exact congrArg Except.ok (skeleton_plantRoot tree identity)
  | appendChild parent identity => exact skeleton_appendChild tree parent identity
  | removeSubtree id => exact congrArg Except.ok (skeleton_removeSubtree tree id)
  | permuteChildren parent order => exact skeleton_permuteChildren tree parent order
  | replaceClasses id classes =>
      exact skeleton_require tree id _ _ fun node => skeleton_setIdentity tree node _
  | insertClass id name =>
      refine skeleton_require tree id _ _ fun node => ?_
      by_cases has : node.identity.hasClass name = true
      · simp [has]
      · simpa [has] using skeleton_setIdentity tree node _
  | eraseClass id name =>
      refine skeleton_require tree id _ _ fun node => ?_
      by_cases has : node.identity.hasClass name = true
      · simpa [has] using skeleton_setIdentity tree node _
      · simp [has]
  | replaceElementId id elementId =>
      exact skeleton_require tree id _ _ fun node => skeleton_setIdentity tree node _
  | replaceInlineStyle id style =>
      refine skeleton_require tree id _ _ fun node => ?_
      have kept {groups : Sharing} (tree : Tree groups) :=
        skeleton_kept tree id (fun node => { node with inlineStyle := style }) fun _ => rfl
      simp [kept]
  | writeFlags id changes =>
      simp only [outcome, Tree.writeFlags]
      cases flagChanges changes with
      | error error => rfl
      | ok known =>
          apply skeleton_require
          exact fun _ => skeleton_changed_alike (fun _ => rfl) fun _ => rfl
  | replaceFlags id flags =>
      apply skeleton_require
      exact fun _ => skeleton_changed_alike (fun _ => rfl) fun _ => rfl
  | dirtySubtree id =>
      simp [outcome, Except.map]
  | cleanAll =>
      simp [outcome, Except.map]
  | giveFocus owner =>
      simp [outcome, Tree.giveFocus, Except.map]
  | giveHover owner =>
      simp [outcome, Tree.giveHover, Except.map]

theorem skeleton_apply (tree : Tree sharing) (change : TreeChange) :
    (change.apply tree).skeleton = (change.apply tree.skeleton).skeleton := by
  have same := skeleton_outcome tree change
  rw [apply, apply]
  cases done : change.outcome tree with
  | error error =>
      cases again : change.outcome tree.skeleton with
      | error other => exact (skeleton_skeleton tree).symm
      | ok after =>
          rw [done, again] at same
          cases same
  | ok after =>
      cases again : change.outcome tree.skeleton with
      | error other =>
          rw [done, again] at same
          cases same
      | ok other =>
          rw [done, again] at same
          exact Except.ok.inj same

end TreeChange

theorem TreeChange.skeleton_replay (tree : Tree) (changes : List TreeChange) :
    (replay tree changes).skeleton = (replay tree.skeleton changes).skeleton := by
  induction changes generalizing tree with
  | nil => exact tree.skeleton_skeleton.symm
  | cons change later ih =>
      have onwards := ih (change.apply tree)
      rw [skeleton_apply, ← ih] at onwards
      exact onwards

namespace SharedChange

/-- The plain change that does the same to nodes, links, identities and the registry. -/
def plain : SharedChange → TreeChange
  | .change alone => alone
  | .shareState id _ => .dirtySubtree id

end SharedChange

namespace SharedTree

open WidgetStyle.Tree

theorem skeleton_shareState {sharing : Sharing} {tree : Tree sharing} {id other : NodeId}
    {after : Tree (sharing.join id other)} (given : tree.shareState id other = .ok after) :
    after.skeleton = tree.skeleton := by
  rw [Tree.shareState] at given
  split at given
  · cases given
  · rw [Tree.replaceFlags] at given
    cases asked : (tree.regroup (sharing.join id other)).require id with
    | error error =>
        rw [asked] at given
        cases given
    | ok node =>
        rw [asked] at given
        cases given
        exact skeleton_changed _ id _ fun _ => rfl

theorem skeleton_apply (shared : SharedTree) (change : SharedChange) :
    (shared.apply change).tree.skeleton = (change.plain.apply shared.tree.skeleton).skeleton := by
  cases change with
  | change change =>
      have regrouped := shared.tree.skeleton_regroup (change.sharingAfter shared.sharing)
      rw [apply, TreeChange.skeleton_apply, regrouped]
      rfl
  | shareState id other =>
      have quiet : (TreeChange.apply (.dirtySubtree id) shared.tree.skeleton).skeleton =
          shared.tree.skeleton := by
        simp [TreeChange.apply, TreeChange.outcome]
      rw [SharedChange.plain, quiet, apply]
      cases given : shared.tree.shareState id other with
      | error error => rfl
      | ok tree => exact skeleton_shareState given

/-- However states are shared, a history leads to the nodes and links, the identities and the
registry that a plain history leads to. -/
theorem skeleton_replay (shared : SharedTree) (changes : List SharedChange) :
    (replay shared changes).tree.skeleton =
      (TreeChange.replay shared.tree.skeleton (changes.map SharedChange.plain)).skeleton := by
  induction changes generalizing shared with
  | nil => exact (skeleton_skeleton shared.tree).symm
  | cons change later ih =>
      have onwards := ih (shared.apply change)
      rw [skeleton_apply, ← TreeChange.skeleton_replay] at onwards
      exact onwards

/-- However states are shared, the links of the nodes that a history leads to describe one
tree. -/
theorem linked_replay (first : NodeId) (changes : List SharedChange) :
    (replay { tree := { nextId := first } } changes).tree.snapshot.Linked := by
  rw [← linked_skeleton_iff, skeleton_replay, linked_skeleton_iff]
  exact (TreeChange.wellFormed_replay (wellFormed_empty first) _).toLinked

/-! ## Twins -/

/-- Two rows of which the second one is given the state of the first one.  The state has the
place of the second row then, which the first row has not. -/
def twinRows : SharedTree :=
  replay { tree := { nextId := ⟨1⟩ } }
    [ .change (.plantRoot { widgetType := "App" }),
      .change (.appendChild ⟨1⟩ { widgetType := "Row" }),
      .change (.appendChild ⟨1⟩ { widgetType := "Row" }),
      .shareState ⟨3⟩ ⟨2⟩ ]

end SharedTree

end WidgetStyle
