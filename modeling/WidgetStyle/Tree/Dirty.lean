import WidgetStyle.Tree.Basic

/-!
# Dirty nodes

Which nodes get dirty when something changes.  A change of what a node inherits
reaches its subtree.  A change of its identity or state also reaches the
siblings after it with their subtrees, since selectors look back at siblings.
-/

namespace WidgetStyle.Tree

variable {sharing : Sharing}

/-- The tree with a node and everything below it marked as dirty. -/
def dirtySubtree (tree : Tree sharing) (id : NodeId) : Tree sharing :=
  if tree.contains id then
    let marked := sharing.holders (tree.subtree id)
    { tree with
      nodes := tree.nodes.map fun node =>
        if marked.contains node.id then node.dirtied else node }
  else tree

/-- The siblings after a node. -/
def followingSiblings (tree : Tree sharing) (id : NodeId) : List NodeId :=
  match (tree.get? id).bind tree.parent? with
  | some parent => (parent.children.dropWhile fun child => decide (child ≠ id)).drop 1
  | none => []

/-- The tree after a change of a node's identity or state. -/
def dirtyDependents (tree : Tree sharing) (id : NodeId) : Tree sharing :=
  (tree.followingSiblings id).foldl dirtySubtree (tree.dirtySubtree id)

/-- The ids of all dirty nodes in the order of creation. -/
def dirtyIds (tree : Tree sharing) : List NodeId :=
  (tree.nodes.filter fun node => node.flags.dirty).map fun node => node.id

/-- The tree with no node marked as dirty. -/
def cleanAll (tree : Tree sharing) : Tree sharing :=
  { tree with
    nodes := tree.nodes.map fun node => { node with flags := { node.flags with dirty := false } } }

/-- The tree with a child put in its place.  Only a child that moves, or whose
number of siblings changes, gets dirty with its subtree. -/
def placeChild (total : Nat) (tree : Tree sharing) (entry : NodeId × Nat) : Tree sharing :=
  match tree.get? entry.1 with
  | none => tree
  | some child =>
      let placed := tree.modifyState entry.1 fun node =>
        { node with placement := Placement.ofIndex entry.2 total }
      if child.placement.index = entry.2 ∧ child.placement.total = total then placed
      else placed.dirtySubtree entry.1

/-- The tree with all children of a node put in their places. -/
def placeChildren (tree : Tree sharing) (parent : NodeId) : Tree sharing :=
  let children := tree.childrenOf parent
  children.zipIdx.foldl (placeChild children.length) tree

end WidgetStyle.Tree
