import WidgetStyle.Tree.Registry

/-!
# Widget trees

A tree owns its nodes and lists them in the order of their creation.  The links
between parents and children are ids; the root is the one node without a parent.
The walks below follow these links with a bound on their length, the number of
nodes, which no walk in a proper tree exceeds.

A node holds its flags and its placement, which are its state, by itself unless it
was given the state of another node.  Then both hold one state, and what is written
to the state of the one shows in the other.  Who holds states together is part of
the type of a tree, so that a plain `Tree` is one in which nobody does.
-/

namespace WidgetStyle

/-- The nodes that hold states together, a group for each such state. -/
abbrev Sharing := List (List NodeId)

namespace Sharing

/-- Some nodes, and all others that hold a state together with one of them. -/
def holders : Sharing → List NodeId → List NodeId
  | [], ids => ids
  | group :: rest, ids =>
      holders rest
        (if group.any ids.contains then ids ++ group.filter fun member => !ids.contains member
        else ids)

/-- The groups once a node holds a state by itself. -/
def leave (sharing : Sharing) (id : NodeId) : Sharing :=
  sharing.map fun group => group.filter fun member => decide (member ≠ id)

/-- The groups once a node has left its own and holds the state of another node. -/
def join (sharing : Sharing) (id other : NodeId) : Sharing :=
  if id = other then sharing
  else
    let others := sharing.leave id
    (id :: others.holders [other]) :: others.filter fun group => !group.contains other

end Sharing

/-- Nodes in the order of creation, the root among them, the registries, and the
id that the next node gets. -/
structure Tree (sharing : Sharing := []) where
  nodes : List Node := []
  root : Option NodeId := none
  registry : Registry := {}
  nextId : NodeId := ⟨1⟩
deriving DecidableEq, Repr

namespace Tree

variable {sharing : Sharing}

/-- The node with the given id. -/
def get? (tree : Tree sharing) (id : NodeId) : Option Node :=
  tree.nodes.find? fun node => decide (node.id = id)

/-- Whether the id belongs to a node of the tree. -/
def contains (tree : Tree sharing) (id : NodeId) : Bool :=
  (tree.get? id).isSome

/-- The number of nodes. -/
def size (tree : Tree sharing) : Nat :=
  tree.nodes.length

/-- Whether the tree has no node. -/
def isEmpty (tree : Tree sharing) : Bool :=
  tree.nodes.isEmpty

/-- The tree with one node changed. -/
def modify (tree : Tree sharing) (id : NodeId) (change : Node → Node) : Tree sharing :=
  { tree with nodes := tree.nodes.map fun node => if node.id = id then change node else node }

/-- A change that keeps ids shows in the one node, and the other nodes are left
alone. -/
theorem get?_modify (tree : Tree sharing) (id other : NodeId) (change : Node → Node)
    (keepsId : ∀ node, (change node).id = node.id) :
    (tree.modify id change).get? other =
      if other = id then (tree.get? id).map change else tree.get? other := by
  unfold modify get?
  induction tree.nodes with
  | nil => simp
  | cons node rest ih =>
      simp only [List.map_cons, List.find?_cons]
      by_cases changed : node.id = id
      · simp only [changed, if_true, keepsId]
        by_cases same : id = other
        · simp [same]
        · simpa [same, Ne.symm same] using ih
      · simp only [changed, if_false, decide_false]
        by_cases same : node.id = other
        · have different : ¬other = id := fun equal => changed (same.trans equal)
          simp [same, different]
        · simpa [same] using ih

/-- Two changes of one node are one, if the first keeps its id. -/
theorem modify_modify (tree : Tree sharing) (id : NodeId) (first second : Node → Node)
    (keepsId : ∀ node, (first node).id = node.id) :
    (tree.modify id first).modify id second = tree.modify id fun node => second (first node) := by
  have each (node : Node) :
      (if (if node.id = id then first node else node).id = id then
        second (if node.id = id then first node else node)
      else if node.id = id then first node else node) =
        if node.id = id then second (first node) else node := by
    by_cases changed : node.id = id
    · simp only [changed, if_true, keepsId]
    · simp only [changed, if_false]
  simp only [modify, List.map_map, Function.comp_def, each]

/-- The tree with the state of one node changed, and so for all that hold it. -/
def modifyState (tree : Tree sharing) (id : NodeId) (change : Node → Node) : Tree sharing :=
  (sharing.holders [id]).foldl (fun result holder => result.modify holder change) tree

/-- Where nobody holds a state together with others, only the one node changes. -/
theorem modifyState_eq (tree : Tree) (id : NodeId) (change : Node → Node) :
    tree.modifyState id change = tree.modify id change :=
  rfl

/-- The tree with other groups of nodes that hold states together. -/
def regroup (tree : Tree sharing) (groups : Sharing) : Tree groups where
  nodes := tree.nodes
  root := tree.root
  registry := tree.registry
  nextId := tree.nextId

/-- The tree as it looks at the moment, with no regard to who holds states together. -/
def snapshot (tree : Tree sharing) : Tree :=
  tree.regroup []

/-! ## Links -/

/-- The children of a node, none for an unknown one. -/
def childrenOf (tree : Tree sharing) (id : NodeId) : List NodeId :=
  match tree.get? id with
  | some node => node.children
  | none => []

/-- The parent of a node. -/
def parent? (tree : Tree sharing) (node : Node) : Option Node :=
  node.parent.bind tree.get?

/-- The sibling directly before a node, found through the node's index.  Only with a state that
it holds together with another node can a node have an index off the list of its parent's
children.  To look there is a fault, which counts as no sibling here. -/
def previous? (tree : Tree sharing) (node : Node) : Option Node :=
  match tree.parent? node with
  | none => none
  | some parent =>
      if node.placement.index = 0 then none
      else parent.children[(node.placement.index - 1).toNat]?.bind tree.get?

/-! ## Walks -/

/-- The ids on a stack, each followed by everything below it.  A popped id puts
its children on top of the stack, so they come next and in their order. -/
def collect (tree : Tree sharing) : Nat → List NodeId → List NodeId
  | _, [] => []
  | 0, _ :: _ => []
  | bound + 1, id :: stack => id :: tree.collect bound (tree.childrenOf id ++ stack)

/-- Everything below a node, each node before its children. -/
def descendants (tree : Tree sharing) (id : NodeId) : List NodeId :=
  tree.collect tree.size (tree.childrenOf id)

/-- A node with everything below it. -/
def subtree (tree : Tree sharing) (id : NodeId) : List NodeId :=
  id :: tree.descendants id

/-- All ids from the root on, each node before its children. -/
def preorder (tree : Tree sharing) : List NodeId :=
  match tree.root with
  | some root => tree.subtree root
  | none => []

/-- All nodes in the order of the walk. -/
def preorderNodes (tree : Tree sharing) : List Node :=
  tree.preorder.filterMap tree.get?

/-- The nodes above a node, nearest first, at most as many as the bound. -/
def climb (tree : Tree sharing) : Nat → Node → List Node
  | 0, _ => []
  | bound + 1, node =>
      match tree.parent? node with
      | some parent => parent :: tree.climb bound parent
      | none => []

/-- The nodes above a node up to the root, nearest first. -/
def ancestors (tree : Tree sharing) (id : NodeId) : List Node :=
  match tree.get? id with
  | some node => tree.climb tree.size node
  | none => []

/-! ## Registered nodes -/

/-- The id of the node that is registered under an element id. -/
def idOfElement? (tree : Tree sharing) (elementId : String) : Option NodeId :=
  tree.registry.byElementId.get? elementId

/-- The node that is registered under an element id. -/
def nodeOfElement? (tree : Tree sharing) (elementId : String) : Option Node :=
  (tree.idOfElement? elementId).bind tree.get?

/-- The nodes that are registered under a widget type. -/
def nodesOfType (tree : Tree sharing) (widgetType : String) : List Node :=
  (Buckets.valuesAt tree.registry.byType widgetType).filterMap tree.get?

/-- The nodes that are registered under a class. -/
def nodesOfClass (tree : Tree sharing) (name : String) : List Node :=
  (Buckets.valuesAt tree.registry.byClass name).filterMap tree.get?

end Tree

end WidgetStyle
