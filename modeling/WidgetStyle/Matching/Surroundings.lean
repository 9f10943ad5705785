import WidgetStyle.Selector.Basic
import WidgetStyle.Tree.Basic

/-!
# Surroundings

What matching needs to know about the surroundings of a node: its parent and its
previous sibling.  They come from a tree and its own links, or from a lookup of
nodes by id, which need not know every node.  A bound on the length of a chain of
steps goes with them, by which every search comes to an end.  Chains are shorter than
that, but for one that goes round in a circle, as steps by the index can where nodes
hold states together.
-/

namespace WidgetStyle

/-- The two steps away from a node, and a bound on the length of a chain. -/
structure Surroundings where
  parent? : Node → Option Node
  previous? : Node → Option Node
  reach : Nat

namespace Surroundings

/-- The nodes reached by repeating a step, nearest first. -/
def chain (step : Node → Option Node) : Nat → Node → List Node
  | 0, _ => []
  | reach + 1, node =>
      match step node with
      | some next => next :: chain step reach next
      | none => []

/-- The parent, its parent, and so on. -/
def ancestors (surroundings : Surroundings) (node : Node) : List Node :=
  chain surroundings.parent? surroundings.reach node

/-- The siblings before a node, nearest first. -/
def precedingSiblings (surroundings : Surroundings) (node : Node) : List Node :=
  chain surroundings.previous? surroundings.reach node

/-- The nodes that can stand to the left of a combinator, nearest first. -/
def leftOf (surroundings : Surroundings) (combinator : Combinator) (node : Node) : List Node :=
  match combinator with
  | .descendant => surroundings.ancestors node
  | .generalSibling => surroundings.precedingSiblings node
  | .child => (surroundings.parent? node).toList
  | .adjacentSibling => (surroundings.previous? node).toList

/-- The surroundings that a lookup of nodes by id gives. -/
def ofLookup (lookup : NodeId → Option Node) (reach : Nat) : Surroundings where
  parent? node := node.parent.bind lookup
  previous? node :=
    match node.parent.bind lookup with
    | none => none
    | some parent =>
        if node.placement.index = 0 then none
        else parent.children[(node.placement.index - 1).toNat]?.bind lookup
  reach := reach

end Surroundings

namespace Tree

variable {sharing : Sharing}

/-- The surroundings of nodes as the links of the tree have them. -/
def surroundings (tree : Tree sharing) : Surroundings where
  parent? := tree.parent?
  previous? := tree.previous?
  reach := tree.size

/-- The surroundings of nodes as a lookup by id finds them, from which some nodes
are hidden. -/
def surroundingsWithout (tree : Tree sharing) (hidden : List NodeId) : Surroundings :=
  .ofLookup (fun id => if hidden.contains id then none else tree.get? id) tree.size

end Tree

end WidgetStyle
