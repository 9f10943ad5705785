import WidgetStyle.Matching.Compound
import WidgetStyle.Matching.Surroundings

/-!
# Matching selectors

A selector is matched from its target backwards.  For each combinator all nodes
that can stand on its left are tried, nearest first, so a choice that leads
nowhere does not spoil the match.
-/

namespace WidgetStyle.Selector

/-- Whether a node meets a compound, and the links before it, last one first,
can be met by nodes that lie as their combinators say. -/
def matchesFrom (surroundings : Surroundings) (compound : Compound) : List Link → Node → Bool
  | [], node => compound.holdsOf node
  | link :: before, node =>
      compound.holdsOf node &&
        match link.combinator with
        | none => false
        | some combinator =>
            (surroundings.leftOf combinator node).any
              (matchesFrom surroundings link.compound before)

/-- Whether the selector selects the node.  The empty selector selects none. -/
def selects (selector : Selector) (surroundings : Surroundings) (node : Node) : Bool :=
  match selector.links.reverse with
  | [] => false
  | target :: before => matchesFrom surroundings target.compound before node

end WidgetStyle.Selector

namespace WidgetStyle.Tree

/-- The nodes that a selector selects, in the order of the walk. -/
def select (tree : Tree) (selector : Selector) : List Node :=
  tree.preorderNodes.filter fun node => selector.selects tree.surroundings node

/-- The first node that a selector selects. -/
def selectFirst? (tree : Tree) (selector : Selector) : Option Node :=
  tree.preorderNodes.find? fun node => selector.selects tree.surroundings node

end WidgetStyle.Tree
