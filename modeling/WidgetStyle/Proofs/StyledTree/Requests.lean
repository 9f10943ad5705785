import WidgetStyle.StyledTree.Compute
import WidgetStyle.StyledTree.Rebuild

/-!
# Requests and runs

Everything that can be asked of a styled tree as data, what the styled tree is
after a request, and the runs: sequences of requests of any length in any order.
Which requests a run may hold, and in which states, is left to the claim about it.

In the runs each node holds a state of its own.  Requests are performed on styled trees
in which nodes hold states together, too, and a node can be given the state of another
one there.
-/

namespace WidgetStyle

/-- The sheet of one rule with one declaration. -/
def Sheet.ofRule (selector property value : String) : Sheet where
  rules := [{ selector, declarations := [{ property, value }] }]

/-- A change of a tree by one of its own operations.  The flags that replace those of a node
come with a new state. -/
inductive TreeChange where
  | plantRoot (identity : Identity)
  | appendChild (parent : NodeId) (identity : Identity)
  | removeSubtree (id : NodeId)
  | permuteChildren (parent : NodeId) (order : List NodeId)
  | replaceClasses (id : NodeId) (classes : List String)
  | insertClass (id : NodeId) (name : String)
  | eraseClass (id : NodeId) (name : String)
  | replaceElementId (id : NodeId) (elementId : Option String)
  | replaceInlineStyle (id : NodeId) (style : Option Style)
  | writeFlags (id : NodeId) (changes : List (String × Bool))
  | replaceFlags (id : NodeId) (flags : Flags)
  | dirtySubtree (id : NodeId)
  | cleanAll
  | giveFocus (owner : Option NodeId)
  | giveHover (owner : Option NodeId)

namespace TreeChange

variable {sharing : Sharing}

/-- The outcome of a change, which is an error when it cannot be made. -/
def outcome (tree : Tree sharing) : TreeChange → Except TreeError (Tree sharing)
  | plantRoot identity => .ok (tree.plantRoot identity).2
  | appendChild parent identity => (tree.appendChild parent identity).map (·.2)
  | removeSubtree id => .ok (tree.removeSubtree id).2
  | permuteChildren parent order => tree.permuteChildren parent order
  | replaceClasses id classes => tree.replaceClasses id classes
  | insertClass id name => tree.insertClass id name
  | eraseClass id name => tree.eraseClass id name
  | replaceElementId id elementId => tree.replaceElementId id elementId
  | replaceInlineStyle id style => tree.replaceInlineStyle id style
  | writeFlags id changes => tree.writeFlags id changes
  | replaceFlags id flags => tree.replaceFlags id flags
  | dirtySubtree id => .ok (tree.dirtySubtree id)
  | cleanAll => .ok tree.cleanAll
  | giveFocus owner => .ok (tree.giveFocus owner)
  | giveHover owner => .ok (tree.giveHover owner)

/-- The tree after a change.  A change that cannot be made leaves it as it is. -/
def apply (change : TreeChange) (tree : Tree sharing) : Tree sharing :=
  match change.outcome tree with
  | .ok after => after
  | .error _ => tree

/-- The groups of nodes that hold states together after a change: who gets a new state leaves
its group. -/
def sharingAfter (sharing : Sharing) : TreeChange → Sharing
  | replaceFlags id _ => sharing.leave id
  | _ => sharing

end TreeChange

/-- What can be asked of a styled tree. -/
inductive Request where
  | change (change : TreeChange)
  | replaceSheet (sheet : Sheet)
  | editSheet (edit : Sheet → Sheet)
  | dirtyAll
  | dirtySubtree (id : NodeId)
  | focusElement (elementId : Option String)
  | hoverElement (elementId : Option String)
  | removeSubtree (id : NodeId)
  | clearTree
  | buildFlat (identity : Identity) (children : List Identity)
  | rebuild (view : View)
  | ownStyle (id : NodeId)
  | inheritedStyle (id : NodeId)
  | refresh
  | refreshDown

/-- The groups of nodes that hold states together after a request. -/
def Request.sharingAfter (sharing : Sharing) : Request → Sharing
  | change made => made.sharingAfter sharing
  | _ => sharing

namespace StyledTree

/-- A styled tree without nodes, the first of which will get the given id. -/
def blank (sheet : Sheet) (config : Config) (first : NodeId) : StyledTree :=
  { config, sheet, tree := { nextId := first } }

/-- The styled tree after a request. -/
def perform {sharing : Sharing} (styled : StyledTree sharing) : Request → StyledTree sharing
  | .change change => { styled with tree := change.apply styled.tree }
  | .replaceSheet sheet => styled.replaceSheet sheet
  | .editSheet edit => styled.editSheet edit
  | .dirtyAll => styled.dirtyAll
  | .dirtySubtree id => styled.dirtySubtree id
  | .focusElement elementId => styled.focusElement elementId
  | .hoverElement elementId => styled.hoverElement elementId
  | .removeSubtree id => (styled.removeSubtree id).2
  | .clearTree => styled.clearTree
  | .buildFlat identity children =>
      match styled.buildFlat identity children with
      | .ok (_, built) => built
      | .error _ => styled
  | .rebuild view =>
      match styled.rebuild view with
      | .ok (_, built) => built
      | .error _ => styled
  | .ownStyle id => (styled.ownStyle id).2
  | .inheritedStyle id => (styled.inheritedStyle id).2
  | .refresh => styled.refresh.2
  | .refreshDown => styled.refreshDown.2

/-- A styled tree that is reached from another one by requests, each of them
allowed in the state in which it is made. -/
inductive Run (allowed : StyledTree → Request → Prop) (start : StyledTree) : StyledTree → Prop where
  | start : Run allowed start start
  | next {styled : StyledTree} {request : Request} :
      Run allowed start styled → allowed styled request →
        Run allowed start (styled.perform request)

/-- What holds at the start and is kept by every allowed request holds in every
state that a run reaches. -/
theorem Run.invariant {allowed : StyledTree → Request → Prop} {start styled : StyledTree}
    {holds : StyledTree → Prop} (run : Run allowed start styled) (initial : holds start)
    (step : ∀ {styled : StyledTree} {request : Request}, holds styled →
      allowed styled request → holds (styled.perform request)) : holds styled := by
  induction run with
  | start => exact initial
  | next _ permitted ih => exact step ih permitted

end StyledTree

/-! ## Shared states -/

/-- A styled tree with the groups of its nodes that hold states together. -/
structure SharedStyledTree where
  sharing : Sharing := []
  styled : StyledTree sharing := {}

namespace SharedStyledTree

/-- The styled tree after a request. -/
def perform (shared : SharedStyledTree) (request : Request) : SharedStyledTree :=
  let groups := request.sharingAfter shared.sharing
  { sharing := groups
    styled := (shared.styled.replaceTree (shared.styled.tree.regroup groups)).perform request }

/-- The styled tree with a node given the state of another node.  If one of the two is unknown,
it stays as it is. -/
def shareState (shared : SharedStyledTree) (id other : NodeId) : SharedStyledTree :=
  match shared.styled.shareState id other with
  | .ok styled => { sharing := shared.sharing.join id other, styled }
  | .error _ => shared

/-- Who holds which state is no matter of the cascade. -/
theorem cascade_shareState (shared : SharedStyledTree) (id other : NodeId) :
    (shared.shareState id other).styled.snapshot.cascade = shared.styled.cascade := by
  rw [shareState, StyledTree.shareState]
  cases shared.styled.tree.shareState id other with
  | error error => rfl
  | ok tree => rfl

end SharedStyledTree

end WidgetStyle
