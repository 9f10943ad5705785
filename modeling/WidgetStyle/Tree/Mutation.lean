import WidgetStyle.Tree.Dirty

/-!
# Changing a tree

The operations that build and change a tree.  Each keeps the links between
parents and children, the placements and the registries in step, and marks as
dirty what may have to look different.  An operation that fails changes nothing.
-/

namespace WidgetStyle

/-- Why a tree cannot be changed as asked. -/
inductive TreeError where
  | unknownNode (id : NodeId)
  | wrongChildren (parent : NodeId)
  | unknownFlags (names : List String)
deriving DecidableEq, Repr

namespace TreeError

/-- The wording of the error. -/
def message : TreeError → String
  | unknownNode id => "DomId(value=" ++ toString id.value ++ ")"
  | wrongChildren parent =>
      "Child order for " ++ parent.toText ++ " must list exactly its children"
  | unknownFlags names => "Unknown state flag(s): " ++ String.intercalate ", " names

end TreeError

namespace Tree

variable {sharing : Sharing}

/-- The node with the given id, or the error that there is none. -/
def require (tree : Tree sharing) (id : NodeId) : Except TreeError Node :=
  match tree.get? id with
  | some node => .ok node
  | none => .error (.unknownNode id)

/-! ## Structure -/

/-- The tree with a new dirty node at the end of its list, and the node's id. -/
def insertNode (tree : Tree sharing) (identity : Identity) (parent : Option NodeId) :
    NodeId × Tree sharing :=
  let node : Node := { id := tree.nextId, identity, flags := { dirty := true }, parent }
  (tree.nextId,
    { tree with
      nodes := tree.nodes ++ [node]
      registry := tree.registry.enter tree.nextId identity
      nextId := tree.nextId.next })

/-- The tree without the given nodes, which are also taken out of the registry. -/
def dropNodes (tree : Tree sharing) (ids : List NodeId) : Tree sharing :=
  { tree with
    nodes := tree.nodes.filter fun node => !ids.contains node.id
    registry := (ids.filterMap tree.get?).foldl
      (fun registry node => registry.withdraw node.id node.identity) tree.registry }

/-- The tree with a node taken out of its parent's children. -/
def detach (tree : Tree sharing) (node : Node) : Tree sharing :=
  match tree.parent? node with
  | some parent =>
      (tree.modify parent.id fun parent =>
        { parent with children := parent.children.erase node.id }).placeChildren parent.id
  | none => tree

/-- The ids of a node and everything below it, and the tree without them.  For an
unknown node nothing is removed. -/
def removeSubtree (tree : Tree sharing) (id : NodeId) : List NodeId × Tree sharing :=
  match tree.get? id with
  | none => ([], tree)
  | some node =>
      let detached := tree.detach node
      let removed := detached.subtree id
      let rest := detached.dropNodes removed
      (removed, if rest.root = some id then { rest with root := none } else rest)

/-- The id of a new root, and the tree with it.  A root that was there before is
removed with its subtree.  A root has no siblings and is not placed. -/
def plantRoot (tree : Tree sharing) (identity : Identity) : NodeId × Tree sharing :=
  let cleared :=
    match tree.root with
    | some root => (tree.removeSubtree root).2
    | none => tree
  let (id, grown) := cleared.insertNode identity none
  (id, { grown with root := some id })

/-- The id of a new last child of a node, and the tree with it. -/
def appendChild (tree : Tree sharing) (parent : NodeId) (identity : Identity) :
    Except TreeError (NodeId × Tree sharing) :=
  match tree.require parent with
  | .error error => .error error
  | .ok _ =>
      let (id, grown) := tree.insertNode identity (some parent)
      let linked := grown.modify parent fun node =>
        { node with children := node.children ++ [id] }
      .ok (id, linked.placeChildren parent)

/-- The tree with the children of a node in another order. -/
def permuteChildren (tree : Tree sharing) (parent : NodeId) (order : List NodeId) :
    Except TreeError (Tree sharing) :=
  match tree.require parent with
  | .error error => .error error
  | .ok node =>
      if order.isPerm node.children then
        .ok ((tree.modify parent fun node => { node with children := order }).placeChildren
          parent)
      else .error (.wrongChildren parent)

/-! ## Identity and style -/

/-- The tree with a node's identity changed. -/
def setIdentity (tree : Tree sharing) (node : Node) (identity : Identity) : Tree sharing :=
  let changed := tree.modify node.id fun node => { node with identity }
  let registry := (tree.registry.withdraw node.id node.identity).enter node.id identity
  { changed with registry }.dirtyDependents node.id

/-- The tree with a node's classes replaced. -/
def replaceClasses (tree : Tree sharing) (id : NodeId) (classes : List String) :
    Except TreeError (Tree sharing) :=
  (tree.require id).map fun node =>
    tree.setIdentity node
      { node.identity with classes := classes.foldl Identity.insertName [] }

/-- The tree with a class added to a node, unchanged when the node has it. -/
def insertClass (tree : Tree sharing) (id : NodeId) (name : String) :
    Except TreeError (Tree sharing) :=
  (tree.require id).map fun node =>
    if node.identity.hasClass name then tree
    else tree.setIdentity node (node.identity.insertClass name)

/-- The tree with a class taken from a node, unchanged when the node lacks it. -/
def eraseClass (tree : Tree sharing) (id : NodeId) (name : String) :
    Except TreeError (Tree sharing) :=
  (tree.require id).map fun node =>
    if node.identity.hasClass name then
      tree.setIdentity node
        { node.identity with classes := node.identity.classes.erase name }
    else tree

/-- The tree with a node's element id replaced or taken away. -/
def replaceElementId (tree : Tree sharing) (id : NodeId) (elementId : Option String) :
    Except TreeError (Tree sharing) :=
  (tree.require id).map fun node => tree.setIdentity node { node.identity with elementId }

/-- The tree with a node's inline style replaced or taken away. -/
def replaceInlineStyle (tree : Tree sharing) (id : NodeId) (style : Option Style) :
    Except TreeError (Tree sharing) :=
  (tree.require id).map fun _ =>
    (tree.modify id fun node => { node with inlineStyle := style }).dirtySubtree id

/-! ## State -/

/-- The flags that say something of the widget: all but the dirty one. -/
def writableFlags : List Flag :=
  (Keyword.all : List Flag).filter fun flag => decide (flag ≠ .dirty)

/-- The settable flag with the given name. -/
def writableFlag? (name : String) : Option Flag :=
  (Keyword.ofName? name).filter fun flag => writableFlags.contains flag

/-- The changes with their flags, or all the names that belong to no settable
flag, sorted. -/
def flagChanges (changes : List (String × Bool)) : Except TreeError (List (Flag × Bool)) :=
  let unknown := (changes.map (·.1)).filter fun name => (writableFlag? name).isNone
  if unknown.isEmpty then
    .ok (changes.filterMap fun change =>
      (writableFlag? change.1).map fun flag => (flag, change.2))
  else .error (.unknownFlags (Text.sortNames unknown.eraseDups))

/-- The tree with some flags of a node set or cleared.  Unknown flags are found
before an unknown node. -/
def writeFlags (tree : Tree sharing) (id : NodeId) (changes : List (String × Bool)) :
    Except TreeError (Tree sharing) :=
  match flagChanges changes with
  | .error error => .error error
  | .ok known =>
      (tree.require id).map fun _ =>
        (tree.modifyState id fun node =>
          { node with flags := node.flags.writeAll known }).dirtyDependents id

/-- The tree with all flags of a node replaced, as they are in the state that the
node holds.  The node keeps its index, and the rest of its placement is derived from
that anew. -/
def replaceFlags (tree : Tree sharing) (id : NodeId) (flags : Flags) :
    Except TreeError (Tree sharing) :=
  (tree.require id).map fun node =>
    let placement := Placement.ofIndex node.placement.index node.placement.total
    (tree.modifyState id fun holder => { holder with flags, placement }).dirtyDependents id

/-- The tree with a node given the state of another node.  Both hold this one state
from then on, and its placement is that of the node that it was given to. -/
def shareState (tree : Tree sharing) (id other : NodeId) :
    Except TreeError (Tree (sharing.join id other)) :=
  match tree.require other with
  | .error error => .error error
  | .ok holder => (tree.regroup (sharing.join id other)).replaceFlags id holder.flags

/-- The tree with one flag of a node turned to a value, unchanged when the node
has that value already. -/
def turnFlag (tree : Tree sharing) (flag : Flag) (value : Bool) (id : NodeId) : Tree sharing :=
  match tree.get? id with
  | some node =>
      if node.flags.read flag = value then tree
      else
        (tree.modifyState id fun node =>
          { node with flags := node.flags.write flag value }).dirtyDependents id
  | none => tree

/-- The tree with a flag set on one node and cleared on all others, or cleared on
all when no node is given. -/
def giveFlag (tree : Tree sharing) (flag : Flag) (owner : Option NodeId) : Tree sharing :=
  let others := (tree.nodes.map (·.id)).filter fun id => decide (some id ≠ owner)
  let cleared := others.foldl (fun result id => result.turnFlag flag false id) tree
  match owner with
  | some id => cleared.turnFlag flag true id
  | none => cleared

/-- The tree with the focus on at most one node. -/
def giveFocus (tree : Tree sharing) (owner : Option NodeId) : Tree sharing :=
  tree.giveFlag .focused owner

/-- The tree with the pointer on at most one node. -/
def giveHover (tree : Tree sharing) (owner : Option NodeId) : Tree sharing :=
  tree.giveFlag .hovered owner

end Tree

end WidgetStyle
