import WidgetStyle.Cascade.Basic
import WidgetStyle.Tree.Mutation

/-!
# Styled trees

A styled tree is a tree with a sheet and the styles that were computed so far.
Such a style is trusted only while its node is clean: changes of the tree mark
nodes as dirty, and a dirty node is styled anew on the next request.  A new or
edited sheet drops all computed styles and the selectors that were read.
-/

namespace WidgetStyle

/-- A tree with a sheet, the styles computed so far, the selectors once they are
read, and the nodes that were last given the focus and the pointer. -/
structure StyledTree (sharing : Sharing := []) where
  config : Config := {}
  sheet : Sheet := {}
  tree : Tree sharing := {}
  styles : Table NodeId Style := {}
  selectors : Option SelectorSet := none
  focused : Option NodeId := none
  hovered : Option NodeId := none

namespace StyledTree

variable {sharing : Sharing}

/-! ## The sheet -/

/-- The styled tree without cached styles and without selectors read.  Nodes
stay as clean or dirty as they are. -/
def forgetCascade (styled : StyledTree sharing) : StyledTree sharing :=
  { styled with
    selectors := none
    styles := {}
    tree :=
      { styled.tree with
        nodes := styled.tree.nodes.map fun node => { node with computed := none } } }

/-- The styled tree with another sheet. -/
def replaceSheet (styled : StyledTree sharing) (sheet : Sheet) : StyledTree sharing :=
  { styled with sheet }.forgetCascade

/-- The styled tree with its sheet edited. -/
def editSheet (styled : StyledTree sharing) (edit : Sheet → Sheet) : StyledTree sharing :=
  let reset := styled.forgetCascade
  { reset with sheet := edit reset.sheet }

/-- The styled tree with its sheet edited behind its back: selectors that were
read stay in use, and so do cached styles. -/
def editSheetSilently (styled : StyledTree sharing) (edit : Sheet → Sheet) : StyledTree sharing :=
  { styled with sheet := edit styled.sheet }

/-- The selectors in use: those that were read, or else those of the sheet. -/
def selectorSet (styled : StyledTree sharing) : Except Text.TooManyDigits SelectorSet :=
  match styled.selectors with
  | some set => .ok set
  | none => SelectorSet.ofSheet styled.sheet

/-- The styled tree with the selectors of its sheet read, if they can be. -/
def prepare (styled : StyledTree sharing) : StyledTree sharing :=
  { styled with selectors := styled.selectorSet.toOption }

/-- The cascade of the sheet as it is now with the selectors in use. -/
def cascade (styled : StyledTree sharing) : Cascade where
  sheet := styled.sheet
  config := styled.config
  set := styled.selectorSet

/-- The surroundings of nodes, as they are found by id. -/
def surroundings (styled : StyledTree sharing) : Surroundings :=
  styled.tree.surroundingsWithout []

/-! ## The cache -/

/-- The style of a node, if the node is clean and has one. -/
def trusted? (styled : StyledTree sharing) (node : Node) : Option Style :=
  if node.flags.dirty then none else styled.styles.get? node.id

/-- The styled tree with a computed style cached, which makes the node clean. -/
def keepStyle (styled : StyledTree sharing) (id : NodeId) (style : Style) : StyledTree sharing :=
  { styled with
    styles := styled.styles.put id style
    tree := (styled.tree.modify id fun node =>
      { node with computed := some style }).modifyState id fun node =>
        { node with flags := { node.flags with dirty := false } } }

/-- The styled tree without the cached style of a node. -/
def dropStyle (styled : StyledTree sharing) (id : NodeId) : StyledTree sharing :=
  { styled with
    styles := styled.styles.erase id
    tree := styled.tree.modify id fun node => { node with computed := none } }

/-- The styled tree with all cached styles dropped and all nodes dirty. -/
def dirtyAll (styled : StyledTree sharing) : StyledTree sharing :=
  { styled with
    styles := {}
    tree :=
      { styled.tree with
        nodes := styled.tree.nodes.map fun node => { node.dirtied with computed := none } } }

/-- The styled tree with the cached styles of a subtree dropped and its nodes
dirty. -/
def dirtySubtree (styled : StyledTree sharing) (id : NodeId) : StyledTree sharing :=
  if styled.tree.contains id then
    let stripped := (styled.tree.subtree id).foldl dropStyle styled
    { stripped with tree := stripped.tree.dirtySubtree id }
  else styled

/-! ## Interaction -/

/-- The node with an element id, now the only one with the flag, and the styled
tree after the flag has moved there.  When the owner changes, the styles of the
old and the new one are dropped. -/
def giveFlag (styled : StyledTree sharing) (flag : Flag) (current : Option NodeId)
    (elementId : Option String) : Option NodeId × StyledTree sharing :=
  let owner := elementId.bind styled.tree.idOfElement?
  let moved := { styled with tree := styled.tree.giveFlag flag owner }
  (owner,
    if owner = current then moved
    else (current.toList ++ owner.toList).foldl dropStyle moved)

/-- The styled tree with the focus on the node of an element id, or on none. -/
def focusElement (styled : StyledTree sharing) (elementId : Option String) : StyledTree sharing :=
  let (owner, moved) := styled.giveFlag .focused styled.focused elementId
  { moved with focused := owner }

/-- The styled tree with the pointer on the node of an element id, or on none. -/
def hoverElement (styled : StyledTree sharing) (elementId : Option String) : StyledTree sharing :=
  let (owner, moved) := styled.giveFlag .hovered styled.hovered elementId
  { moved with hovered := owner }

/-! ## The tree -/

/-- The styled tree with another tree, in which other nodes may hold states together. -/
def replaceTree {groups : Sharing} (styled : StyledTree sharing) (tree : Tree groups) :
    StyledTree groups where
  config := styled.config
  sheet := styled.sheet
  tree := tree
  styles := styled.styles
  selectors := styled.selectors
  focused := styled.focused
  hovered := styled.hovered

/-- The styled tree with a node given the state of another node. -/
def shareState (styled : StyledTree sharing) (id other : NodeId) :
    Except TreeError (StyledTree (sharing.join id other)) :=
  (styled.tree.shareState id other).map styled.replaceTree

/-- The styled tree as it looks at the moment, with no regard to who holds states together. -/
def snapshot (styled : StyledTree sharing) : StyledTree :=
  styled.replaceTree styled.tree.snapshot

/-- The styled tree with an empty tree.  Ids go on where the old tree left off. -/
def clearTree (styled : StyledTree sharing) : StyledTree sharing :=
  { styled with
    tree := { nextId := styled.tree.nextId }
    styles := {}
    focused := none
    hovered := none }

/-- The ids of a node and everything below it, and the styled tree without them
and their cached styles. -/
def removeSubtree (styled : StyledTree sharing) (id : NodeId) : List NodeId × StyledTree sharing :=
  let (removed, tree) := styled.tree.removeSubtree id
  (removed,
    { styled with
      tree
      styles := removed.foldl (fun styles id => styles.erase id) styled.styles })

end StyledTree

end WidgetStyle
