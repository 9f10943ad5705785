import WidgetStyle.StyledTree.Basic

/-!
# Rebuilding from a view

A view describes the widgets that there should be.  The first build makes a node
for each of them.  A rebuild pairs views with former children and keeps the
nodes of the pairs, with their ids, styles and state.  Views pair by element id;
those that have none pair by place, and only with a child of their own type that
has none either.  A kept node takes over the classes of its view.  Views that
find no partner get new nodes, and former children that find none are removed.
-/

namespace WidgetStyle

/-- A widget with the widgets inside it. -/
inductive View where
  | widget (identity : Identity) (children : List View)

namespace View

/-- What the widget is. -/
def identity : View → Identity
  | widget identity _ => identity

/-- The widgets inside the widget. -/
def children : View → List View
  | widget _ children => children

end View

namespace StyledTree

variable {sharing : Sharing}

/-- The id of a new last child of a node, and the styled tree with it. -/
def appendChild (styled : StyledTree sharing) (parent : NodeId) (identity : Identity) :
    Except TreeError (NodeId × StyledTree sharing) :=
  (styled.tree.appendChild parent identity).map fun (id, tree) => (id, { styled with tree })

mutual

/-- The id of the node of a view under a parent, and the styled tree with that node
and everything below it. -/
def appendView (styled : StyledTree sharing) (parent : NodeId) :
    View → Except TreeError (NodeId × StyledTree sharing)
  | .widget identity children =>
      match styled.appendChild parent identity with
      | .error error => .error error
      | .ok (id, grown) => (grown.appendViews id children).map fun built => (id, built)

/-- The styled tree with the nodes of some views added under a parent in order. -/
def appendViews (styled : StyledTree sharing) (parent : NodeId) :
    List View → Except TreeError (StyledTree sharing)
  | [] => .ok styled
  | view :: rest =>
      match styled.appendView parent view with
      | .error error => .error error
      | .ok (_, built) => built.appendViews parent rest

end

/-- The styled tree with the classes of a node brought in line with an identity,
if the node is of the same type and element id. -/
def adopt? (styled : StyledTree sharing) (id : NodeId) (identity : Identity) :
    Option (StyledTree sharing) :=
  match styled.tree.get? id with
  | none => none
  | some node =>
      if node.identity.widgetType = identity.widgetType ∧
          node.identity.elementId = identity.elementId then
        if Identity.sameNames node.identity.classes identity.classes then some styled
        else
          match styled.tree.replaceClasses id identity.classes with
          | .ok tree => some { styled with tree }
          | .error _ => none
      else none

/-- The children that a node had before a rebuild, in order and by element id.
Of two children with one element id the later one counts. -/
structure FormerChildren where
  ids : List NodeId
  byElementId : Table String NodeId

/-- The children of a node as they are now. -/
def formerChildren (styled : StyledTree sharing) (parent : NodeId) : FormerChildren :=
  let ids := styled.tree.childrenOf parent
  { ids
    byElementId := (ids.filterMap styled.tree.get?).foldl
      (fun table child =>
        match child.identity.elementId with
        | some name => table.put name child.id
        | none => table) {} }

/-- The old child that could stand for a view at the given place. -/
def keepable? (styled : StyledTree sharing) (old : FormerChildren) (place : Nat)
    (identity : Identity) : Option NodeId :=
  match identity.elementId with
  | some name => old.byElementId.get? name
  | none =>
      match old.ids[place]?.bind styled.tree.get? with
      | none => none
      | some child =>
          if child.identity.elementId = none ∧
              child.identity.widgetType = identity.widgetType then some child.id
          else none

/-- The styled tree without the old children that are not taken, as far as they are
still there. -/
def dropUntaken (styled : StyledTree sharing) (taken : List NodeId) (old : List NodeId) :
    StyledTree sharing :=
  old.foldl
    (fun result id =>
      if !taken.contains id && result.tree.contains id then (result.removeSubtree id).2 else result)
    styled

/-- The styled tree with the children of a rebuilt node in their final order. -/
def finishChildren (styled : StyledTree sharing) (parent : NodeId) (old taken order : List NodeId) :
    Except TreeError (StyledTree sharing) :=
  let trimmed := styled.dropUntaken taken old
  (trimmed.tree.permuteChildren parent order).map fun tree => { trimmed with tree }

mutual

/-- The node that stands for a view at the given place, kept or made anew, the old
children that are taken by then, and the styled tree.  A child that was looked at
is taken even when it could not be kept. -/
def alignView (styled : StyledTree sharing) (parent : NodeId) (old : FormerChildren)
    (taken : List NodeId) (place : Nat) :
    View → Except TreeError (NodeId × List NodeId × StyledTree sharing)
  | .widget identity children =>
      let candidate := (styled.keepable? old place identity).filter fun id =>
        !taken.contains id
      match candidate with
      | none =>
          match styled.appendChild parent identity with
          | .error error => .error error
          | .ok (id, grown) =>
              (grown.appendViews id children).map fun built => (id, taken, built)
      | some id =>
          match styled.adopt? id identity with
          | none =>
              match (styled.removeSubtree id).2.appendChild parent identity with
              | .error error => .error error
              | .ok (new, grown) =>
                  (grown.appendViews new children).map fun built => (new, id :: taken, built)
          | some adopted =>
              let inner := adopted.formerChildren id
              match adopted.alignViews id inner [] 0 children with
              | .error error => .error error
              | .ok (order, innerTaken, aligned) =>
                  (aligned.finishChildren id inner.ids innerTaken order).map fun finished =>
                    (id, id :: taken, finished)

/-- The nodes that stand for some views from the given place on, the old children
that are taken by then, and the styled tree. -/
def alignViews (styled : StyledTree sharing) (parent : NodeId) (old : FormerChildren)
    (taken : List NodeId) (place : Nat) :
    List View → Except TreeError (List NodeId × List NodeId × StyledTree sharing)
  | [] => .ok ([], taken, styled)
  | view :: rest =>
      match styled.alignView parent old taken place view with
      | .error error => .error error
      | .ok (id, taken, aligned) =>
          (aligned.alignViews parent old taken (place + 1) rest).map
            fun (order, takenLast, finished) => (id :: order, takenLast, finished)

end

/-- The styled tree with the children of a node brought in line with some views. -/
def alignChildren (styled : StyledTree sharing) (parent : NodeId) (views : List View) :
    Except TreeError (StyledTree sharing) :=
  let old := styled.formerChildren parent
  match styled.alignViews parent old [] 0 views with
  | .error error => .error error
  | .ok (order, taken, aligned) =>
      aligned.finishChildren parent old.ids taken order

/-- The root's id, and the styled tree with its tree made anew from a view. -/
def buildAnew (styled : StyledTree sharing) (view : View) :
    Except TreeError (NodeId × StyledTree sharing) :=
  let reset := styled.clearTree
  let (root, tree) := reset.tree.plantRoot view.identity
  ({ reset with tree }.appendViews root view.children).map fun built => (root, built)

/-- The root's id, and the styled tree with its tree brought in line with a view.
A tree whose root cannot stand for the view is made anew. -/
def rebuild (styled : StyledTree sharing) (view : View) :
    Except TreeError (NodeId × StyledTree sharing) :=
  match styled.tree.root with
  | none => styled.buildAnew view
  | some root =>
      match styled.adopt? root view.identity with
      | none => styled.buildAnew view
      | some adopted =>
          (adopted.alignChildren root view.children).map fun built => (root, built)

/-- The root's id, and the styled tree with a tree of one root and its children. -/
def buildFlat (styled : StyledTree sharing) (identity : Identity) (children : List Identity) :
    Except TreeError (NodeId × StyledTree sharing) :=
  styled.buildAnew (.widget identity (children.map fun child => .widget child []))

end StyledTree

end WidgetStyle
