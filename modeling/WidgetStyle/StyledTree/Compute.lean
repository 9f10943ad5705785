import WidgetStyle.StyledTree.Basic

/-!
# Styles on request

Styles are computed when they are asked for and kept in the cache.  A request
returns the style or the error that stopped it, together with the styled tree as
it is then: what was computed before an error stays.
-/

namespace WidgetStyle.StyledTree

variable {sharing : Sharing}

/-- The style of a node by itself, nothing for an unknown node. -/
def ownStyle (styled : StyledTree sharing) (id : NodeId) :
    Except StyleError (Option Style) × StyledTree sharing :=
  match styled.tree.get? id with
  | none => (.ok none, styled)
  | some node =>
      match styled.trusted? node with
      | some style => (.ok (some style), styled)
      | none =>
          let prepared := styled.prepare
          match prepared.cascade.styleOf prepared.surroundings node with
          | .error error => (.error error, prepared)
          | .ok style => (.ok (some style), prepared.keepStyle id style)

/-- The styled tree with the style of a node computed from the cached style of its
parent and cached in turn, unless an error stops that. -/
def computeBelow (styled : StyledTree sharing) (node : Node) :
    Except StyleError Style × StyledTree sharing :=
  let parentStyle := node.parent.bind styled.styles.get?
  match styled.cascade.styleBelow parentStyle styled.surroundings node with
  | .error error => (.error error, styled)
  | .ok style => (.ok style, styled.keepStyle node.id style)

/-- The style of a node that inherits from its parent, for which the parent is
styled first.  The bound limits how far up this goes. -/
def inheritedStyleWithin (styled : StyledTree sharing) :
    Nat → NodeId → Except StyleError (Option Style) × StyledTree sharing
  | 0, _ => (.ok none, styled)
  | bound + 1, id =>
      match styled.tree.get? id with
      | none => (.ok none, styled)
      | some node =>
          match styled.trusted? node with
          | some style => (.ok (some style), styled)
          | none =>
              let above : Except StyleError (Option Style) × StyledTree sharing :=
                match node.parent with
                | some parent => styled.inheritedStyleWithin bound parent
                | none => (.ok none, styled)
              match above with
              | (.error error, climbed) => (.error error, climbed)
              | (.ok _, climbed) =>
                  let (result, computed) := climbed.prepare.computeBelow node
                  (result.map some, computed)

/-- The style of a node that inherits from its parent, nothing for an unknown
node. -/
def inheritedStyle (styled : StyledTree sharing) (id : NodeId) :
    Except StyleError (Option Style) × StyledTree sharing :=
  styled.inheritedStyleWithin styled.tree.size id

/-! ## Passes over the tree -/

/-- The ids of all nodes that have a dirty node below them. -/
def pathsToDirty (styled : StyledTree sharing) : List NodeId :=
  styled.tree.dirtyIds.flatMap fun id => (styled.tree.ancestors id).map (·.id)

/-- The pass over the ids on a stack, each followed by its children.  A node whose
style can be trusted is left alone, and what is below it is skipped unless some
of that is known to be dirty.  Counts the styles computed. -/
def passOver (styled : StyledTree sharing) (paths : List NodeId) :
    Nat → List NodeId → Except StyleError Nat × StyledTree sharing
  | _, [] => (.ok 0, styled)
  | 0, _ :: _ => (.ok 0, styled)
  | bound + 1, id :: stack =>
      match styled.tree.get? id with
      | none => styled.passOver paths bound stack
      | some node =>
          if (styled.trusted? node).isSome then
            styled.passOver paths bound
              (if paths.contains id then node.children ++ stack else stack)
          else
            match styled.computeBelow node with
            | (.error error, stopped) => (.error error, stopped)
            | (.ok _, computed) =>
                let (count, passed) := computed.passOver paths bound (node.children ++ stack)
                (count.map (· + 1), passed)

/-- The styles of the whole tree brought up to date from the root down, and how
many had to be computed.  The selectors are read first, even if nothing is left to
be computed. -/
def refreshDown (styled : StyledTree sharing) : Except StyleError Nat × StyledTree sharing :=
  match styled.tree.root with
  | none => (.ok 0, styled)
  | some root =>
      match styled.selectorSet with
      | .error excess => (.error (.tooManyDigits excess), styled)
      | .ok _ => styled.prepare.passOver styled.pathsToDirty styled.tree.size [root]

/-- The styles of some nodes by themselves brought up to date, and how many had
to be computed. -/
def refreshEach (styled : StyledTree sharing) :
    List NodeId → Except StyleError Nat × StyledTree sharing
  | [] => (.ok 0, styled)
  | id :: rest =>
      if ((styled.tree.get? id).bind styled.trusted?).isSome then styled.refreshEach rest
      else
        match styled.ownStyle id with
        | (.error error, stopped) => (.error error, stopped)
        | (.ok _, computed) =>
            let (count, passed) := computed.refreshEach rest
            (count.map (· + 1), passed)

/-- All styles brought up to date, with or without inheritance as configured,
and how many had to be computed. -/
def refresh (styled : StyledTree sharing) : Except StyleError Nat × StyledTree sharing :=
  if styled.config.inheritance then styled.refreshDown
  else styled.refreshEach (styled.tree.nodes.map (·.id))

end WidgetStyle.StyledTree
