import WidgetStyle.Selector.Basic
import WidgetStyle.Table
import WidgetStyle.Tree.Node

/-!
# Index of selectors

A node that lacks the id, the element name or a class that a target asks for
cannot be selected, so one such name is enough to leave most selectors out of
a match.  A selector goes by the id of its target; without an id by the element
name, and without either by the first class.  A target that names nothing has
to be tried on every node.
-/

namespace WidgetStyle

/-- What a selector goes by. -/
inductive FilingKey where
  | id (name : String)
  | element (name : String)
  | hasClass (name : String)
  | universal
deriving DecidableEq, Repr

/-- What a selector with this target goes by. -/
def Compound.filingKey (compound : Compound) : FilingKey :=
  match compound.id, compound.element, compound.classes with
  | some name, _, _ => .id name
  | none, some name, _ => .element name
  | none, none, name :: _ => .hasClass name
  | none, none, [] => .universal

/-- Positions of selectors in a list, filed under the keys of their targets. -/
structure TargetIndex where
  byId : Buckets String Nat := {}
  byElement : Buckets String Nat := {}
  byClass : Buckets String Nat := {}
  universal : List Nat := []
deriving DecidableEq, Repr

namespace TargetIndex

/-- The index with a position filed under a key. -/
def file (index : TargetIndex) (key : FilingKey) (position : Nat) : TargetIndex :=
  match key with
  | .id name => { index with byId := Buckets.add index.byId name position }
  | .element name => { index with byElement := Buckets.add index.byElement name position }
  | .hasClass name => { index with byClass := Buckets.add index.byClass name position }
  | .universal => { index with universal := index.universal ++ [position] }

/-- The index with the selector at a position.  A selector without a target is
not filed. -/
def add (index : TargetIndex) (selector : Selector) (position : Nat) : TargetIndex :=
  match selector.target? with
  | some target => index.file target.filingKey position
  | none => index

/-- The index of a list of selectors. -/
def ofSelectors (selectors : List Selector) : TargetIndex :=
  selectors.zipIdx.foldl (fun index entry => index.add entry.1 entry.2) {}

/-- The positions filed under an id; no selector is looked up by an empty id. -/
def positionsOfId (index : TargetIndex) (elementId : Option String) : List Nat :=
  match elementId with
  | some name => if name.isEmpty then [] else Buckets.valuesAt index.byId name
  | none => []

/-- The positions of the selectors that can select a node of this identity, each
once. -/
def positionsFor (index : TargetIndex) (identity : Identity) : List Nat :=
  (index.universal ++ index.positionsOfId identity.elementId ++
    Buckets.valuesAt index.byElement identity.widgetType ++
    identity.classes.flatMap (Buckets.valuesAt index.byClass)).eraseDups

/-- The number of filed positions. -/
def size (index : TargetIndex) : Nat :=
  let count (buckets : Buckets String Nat) : Nat :=
    (buckets.entries.flatMap fun entry => entry.2).length
  index.universal.length + count index.byId + count index.byElement + count index.byClass

end TargetIndex

end WidgetStyle
