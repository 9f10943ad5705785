import WidgetStyle.Table
import WidgetStyle.Tree.Node

/-!
# Registries

A tree keeps three registries of its nodes, by element id, by widget type and by
class.  An empty element id is not registered.  When two nodes share an element
id the one registered last is found, and taking that one out leaves the id
without an entry.
-/

namespace WidgetStyle

/-- The nodes of a tree under the keys by which they are looked up. -/
structure Registry where
  byElementId : Table String NodeId := {}
  byType : Buckets String NodeId := {}
  byClass : Buckets String NodeId := {}
deriving DecidableEq, Repr

namespace Registry

/-- The element id under which a node is registered, if it has one. -/
def elementKey? (identity : Identity) : Option String :=
  identity.elementId.filter fun name => !name.isEmpty

/-- The registry with a node entered under all its keys. -/
def enter (registry : Registry) (id : NodeId) (identity : Identity) : Registry where
  byElementId :=
    match elementKey? identity with
    | some name => registry.byElementId.put name id
    | none => registry.byElementId
  byType := Buckets.add registry.byType identity.widgetType id
  byClass := identity.classes.foldl (fun result name => Buckets.add result name id)
    registry.byClass

/-- The registry with a node taken out from under all its keys. -/
def withdraw (registry : Registry) (id : NodeId) (identity : Identity) : Registry where
  byElementId :=
    match elementKey? identity with
    | some name =>
        if registry.byElementId.get? name = some id then registry.byElementId.erase name
        else registry.byElementId
    | none => registry.byElementId
  byType := Buckets.remove registry.byType identity.widgetType id
  byClass := identity.classes.foldl (fun result name => Buckets.remove result name id)
    registry.byClass

end Registry

end WidgetStyle
