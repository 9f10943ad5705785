import WidgetStyle.Proofs.History.Registration
import WidgetStyle.Proofs.Matching.Hiding
import WidgetStyle.Proofs.Matching.Single

/-!
# Queries of a reachable tree

A node can be found in two ways: the registry lists nodes under their types and classes, and a
selector is matched against each node on a walk through the tree.  Both ways find the same
nodes at the end of any history.  The registry lists them in the order of their entry, which
later changes of a node renew, and a query lists them in document order.
-/

namespace WidgetStyle

namespace Tree

variable {tree : Tree} {ids : List NodeId} {node : Node} {name : String}

/-! ## Listed nodes -/

theorem mem_filterMap_get?_iff :
    node ∈ ids.filterMap tree.get? ↔ node.id ∈ ids ∧ tree.get? node.id = some node := by
  rw [List.mem_filterMap]
  constructor
  · intro listed
    rcases listed with ⟨id, member, found⟩
    rw [id_of_get? found]
    exact ⟨member, found⟩
  · intro listed
    exact ⟨node.id, listed⟩

theorem nodup_filterMap_get? (distinct : ids.Nodup) : (ids.filterMap tree.get?).Nodup := by
  apply distinct.filterMap
  intro left right node first second
  rw [← id_of_get? first, ← id_of_get? second]

namespace Registered

theorem mem_nodesOfType_iff (registered : tree.Registered) :
    node ∈ tree.nodesOfType name ↔
      tree.get? node.id = some node ∧ node.identity.widgetType = name := by
  rw [nodesOfType, mem_filterMap_get?_iff, registered.keeps.types.listed, and_comm]
  apply and_congr_right
  intro found
  simp [found]

theorem mem_nodesOfClass_iff (registered : tree.Registered) :
    node ∈ tree.nodesOfClass name ↔
      tree.get? node.id = some node ∧ name ∈ node.identity.classes := by
  rw [nodesOfClass, mem_filterMap_get?_iff, registered.keeps.classes.listed, and_comm]
  apply and_congr_right
  intro found
  simp [found]

theorem nodup_nodesOfType (registered : tree.Registered) (name : String) :
    (tree.nodesOfType name).Nodup :=
  nodup_filterMap_get? (registered.keeps.types.distinct name)

theorem nodup_nodesOfClass (registered : tree.Registered) (name : String) :
    (tree.nodesOfClass name).Nodup :=
  nodup_filterMap_get? (registered.keeps.classes.distinct name)

end Registered

/-! ## Searching -/

/-- Both lists hold the same nodes, each of them once. -/
structure SameNodes (left right : List Node) : Prop where
  leftOnce : left.Nodup
  rightOnce : right.Nodup
  members : ∀ node, node ∈ left ↔ node ∈ right

/-- What the registry lists under a type or a class is what the selector of that name selects.
A selector selects from all nodes of the tree, in document order. -/
structure Searchable (tree : Tree) : Prop where
  types : ∀ name, IsName name.toList → name.toList.head?.any Selector.isNameStart = true →
    ∃ selector, Selector.parse name = .ok selector ∧
      SameNodes (tree.nodesOfType name) (tree.select selector)
  classes : ∀ name, IsName name.toList →
    ∃ selector, Selector.parse ("." ++ name) = .ok selector ∧
      SameNodes (tree.nodesOfClass name) (tree.select selector)
  members : ∀ selector node, node ∈ tree.select selector ↔
    tree.get? node.id = some node ∧ selector.selects tree.surroundings node = true
  ordered : ∀ selector, (tree.select selector).Pairwise fun first second =>
    tree.Precedes first.id second.id ∧ ¬tree.Precedes second.id first.id
  first : ∀ selector, tree.selectFirst? selector = (tree.select selector).head?

theorem Registered.searchable (registered : tree.Registered) (linked : tree.Linked) :
    tree.Searchable := by
  constructor
  case types =>
    intro name isName starts
    refine ⟨.ofElement name, Selector.parse_ofElement isName starts, ?_⟩
    constructor
    case leftOnce => exact registered.nodup_nodesOfType name
    case rightOnce => exact linked.nodup_select _
    case members =>
      intro node
      rw [registered.mem_nodesOfType_iff, linked.mem_select_iff, Selector.selects_ofElement_iff]
  case classes =>
    intro name isName
    refine ⟨.ofClass name, Selector.parse_ofClass isName, ?_⟩
    constructor
    case leftOnce => exact registered.nodup_nodesOfClass name
    case rightOnce => exact linked.nodup_select _
    case members =>
      intro node
      rw [registered.mem_nodesOfClass_iff, linked.mem_select_iff, Selector.selects_ofClass_iff]
  case members =>
    intro selector node
    exact linked.mem_select_iff
  case ordered =>
    intro selector
    apply (linked.pairwise_select selector).imp
    intro first second order
    exact ⟨order, linked.not_precedes_symm order⟩
  case first => exact tree.selectFirst?_eq

end Tree

namespace TreeChange

open WidgetStyle.Tree

/-- At the end of any history in which every node has a state of its own, queries by selector and
lookups in the registry agree. -/
theorem searchable_replay (first : NodeId) (changes : List TreeChange)
    (once : ∀ change ∈ changes, change.ListsClassesOnce) :
    (replay { nextId := first } changes).Searchable := by
  have formed := wellFormed_empty first
  have registered := registered_replay_of formed (registered_empty first) once
  exact registered.searchable (wellFormed_replay formed changes).toLinked

/-- Two rows, the first of which is entered anew when it gets another class. -/
def refiled : List TreeChange :=
  [ .plantRoot { widgetType := "App" },
    .appendChild ⟨1⟩ { widgetType := "Row", classes := ["wide"] },
    .appendChild ⟨1⟩ { widgetType := "Row", classes := ["wide"] },
    .insertClass ⟨2⟩ "dim" ]

/-- The registry lists the rows in another order than a query. -/
theorem refiled_searchable :
    (∀ change ∈ refiled, change.ListsClassesOnce) ∧
      (replay { nextId := ⟨1⟩ } refiled).Searchable ∧
      ((replay { nextId := ⟨1⟩ } refiled).nodesOfClass "wide").map (·.id) = [⟨3⟩, ⟨2⟩] ∧
      ((replay { nextId := ⟨1⟩ } refiled).select (.ofClass "wide")).map (·.id) = [⟨2⟩, ⟨3⟩] := by
  have once : ∀ change ∈ refiled, change.ListsClassesOnce := by
    simp [refiled, ListsClassesOnce]
  have searchable := searchable_replay ⟨1⟩ refiled once
  refine ⟨once, searchable, ?_, ?_⟩
  · decide +kernel
  · decide +kernel

end TreeChange

/-- A walk that steps in one place, where the test fails, runs out of steps under any bound. -/
theorem Search.anyAlong_eq_outOfSteps {step : Node → Except Fault (Option Node)}
    {test : Node → Except Fault Bool} {node : Node} (stays : step node = .ok (some node))
    (fails : test node = .ok false) (bound : Nat) :
    anyAlong step test bound node = .error .outOfSteps := by
  induction bound with
  | zero => rfl
  | succ bound ih =>
      rw [anyAlong, stays]
      change (test node >>= _) = _
      rw [fails]
      exact ih

/-- A row somewhere behind a label. -/
def rowBehindLabel : Selector :=
  (Selector.ofElement "Label").joined .generalSibling { element := some "Row" }

/-- The first of two rows that hold one state seems to stand right behind itself, so that looking
for a label before it does not come to an end. -/
theorem SharedTree.twinRows_endless :
    ∃ first, first ∈ twinRows.tree.snapshot.preorderNodes ∧
      ∀ bound, rowBehindLabel.search twinRows.tree.get? bound first = .error .outOfSteps := by
  let first : Node :=
    { id := ⟨2⟩, identity := { widgetType := "Row" }, flags := { dirty := true },
      placement := .ofIndex 1 2, parent := some ⟨1⟩ }
  have stays : Search.siblingBefore twinRows.tree.get? first = .ok (some first) := by
    decide +kernel
  refine ⟨first, by decide +kernel, fun bound => ?_⟩
  exact Search.anyAlong_eq_outOfSteps stays rfl bound

end WidgetStyle
