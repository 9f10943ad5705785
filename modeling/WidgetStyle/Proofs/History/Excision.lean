import WidgetStyle.Proofs.History.Registration
import WidgetStyle.Proofs.History.Shape
import WidgetStyle.Proofs.Tree.DocumentOrder

/-!
# What a removal leaves

A removal takes out a node with everything below it and hands back these ids in document
order.  No id that was taken out is mentioned afterwards.  Every node that is left is what it
was, but for three things: the former parent lists one child less, the former siblings have
new places, and these and all below them are dirty.
-/

namespace WidgetStyle

/-- The node without its place and without the mark as dirty, which are all that a change
among its siblings may touch. -/
def Node.steady (node : Node) : Node :=
  { node with placement := {}, flags := node.flags.write .dirty false }

/-- The node with one of its children struck. -/
def Node.without (node : Node) (child : NodeId) : Node :=
  { node with children := node.children.erase child }

namespace Tree

variable {birth : NodeId → Int} {before after tree : Tree} {id other parent : NodeId}
  {node old new : Node}

/-! ## Siblings -/

/-- Two nodes are different children of one parent. -/
def Siblings (tree : Tree) (id sibling : NodeId) : Prop :=
  sibling ≠ id ∧ ∃ parent, tree.parentId? id = some parent ∧ tree.parentId? sibling = some parent

theorem not_siblings_of_parentless (parentless : tree.parentId? id = none) :
    ¬tree.Siblings id other := by
  intro siblings
  rcases siblings with ⟨-, parent, link, -⟩
  rw [parentless] at link
  cases link

theorem LinkedBy.mem_childrenOf_struck_iff (linked : tree.LinkedBy birth)
    (link : tree.parentId? id = some parent) :
    other ∈ (tree.struck parent id).childrenOf parent ↔ tree.Siblings id other := by
  rw [linked.childrenOf_struck link, (linked.childrenDistinct parent).mem_erase_iff,
    linked.childOf]
  simp [Siblings, link]

/-! ## Nodes that are left -/

/-- What the removal of a node makes of another node that is left: a parent lists one child
less, a sibling may be placed anew, and what is below a sibling gets dirty. -/
structure Spared (tree : Tree) (id : NodeId) (old new : Node) : Prop where
  steady : new.steady =
    (if tree.parentId? id = some old.id then old.without id else old).steady
  placement : new.placement ≠ old.placement → tree.Siblings id old.id
  dirty : new.flags.dirty = true ↔ old.flags.dirty = true ∨
    ∃ sibling, tree.Siblings id sibling ∧ tree.Below sibling old.id

theorem isClean_struck_iff (tree : Tree) (parent id other : NodeId) :
    (tree.struck parent id).IsClean other ↔ tree.IsClean other := by
  rw [IsClean, get?_struck, IsClean]
  by_cases same : other = parent
  · simp [same]
  · simp [same]

/-- Nodes stay clean unless they are below a sibling of the node that is struck. -/
theorem FormedBy.isClean_placed_struck_iff (formed : tree.FormedBy birth)
    (link : tree.parentId? id = some parent) (kept : ¬tree.Below id other) :
    ((tree.struck parent id).placeChildren parent).IsClean other ↔
      tree.IsClean other ∧ ¬∃ sibling, tree.Siblings id sibling ∧ tree.Below sibling other := by
  have linked := formed.toLinkedBy
  constructor
  · intro clean
    refine ⟨(isClean_struck_iff tree parent id other).mp (isClean_of_placeChildren clean), ?_⟩
    intro reached
    rcases reached with ⟨sibling, ⟨-, above, idLink, siblingLink⟩, below⟩
    rw [link] at idLink
    cases idLink
    exact formed.not_isClean_struck link (below.strictly_of_child siblingLink) kept clean
  · intro parts
    apply isClean_placeChildren ((isClean_struck_iff tree parent id other).mpr parts.1)
    intro child listed
    have sibling := (linked.mem_childrenOf_struck_iff link).mp listed
    have childLink : tree.parentId? child = some parent := by
      rcases sibling with ⟨-, above, idLink, childLink⟩
      rwa [← idLink, link] at childLink
    rw [linked.subtree_struck link childLink, linked.mem_subtree_iff]
    exact fun below => parts.2 ⟨child, sibling, below⟩

theorem dirty_iff_of_isClean_iff {reached : Prop} (lookup : before.get? id = some old)
    (found : after.get? id = some new) (clean : after.IsClean id ↔ before.IsClean id ∧ ¬reached) :
    new.flags.dirty = true ↔ old.flags.dirty = true ∨ reached := by
  simp only [IsClean, lookup, found, Option.some.injEq, exists_eq_left'] at clean
  rw [← not_iff_not, Bool.not_eq_true, clean, not_or, Bool.not_eq_true]

theorem spared_of_parentless (parentless : tree.parentId? id = none) (old : Node) :
    Spared tree id old old where
  steady := by simp [parentless]
  placement changed := absurd rfl changed
  dirty := by simp [not_siblings_of_parentless parentless]

theorem get?_struck_of_get? (link : tree.parentId? id = some parent)
    (lookup : tree.get? old.id = some old) :
    (tree.struck parent id).get? old.id =
      some (if tree.parentId? id = some old.id then old.without id else old) := by
  rw [get?_struck, link]
  by_cases same : old.id = parent
  · simp [← same, lookup, Node.without]
  · rw [if_neg same, lookup, if_neg fun equal => same (Option.some.inj equal).symm]

/-- Striking a child spares all nodes that are not below it. -/
theorem FormedBy.exists_spared_struck (formed : tree.FormedBy birth)
    (link : tree.parentId? id = some parent) (lookup : tree.get? old.id = some old)
    (kept : ¬tree.Below id old.id) :
    ∃ new, ((tree.struck parent id).placeChildren parent).get? old.id = some new ∧
      Spared tree id old new := by
  have struckFound := get?_struck_of_get? link lookup
  have placed : SameBut Node.steady (tree.struck parent id)
      ((tree.struck parent id).placeChildren parent) :=
    sameBut_placeChildren (fun _ => rfl) (fun _ _ => rfl) _ parent
  rcases placed.exists_get? (fun _ => rfl) struckFound with ⟨new, newFound, same⟩
  refine ⟨new, newFound, ?_⟩
  constructor
  case steady => exact same
  case placement =>
    intro changed
    by_contra apart
    rw [← formed.mem_childrenOf_struck_iff link] at apart
    have outlines := outline_placeChildren_of_not_mem apart
    rw [newFound, struckFound, Option.map_some, Option.map_some] at outlines
    have unmoved := congrArg (·.placement) (Option.some.inj outlines)
    apply changed
    split at unmoved <;> exact unmoved
  case dirty =>
    exact dirty_iff_of_isClean_iff lookup newFound (formed.isClean_placed_struck_iff link kept)

/-- Detaching a node spares all nodes that are not below it. -/
theorem FormedBy.exists_spared (formed : tree.FormedBy birth) (found : tree.get? id = some node)
    (lookup : tree.get? other = some old) (kept : ¬tree.Below id other) :
    ∃ new, (tree.detach node).get? other = some new ∧ Spared tree id old new := by
  have named := id_of_get? lookup
  subst named
  cases link : node.parent with
  | none =>
      have parentless : tree.parentId? id = none := (parentId?_of_get? found).trans link
      rw [detach_root link]
      exact ⟨old, lookup, spared_of_parentless parentless old⟩
  | some parent =>
      have above : tree.parentId? id = some parent := (parentId?_of_get? found).trans link
      rw [detach_child formed.toLinkedBy found link]
      exact formed.exists_spared_struck above lookup kept

/-! ## Ids that are gone -/

/-- Neither a node nor the root nor the registry refers to the id. -/
structure Forgets (tree : Tree) (id : NodeId) : Prop where
  nodes : ∀ node ∈ tree.nodes, node.id ≠ id ∧ id ∉ node.children ∧ node.parent ≠ some id
  root : tree.root ≠ some id
  types : ∀ name, id ∉ Buckets.valuesAt tree.registry.byType name
  classes : ∀ name, id ∉ Buckets.valuesAt tree.registry.byClass name
  elements : ∀ name, tree.registry.byElementId.get? name ≠ some id

theorem contains_of_identityOf? {identity : Identity}
    (entered : tree.identityOf? id = some identity) : tree.contains id = true := by
  rcases identityOf?_eq_some_iff.mp entered with ⟨node, found, -⟩
  exact contains_of_get? found

/-- A tree refers to no id that is not the id of one of its nodes. -/
theorem LinkedBy.forgets (linked : tree.LinkedBy birth) (registered : tree.Registered)
    (unknown : tree.contains id ≠ true) : tree.Forgets id where
  nodes := by
    intro node member
    have found := get?_of_mem linked.distinct member
    refine ⟨?_, ?_, ?_⟩
    · intro same
      exact unknown (same ▸ contains_of_get? found)
    · intro listed
      rw [← childrenOf_of_get? found] at listed
      exact unknown (linked.contains_child listed)
    · intro link
      exact unknown (linked.contains_parent ((parentId?_of_get? found).trans link))
  root := fun rooted => unknown (linked.rootFound rooted).1
  types := by
    intro name listed
    rcases (registered.keeps.types.listed name id).mp listed with ⟨identity, entered, -⟩
    exact unknown (contains_of_identityOf? entered)
  classes := by
    intro name listed
    rcases (registered.keeps.classes.listed name id).mp listed with ⟨identity, entered, -⟩
    exact unknown (contains_of_identityOf? entered)
  elements := by
    intro name lookup
    rcases registered.keeps.elements name id lookup with ⟨identity, entered, -⟩
    exact unknown (contains_of_identityOf? entered)

/-! ## Removals -/

/-- What a removal does: the node and its descendants are handed back in document order and
forgotten, and all other nodes are spared. -/
structure Excised (before : Tree) (id : NodeId) (removed : List NodeId) (after : Tree) :
    Prop where
  first : removed = id :: before.descendants id
  members : ∀ other, other ∈ removed ↔ before.Below id other
  distinct : removed.Nodup
  ordered : removed.Pairwise before.Precedes
  left : ∀ other, after.contains other = true ↔ before.contains other = true ∧ other ∉ removed
  forgotten : ∀ gone ∈ removed, after.Forgets gone
  registered : after.Registered
  root : before.root ≠ some id → after.root = before.root
  spared : ∀ other old, before.get? other = some old → other ∉ removed →
    ∃ new, after.get? other = some new ∧ Spared before id old new

/-- Removing a live node takes out exactly its subtree, where every node has a state of its own.
Every history that lists classes once leads to a tree of this kind. -/
theorem Proper.excised (proper : tree.Proper) (registered : tree.Registered)
    (known : tree.contains id = true) :
    Excised tree id (tree.removeSubtree id).1 (tree.removeSubtree id).2 := by
  have formed := proper.formedBy_depth
  have linked := formed.toLinkedBy
  rcases contains_iff.mp known with ⟨node, found⟩
  have removed := formed.removed known
  have handedBack : (tree.removeSubtree id).1 = tree.subtree id := by
    rw [formed.removeSubtree_of_get? found]
  have left : ∀ other, (tree.removeSubtree id).2.contains other = true ↔
      tree.contains other = true ∧ other ∉ tree.subtree id := by
    intro other
    rw [removed.contains_iff linked, linked.mem_subtree_iff]
  have keeps : (tree.removeSubtree id).2.Registered := by
    rcases withdrawn_removeSubtree tree id with ⟨gone, withdrawn⟩
    exact registered.withdrawn withdrawn
  rw [handedBack]
  constructor
  case first => rfl
  case members => exact fun other => linked.mem_subtree_iff
  case distinct => exact linked.nodup_subtree id
  case ordered => exact linked.pairwise_walk (linked.walk_subtree id) (List.pairwise_singleton _ _)
  case left => exact left
  case forgotten =>
    intro gone member
    apply (removed.linkedBy linked).forgets keeps
    intro again
    exact ((left gone).mp again).2 member
  case registered => exact keeps
  case root =>
    intro different
    rw [removed.root, if_neg different]
  case spared =>
    intro other old lookup outside
    rw [formed.get?_removeSubtree found, if_neg outside]
    exact formed.exists_spared found lookup fun below => outside (linked.mem_subtree_iff.mpr below)

end Tree

namespace TreeChange

open WidgetStyle.Tree

/-- Two rows, the first with a label that has an icon, and all nodes are clean. -/
def labeledRows : List TreeChange :=
  [ .plantRoot { widgetType := "App" },
    .appendChild ⟨1⟩ { widgetType := "Row", elementId := some "top", classes := ["wide"] },
    .appendChild ⟨1⟩ { widgetType := "Row", classes := ["wide", "dim"] },
    .appendChild ⟨2⟩ { widgetType := "Label" },
    .appendChild ⟨4⟩ { widgetType := "Icon" },
    .appendChild ⟨3⟩ { widgetType := "Label" },
    .cleanAll ]

theorem labeledRows_excised :
    (replay { nextId := ⟨1⟩ } labeledRows).Proper ∧
      (replay { nextId := ⟨1⟩ } labeledRows).Registered ∧
      (replay { nextId := ⟨1⟩ } labeledRows).contains ⟨2⟩ = true ∧
      ∃ after, (replay { nextId := ⟨1⟩ } labeledRows).removeSubtree ⟨2⟩ =
          ([⟨2⟩, ⟨4⟩, ⟨5⟩], after) ∧
        Excised (replay { nextId := ⟨1⟩ } labeledRows) ⟨2⟩ [⟨2⟩, ⟨4⟩, ⟨5⟩] after ∧
        after.childrenOf ⟨1⟩ = [⟨3⟩] ∧ after.dirtyIds = [⟨3⟩, ⟨6⟩] := by
  have once : ∀ change ∈ labeledRows, change.ListsClassesOnce := by
    simp [labeledRows, ListsClassesOnce]
  have formed := wellFormed_empty ⟨1⟩
  have proper := (wellFormed_replay formed labeledRows).proper
  have registered := registered_replay_of formed (registered_empty ⟨1⟩) once
  have live : (replay { nextId := ⟨1⟩ } labeledRows).contains ⟨2⟩ = true := by
    decide +kernel
  have removed : ((replay { nextId := ⟨1⟩ } labeledRows).removeSubtree ⟨2⟩).1 =
      [⟨2⟩, ⟨4⟩, ⟨5⟩] := by
    decide +kernel
  have excised := proper.excised registered live
  rw [removed] at excised
  exact ⟨proper, registered, live, _, Prod.ext removed rfl, excised, by decide +kernel,
    by decide +kernel⟩

end TreeChange

/-- Two rows of two cells each, whose last cells hold one state, and all nodes are clean. -/
def SharedTree.pairedCells : SharedTree :=
  replay { tree := { nextId := ⟨1⟩ } }
    [ .change (.plantRoot { widgetType := "App" }),
      .change (.appendChild ⟨1⟩ { widgetType := "Row" }),
      .change (.appendChild ⟨1⟩ { widgetType := "Row" }),
      .change (.appendChild ⟨2⟩ { widgetType := "Cell" }),
      .change (.appendChild ⟨2⟩ { widgetType := "Cell" }),
      .change (.appendChild ⟨3⟩ { widgetType := "Cell" }),
      .change (.appendChild ⟨3⟩ { widgetType := "Cell" }),
      .shareState ⟨7⟩ ⟨5⟩,
      .change .cleanAll ]

/-- When a cell is removed from the first row, a cell of the second row gets another place and
gets dirty. -/
theorem SharedTree.pairedCells_not_excised :
    pairedCells.tree.contains ⟨4⟩ = true ∧ (pairedCells.tree.removeSubtree ⟨4⟩).1 = [⟨4⟩] ∧
      (pairedCells.tree.removeSubtree ⟨4⟩).2.childrenOf ⟨3⟩ = [⟨6⟩, ⟨7⟩] ∧
      (pairedCells.tree.removeSubtree ⟨4⟩).2.dirtyIds = [⟨5⟩, ⟨7⟩] ∧
      ¬Tree.Excised pairedCells.tree.snapshot ⟨4⟩ [⟨4⟩]
        (pairedCells.tree.removeSubtree ⟨4⟩).2.snapshot := by
  refine ⟨by decide +kernel, by decide +kernel, by decide +kernel, by decide +kernel, ?_⟩
  intro excised
  have second : (pairedCells.tree.snapshot.get? ⟨7⟩).map (·.placement.index) = some 1 := by
    decide +kernel
  have first : ((pairedCells.tree.removeSubtree ⟨4⟩).2.snapshot.get? ⟨7⟩).map
      (·.placement.index) = some 0 := by
    decide +kernel
  have above : pairedCells.tree.snapshot.parentId? ⟨4⟩ = some ⟨2⟩ := by decide +kernel
  have elsewhere : pairedCells.tree.snapshot.parentId? ⟨7⟩ = some ⟨3⟩ := by decide +kernel
  rcases Option.map_eq_some_iff.mp second with ⟨old, lookup, oldIndex⟩
  rcases excised.spared ⟨7⟩ old lookup (by decide) with ⟨new, found, spared⟩
  rw [found, Option.map_some, Option.some.injEq] at first
  have moved : new.placement ≠ old.placement := by
    intro same
    rw [same, oldIndex] at first
    cases first
  rcases spared.placement moved with ⟨-, parent, left, right⟩
  rw [above] at left
  rw [Tree.id_of_get? lookup, elsewhere] at right
  cases left
  cases right

end WidgetStyle
