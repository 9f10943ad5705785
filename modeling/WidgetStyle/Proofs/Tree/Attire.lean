import WidgetStyle.Proofs.Tree.Restyling

/-!
# The styles that nodes carry

A node carries a computed style and an inline style.  Most operations on a tree leave these
alone, whatever else they do to the nodes: they keep the list of ids with styles as it is.
A new node carries no style, and a removed node takes its styles with it.
-/

namespace WidgetStyle

namespace Node

/-- A node that carries no style. -/
def bare (id : NodeId) : Node :=
  { id, identity := {} }

/-- What a node carries, without all else that there is about it. -/
def attire (node : Node) : Node :=
  { bare node.id with computed := node.computed, inlineStyle := node.inlineStyle }

end Node

namespace Tree

variable {before middle after tree : Tree} {id parent : NodeId} {identity : Identity}

/-- What the nodes carry, in the order of creation. -/
def attire (tree : Tree) : List Node :=
  tree.nodes.map Node.attire

theorem attire_mem_attire {node : Node} (found : tree.get? id = some node) :
    node.attire ∈ tree.attire :=
  List.mem_map_of_mem (List.mem_of_find?_eq_some found)

theorem exists_mem_attire_iff : (∃ worn ∈ tree.attire, worn.id = id) ↔ tree.contains id = true := by
  rw [contains_iff_mem, attire]
  simp [Node.attire, Node.bare]

/-- A change of one node shows in what that node carries. -/
theorem attire_modify (tree : Tree) (id : NodeId) (change wear : Node → Node)
    (wears : ∀ node, (change node).attire = wear node.attire) :
    (tree.modify id change).attire =
      tree.attire.map fun worn => if worn.id = id then wear worn else worn := by
  have each (node : Node) : (if node.id = id then change node else node).attire =
      if node.attire.id = id then wear node.attire else node.attire := by
    rw [← wears node, apply_ite Node.attire]
    rfl
  simp only [attire, modify, List.map_map, Function.comp_def, each]

/-! ## Operations that leave styles alone -/

/-- The nodes carry what they carried before, and no id was handed out. -/
structure SameAttire (before after : Tree) : Prop where
  attire : after.attire = before.attire
  nextId : after.nextId = before.nextId

namespace SameAttire

theorem refl (tree : Tree) : SameAttire tree tree :=
  ⟨rfl, rfl⟩

theorem trans (first : SameAttire before middle) (second : SameAttire middle after) :
    SameAttire before after :=
  ⟨second.attire.trans first.attire, second.nextId.trans first.nextId⟩

theorem foldl {Item : Type} {step : Tree → Item → Tree}
    (each : ∀ tree item, SameAttire tree (step tree item)) (tree : Tree) (items : List Item) :
    SameAttire tree (items.foldl step tree) := by
  induction items generalizing tree with
  | nil => exact refl tree
  | cons item later ih => exact (each tree item).trans (ih _)

theorem of_sameBut (same : SameBut Node.attire before after) : SameAttire before after :=
  ⟨same.nodes, same.nextId⟩

end SameAttire

theorem sameAttire_modify (tree : Tree) (id : NodeId) (change : Node → Node)
    (keeps : ∀ node, (change node).attire = node.attire) :
    SameAttire tree (tree.modify id change) :=
  .of_sameBut (sameBut_modify tree id change keeps)

theorem sameAttire_dirtySubtree (tree : Tree) (id : NodeId) :
    SameAttire tree (tree.dirtySubtree id) :=
  .of_sameBut (sameBut_dirtySubtree (fun _ => rfl) tree id)

theorem sameAttire_dirtyDependents (tree : Tree) (id : NodeId) :
    SameAttire tree (tree.dirtyDependents id) :=
  (sameAttire_dirtySubtree tree id).trans (.foldl sameAttire_dirtySubtree _ _)

/-- A change of one node with all that it makes dirty. -/
theorem sameAttire_changed (tree : Tree) (id : NodeId) (change : Node → Node)
    (keeps : ∀ node, (change node).attire = node.attire) :
    SameAttire tree ((tree.modify id change).dirtyDependents id) :=
  (sameAttire_modify tree id change keeps).trans (sameAttire_dirtyDependents _ id)

theorem sameAttire_cleanAll (tree : Tree) : SameAttire tree tree.cleanAll :=
  .of_sameBut (sameBut_mapNodes tree
    (fun node => { node with flags := { node.flags with dirty := false } }) fun _ => rfl)

theorem sameAttire_placeChildren (tree : Tree) (parent : NodeId) :
    SameAttire tree (tree.placeChildren parent) :=
  .of_sameBut (sameBut_placeChildren (fun _ => rfl) (fun _ _ => rfl) tree parent)

theorem sameAttire_setIdentity (tree : Tree) (node : Node) (identity : Identity) :
    SameAttire tree (tree.setIdentity node identity) := by
  have changed := sameAttire_modify tree node.id (fun node => { node with identity }) fun _ => rfl
  have entered : SameAttire tree
      { tree.modify node.id fun node => { node with identity } with
        registry := (tree.registry.withdraw node.id node.identity).enter node.id identity } :=
    ⟨changed.attire, changed.nextId⟩
  exact entered.trans (sameAttire_dirtyDependents _ node.id)

theorem sameAttire_turnFlag (tree : Tree) (flag : Flag) (value : Bool) (id : NodeId) :
    SameAttire tree (tree.turnFlag flag value id) := by
  rw [turnFlag]
  split
  · split
    · exact .refl tree
    · exact sameAttire_changed tree id _ fun _ => rfl
  · exact .refl tree

theorem sameAttire_giveFlag (tree : Tree) (flag : Flag) (owner : Option NodeId) :
    SameAttire tree (tree.giveFlag flag owner) := by
  have cleared := SameAttire.foldl (sameAttire_turnFlag · flag false) tree
  cases owner with
  | none => exact cleared _
  | some id => exact (cleared _).trans (sameAttire_turnFlag _ flag true id)

theorem sameAttire_permuteChildren {order : List NodeId}
    (permuted : tree.permuteChildren parent order = .ok after) : SameAttire tree after := by
  rw [permuteChildren] at permuted
  split at permuted
  · cases permuted
  · split at permuted
    · cases permuted
      have reordered := sameAttire_modify tree parent
        (fun node => { node with children := order }) fun _ => rfl
      exact reordered.trans (sameAttire_placeChildren _ parent)
    · cases permuted

theorem sameAttire_detach (tree : Tree) (node : Node) : SameAttire tree (tree.detach node) := by
  rw [detach]
  split
  · rename_i above _
    have struck := sameAttire_modify tree above.id
      (fun parent => { parent with children := parent.children.erase node.id }) fun _ => rfl
    exact struck.trans (sameAttire_placeChildren _ above.id)
  · exact .refl tree

/-! ## Nodes that come and go -/

/-- A node that carries no style was added under the next id. -/
structure Grows (before after : Tree) : Prop where
  attire : after.attire = before.attire ++ [.bare before.nextId]
  nextId : after.nextId = before.nextId.next

theorem Grows.trans (grows : Grows before middle) (same : SameAttire middle after) :
    Grows before after :=
  ⟨same.attire.trans grows.attire, same.nextId.trans grows.nextId⟩

theorem grows_insertNode (tree : Tree) (identity : Identity) (parent : Option NodeId) :
    Grows tree (tree.insertNode identity parent).2 :=
  ⟨List.map_append, rfl⟩

theorem grows_appendChild (added : tree.appendChild parent identity = .ok (id, after)) :
    Grows tree after := by
  rw [appendChild] at added
  split at added
  · cases added
  · cases added
    have linked := sameAttire_modify (tree.insertNode identity (some parent)).2 parent
      (fun node => { node with children := node.children ++ [tree.nextId] }) fun _ => rfl
    exact (grows_insertNode tree identity (some parent)).trans
      (linked.trans (sameAttire_placeChildren _ parent))

/-- What the nodes carry that are not among the given ones. -/
def attireWithout (tree : Tree) (ids : List NodeId) : List Node :=
  tree.attire.filter fun worn => !ids.contains worn.id

@[simp] theorem attire_dropNodes (tree : Tree) (ids : List NodeId) :
    (tree.dropNodes ids).attire = tree.attireWithout ids := by
  rw [attireWithout, attire, attire, dropNodes, List.filter_map]
  rfl

theorem attire_removeSubtree (tree : Tree) (id : NodeId) :
    (tree.removeSubtree id).2.attire = tree.attireWithout (tree.removeSubtree id).1 := by
  rw [removeSubtree]
  split
  · simp [attireWithout]
  · rename_i node _
    have detached := sameAttire_detach tree node
    have dropped := attire_dropNodes (tree.detach node) ((tree.detach node).subtree id)
    rw [attireWithout, detached.attire] at dropped
    simp only
    split
    · exact dropped
    · exact dropped

@[simp] theorem nextId_removeSubtree (tree : Tree) (id : NodeId) :
    (tree.removeSubtree id).2.nextId = tree.nextId := by
  rw [removeSubtree]
  split
  · rfl
  · rename_i node _
    simp only
    split
    · exact (sameAttire_detach tree node).nextId
    · exact (sameAttire_detach tree node).nextId

/-- A tree from which the root was taken, if there was one, gets a new node. -/
theorem exists_grows_plantRoot (tree : Tree) (identity : Identity) :
    ∃ cleared, (cleared = tree ∨ ∃ root, tree.root = some root ∧
      cleared = (tree.removeSubtree root).2) ∧ Grows cleared (tree.plantRoot identity).2 := by
  rw [plantRoot]
  cases rooted : tree.root with
  | none => exact ⟨tree, .inl rfl, (grows_insertNode tree identity none).trans ⟨rfl, rfl⟩⟩
  | some root =>
      exact ⟨_, .inr ⟨root, rfl, rfl⟩, (grows_insertNode _ identity none).trans ⟨rfl, rfl⟩⟩

end Tree

end WidgetStyle
