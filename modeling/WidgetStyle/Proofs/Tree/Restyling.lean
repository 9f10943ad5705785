import WidgetStyle.Proofs.Tree.Marking

/-!
# Restyling

Most changes of a tree leave alone what its nodes are and how they hang together.
They touch only the state and the style of nodes, and the places that are derived from
lists of children.  What such changes keep is said once: the links of the tree, the
identities of its nodes, and its registry.  When more is to be kept, it is told what a
change may touch, by a function that hides this part of a node.
-/

namespace WidgetStyle

/-- What a node is and how it is linked, without its state, its place and its style. -/
def Node.frame (node : Node) : Node :=
  { id := node.id, identity := node.identity, parent := node.parent, children := node.children }

theorem Node.frame_eq_iff {left right : Node} :
    left.frame = right.frame ↔ left.id = right.id ∧ left.identity = right.identity ∧
      left.parent = right.parent ∧ left.children = right.children := by
  simp [frame]

namespace Tree

variable {before middle after tree : Tree} {id : NodeId} {identity : Identity}

/-! ## Identities and the registry -/

/-- The identity of the node with the given id. -/
def identityOf? (tree : Tree) (id : NodeId) : Option Identity :=
  (tree.get? id).map (·.identity)

@[simp] theorem identityOf?_of_get? {node : Node} (found : tree.get? id = some node) :
    tree.identityOf? id = some node.identity := by
  simp [identityOf?, found]

theorem identityOf?_eq_some_iff :
    tree.identityOf? id = some identity ↔ ∃ node, tree.get? id = some node ∧
      node.identity = identity := by
  simp [identityOf?]

/-- Neither the identity of a node nor the registry changed. -/
structure SameEntries (before after : Tree) : Prop where
  registry : after.registry = before.registry
  identities : after.identityOf? = before.identityOf?

theorem SameEntries.refl (tree : Tree) : SameEntries tree tree :=
  ⟨rfl, rfl⟩

theorem SameEntries.trans (first : SameEntries before middle) (second : SameEntries middle after) :
    SameEntries before after where
  registry := second.registry.trans first.registry
  identities := second.identities.trans first.identities

theorem sameEntries_mapNodes (tree : Tree) (change : Node → Node)
    (keepsId : ∀ node, (change node).id = node.id)
    (keepsIdentity : ∀ node, (change node).identity = node.identity) :
    SameEntries tree (tree.mapNodes change) where
  registry := rfl
  identities := by
    funext id
    rw [identityOf?, identityOf?, get?_mapNodes tree id change keepsId, Option.map_map]
    simp [Function.comp_def, keepsIdentity]

theorem sameEntries_modify (tree : Tree) (id : NodeId) (change : Node → Node)
    (keepsId : ∀ node, (change node).id = node.id)
    (keepsIdentity : ∀ node, (change node).identity = node.identity) :
    SameEntries tree (tree.modify id change) := by
  rw [modify_eq_mapNodes]
  apply sameEntries_mapNodes <;> intro node <;> split
  · exact keepsId node
  · rfl
  · exact keepsIdentity node
  · rfl

/-! ## Changes of state, place and style -/

/-- No node came, went, moved or became another one. -/
structure Restyled (before after : Tree) : Prop extends SameEntries before after where
  links : SameLinks before after

namespace Restyled

theorem refl (tree : Tree) : Restyled tree tree :=
  ⟨.refl tree, .refl tree⟩

theorem trans (first : Restyled before middle) (second : Restyled middle after) :
    Restyled before after :=
  ⟨first.toSameEntries.trans second.toSameEntries, first.links.trans second.links⟩

theorem foldl {Item : Type} {step : Tree → Item → Tree}
    (each : ∀ tree item, Restyled tree (step tree item)) (tree : Tree) (items : List Item) :
    Restyled tree (items.foldl step tree) := by
  induction items generalizing tree with
  | nil => exact refl tree
  | cons item later ih => exact (each tree item).trans (ih _)

end Restyled

theorem restyled_mapNodes (tree : Tree) (change : Node → Node)
    (keeps : ∀ node, (change node).frame = node.frame) : Restyled tree (tree.mapNodes change) := by
  have same := fun node => Node.frame_eq_iff.mp (keeps node)
  constructor
  · exact sameEntries_mapNodes tree change (fun node => (same node).1) fun node => (same node).2.1
  · apply sameLinks_mapNodes
    · exact fun node => (same node).1
    · exact fun node => (same node).2.2.1
    · exact fun node => (same node).2.2.2

theorem restyled_modify (tree : Tree) (id : NodeId) (change : Node → Node)
    (keeps : ∀ node, (change node).frame = node.frame) : Restyled tree (tree.modify id change) := by
  rw [modify_eq_mapNodes]
  apply restyled_mapNodes
  intro node
  split
  · exact keeps node
  · rfl

theorem restyled_dirtySubtree (tree : Tree) (id : NodeId) :
    Restyled tree (tree.dirtySubtree id) := by
  rw [dirtySubtree]
  split
  · apply restyled_mapNodes
    intro node
    split <;> rfl
  · exact .refl tree

theorem restyled_dirtyDependents (tree : Tree) (id : NodeId) :
    Restyled tree (tree.dirtyDependents id) :=
  (restyled_dirtySubtree tree id).trans (.foldl restyled_dirtySubtree _ _)

/-- A change of one node with all that it makes dirty. -/
theorem restyled_changed (tree : Tree) (id : NodeId) (change : Node → Node)
    (keeps : ∀ node, (change node).frame = node.frame) :
    Restyled tree ((tree.modify id change).dirtyDependents id) :=
  (restyled_modify tree id change keeps).trans (restyled_dirtyDependents _ id)

theorem restyled_cleanAll (tree : Tree) : Restyled tree tree.cleanAll :=
  restyled_mapNodes tree (fun node => { node with flags := { node.flags with dirty := false } })
    fun _ => rfl

theorem restyled_placeChild (total : Nat) (tree : Tree) (entry : NodeId × Nat) :
    Restyled tree (placeChild total tree entry) := by
  have placed := restyled_modify tree entry.1
    (fun node => { node with placement := Placement.ofIndex entry.2 total }) fun _ => rfl
  rw [placeChild]
  split
  · exact .refl tree
  · simp only
    split
    · exact placed
    · exact placed.trans (restyled_dirtySubtree _ entry.1)

theorem restyled_placeChildren (tree : Tree) (parent : NodeId) :
    Restyled tree (tree.placeChildren parent) :=
  .foldl (restyled_placeChild _) tree _

theorem restyled_turnFlag (tree : Tree) (flag : Flag) (value : Bool) (id : NodeId) :
    Restyled tree (tree.turnFlag flag value id) := by
  rw [turnFlag]
  split
  · split
    · exact .refl tree
    · exact restyled_changed tree id _ fun _ => rfl
  · exact .refl tree

theorem restyled_giveFlag (tree : Tree) (flag : Flag) (owner : Option NodeId) :
    Restyled tree (tree.giveFlag flag owner) := by
  have cleared := Restyled.foldl (restyled_turnFlag · flag false) tree
  cases owner with
  | none => exact cleared _
  | some id => exact (cleared _).trans (restyled_turnFlag _ flag true id)

/-! ## Changes of a hidden part -/

section Hiding

variable {hide : Node → Node}

/-- Two trees differ at most in what is hidden of their nodes. -/
structure SameBut (hide : Node → Node) (before after : Tree) : Prop where
  nodes : after.nodes.map hide = before.nodes.map hide
  root : after.root = before.root
  registry : after.registry = before.registry
  nextId : after.nextId = before.nextId

namespace SameBut

theorem refl (tree : Tree) : SameBut hide tree tree :=
  ⟨rfl, rfl, rfl, rfl⟩

theorem trans (first : SameBut hide before middle) (second : SameBut hide middle after) :
    SameBut hide before after where
  nodes := second.nodes.trans first.nodes
  root := second.root.trans first.root
  registry := second.registry.trans first.registry
  nextId := second.nextId.trans first.nextId

theorem foldl {Item : Type} {step : Tree → Item → Tree}
    (each : ∀ tree item, SameBut hide tree (step tree item)) (tree : Tree) (items : List Item) :
    SameBut hide tree (items.foldl step tree) := by
  induction items generalizing tree with
  | nil => exact refl tree
  | cons item later ih => exact (each tree item).trans (ih _)

/-- A node has its counterpart, which differs from it at most in what is hidden. -/
theorem exists_get? (same : SameBut hide before after) (keepsId : ∀ node, (hide node).id = node.id)
    {node : Node} (found : before.get? id = some node) :
    ∃ other, after.get? id = some other ∧ hide other = hide node := by
  have lookup (tree : Tree) : (tree.get? id).map hide =
      (tree.nodes.map hide).find? fun node => decide (node.id = id) := by
    rw [List.find?_map]
    simp only [Function.comp_def, keepsId]
    rfl
  have hidden := lookup after
  rw [same.nodes, ← lookup before, found] at hidden
  exact Option.map_eq_some_iff.mp hidden

end SameBut

theorem sameBut_mapNodes (tree : Tree) (change : Node → Node)
    (keeps : ∀ node, hide (change node) = hide node) :
    SameBut hide tree (tree.mapNodes change) where
  nodes := by
    rw [mapNodes, List.map_map]
    exact List.map_congr_left fun node _ => keeps node
  root := rfl
  registry := rfl
  nextId := rfl

theorem sameBut_modify (tree : Tree) (id : NodeId) (change : Node → Node)
    (keeps : ∀ node, hide (change node) = hide node) :
    SameBut hide tree (tree.modify id change) := by
  rw [modify_eq_mapNodes]
  apply sameBut_mapNodes
  intro node
  split
  · exact keeps node
  · rfl

theorem sameBut_dirtySubtree (marks : ∀ node, hide node.dirtied = hide node) (tree : Tree)
    (id : NodeId) : SameBut hide tree (tree.dirtySubtree id) := by
  rw [dirtySubtree]
  split
  · apply sameBut_mapNodes
    intro node
    split
    · exact marks node
    · rfl
  · exact .refl tree

theorem sameBut_placeChild (marks : ∀ node, hide node.dirtied = hide node)
    (places : ∀ (node : Node) placement, hide { node with placement } = hide node) (total : Nat)
    (tree : Tree) (entry : NodeId × Nat) : SameBut hide tree (placeChild total tree entry) := by
  have placed : SameBut hide tree (tree.placedAt total entry) :=
    sameBut_modify tree entry.1 _ fun node => places node _
  cases found : tree.get? entry.1 with
  | none =>
      rw [placeChild_unknown found]
      exact .refl tree
  | some child =>
      rw [placeChild_of_get? found]
      split
      · exact placed
      · exact placed.trans (sameBut_dirtySubtree marks _ entry.1)

theorem sameBut_placeChildren (marks : ∀ node, hide node.dirtied = hide node)
    (places : ∀ (node : Node) placement, hide { node with placement } = hide node) (tree : Tree)
    (parent : NodeId) : SameBut hide tree (tree.placeChildren parent) :=
  .foldl (sameBut_placeChild marks places _) tree _

end Hiding

end Tree

end WidgetStyle
