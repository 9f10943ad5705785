import WidgetStyle.Proofs.Tree.Removal

/-!
# What a node keeps

The core of a node is what it is by itself wherever it stands: its identity, its
state but for the mark as dirty, its parent and its inline style.  Its place counts
only when it has no parent, since siblings give it its place otherwise.  Each
operation of a build is described by the cores and by the lists of children after
it, and from these two everything follows that a build says about the shape of a
tree.
-/

namespace WidgetStyle

/-- The node without its place, unless it has no parent. -/
def Node.unplaced (node : Node) : Node :=
  { node with placement := if node.parent.isNone then node.placement else {} }

/-- The node without its place among siblings, its children, its style and its mark
as dirty. -/
def Node.core (node : Node) : Node :=
  node.face.unplaced

/-- The place of a node among siblings is no part of its core. -/
theorem Node.core_withPlacement {node : Node} {parent : NodeId} (link : node.parent = some parent)
    (placement : Placement) : { node with placement }.core = node.core := by
  simp only [core, unplaced, face, outline, link, Option.isNone_some, Bool.false_eq_true,
    if_false]

namespace Tree

variable {tree after : Tree}

/-- The core of the node with the given id. -/
def core? (tree : Tree) (id : NodeId) : Option Node :=
  (tree.get? id).map Node.core

@[simp] theorem core?_of_get? {id : NodeId} {node : Node} (found : tree.get? id = some node) :
    tree.core? id = some node.core := by
  rw [core?, found, Option.map_some]

theorem contains_eq_isSome_core? (tree : Tree) (id : NodeId) :
    tree.contains id = (tree.core? id).isSome := by
  rw [contains, core?, Option.isSome_map]

theorem parentId?_eq_core? (tree : Tree) (id : NodeId) :
    tree.parentId? id = (tree.core? id).bind (·.parent) := by
  rw [parentId?, core?, Option.bind_map]
  rfl

theorem contains_eq_of_core?_eq {id : NodeId} (same : after.core? id = tree.core? id) :
    after.contains id = tree.contains id := by
  rw [contains_eq_isSome_core?, contains_eq_isSome_core?, same]

theorem parentId?_eq_of_core?_eq {id : NodeId} (same : after.core? id = tree.core? id) :
    after.parentId? id = tree.parentId? id := by
  rw [parentId?_eq_core?, parentId?_eq_core?, same]

theorem SameOutline.core?_eq {left right : Tree} (same : SameOutline left right) (id : NodeId) :
    left.core? id = right.core? id := by
  have faces := congrArg (Option.map Node.unplaced) (face_of_sameOutline same id)
  rwa [Option.map_map, Option.map_map] at faces

/-! ## Placing -/

theorem core?_placeChild {total : Nat} {entry : NodeId × Nat} {parent : NodeId}
    (link : tree.parentId? entry.1 = some parent) (id : NodeId) :
    (placeChild total tree entry).core? id = tree.core? id := by
  rw [← (sameOutline_placeChild tree total entry).core?_eq, core?, get?_placedAt]
  split
  · rename_i same
    obtain ⟨node, found, above⟩ := Option.bind_eq_some_iff.mp link
    rw [same, core?, found]
    exact congrArg some (Node.core_withPlacement above _)
  · rfl

theorem core?_placeChildren (parent : NodeId)
    (children : ∀ child, child ∈ tree.childrenOf parent →
      ∃ above, tree.parentId? child = some above) (id : NodeId) :
    (tree.placeChildren parent).core? id = tree.core? id := by
  rw [placeChildren]
  have linked : ∀ entry, entry ∈ (tree.childrenOf parent).zipIdx →
      ∃ above, tree.parentId? entry.1 = some above := by
    intro entry member
    exact children entry.1 (List.fst_mem_of_mem_zipIdx member)
  generalize (tree.childrenOf parent).length = total
  generalize (tree.childrenOf parent).zipIdx = entries at linked
  clear children
  induction entries generalizing tree with
  | nil => rfl
  | cons entry rest ih =>
      obtain ⟨above, link⟩ := linked entry List.mem_cons_self
      rw [List.foldl_cons, ih, core?_placeChild link]
      intro other member
      rw [← (sameLinks_placeChild tree total entry).parents]
      exact linked other (List.mem_cons_of_mem _ member)

/-! ## The operations of a build -/

/-- What a tree looks like after a child was added. -/
structure Appended (before after : Tree) (parent new : NodeId) (identity : Identity) :
    Prop where
  new_eq : new = before.nextId
  core : ∀ id, after.core? id =
    if id = new then some (before.newNode identity (some parent)).core else before.core? id
  children : ∀ id, after.childrenOf id =
    if id = parent then before.childrenOf parent ++ [new] else before.childrenOf id
  nextId : after.nextId = before.nextId.next

theorem WellFormed.appended (wellFormed : tree.WellFormed) {parent new : NodeId}
    {identity : Identity} (added : tree.appendChild parent identity = .ok (new, after)) :
    Appended tree after parent new identity := by
  cases found : tree.get? parent with
  | none => rw [appendChild_unknown found] at added; cases added
  | some node =>
      have known := contains_of_get? found
      have linked := wellFormed.toLinked
      rw [appendChild_of_get? found] at added
      cases added
      have links := sameLinks_placeChildren (tree.grown parent identity) parent
      constructor
      · rfl
      · intro id
        have placed := core?_placeChildren parent
          (fun child member => ⟨parent, (linked.grown_linked known identity).childOf.mp member⟩) id
        rw [placed, core?, linked.get?_grown known]
        split
        · rfl
        · split
          · rename_i same
            rw [same, core?, Option.map_map]
            rfl
          · rfl
      · intro id
        rw [← links.children, linked.childrenOf_grown known]
      · exact links.nextId.symm

theorem exists_appendChild {parent : NodeId} (known : tree.contains parent = true)
    (identity : Identity) : ∃ after, tree.appendChild parent identity = .ok (tree.nextId, after) := by
  obtain ⟨node, found⟩ := contains_iff.mp known
  exact ⟨_, appendChild_of_get? found identity⟩

theorem WellFormed.core?_removeSubtree (wellFormed : tree.WellFormed) {id : NodeId}
    (known : tree.contains id = true) {other : NodeId} (apart : ¬tree.Below id other) :
    (tree.removeSubtree id).2.core? other = tree.core? other := by
  obtain ⟨node, found⟩ := contains_iff.mp known
  rw [core?, wellFormed.get?_removeSubtree found,
    if_neg fun member => apart (wellFormed.toLinked.mem_subtree_iff.mp member)]
  cases link : node.parent with
  | none => rw [detach_root link, core?]
  | some parent =>
      have above := (parentId?_of_get? found).trans link
      have children : ∀ child, child ∈ (tree.struck parent id).childrenOf parent →
          ∃ upper, (tree.struck parent id).parentId? child = some upper := by
        intro child member
        rw [wellFormed.toLinked.childrenOf_struck above] at member
        rw [parentId?_struck]
        exact ⟨parent, wellFormed.childOf.mp (List.mem_of_mem_erase member)⟩
      have placed := core?_placeChildren parent children other
      rw [core?] at placed
      rw [detach_child wellFormed.toLinkedBy found link, placed, core?, get?_struck]
      split
      · rename_i same
        rw [same, core?, Option.map_map]
        rfl
      · rfl

/-- What a tree looks like after children were reordered. -/
structure Permuted (before after : Tree) (parent : NodeId) (order : List NodeId) : Prop where
  core : ∀ id, after.core? id = before.core? id
  children : ∀ id, after.childrenOf id = if id = parent then order else before.childrenOf id
  nextId : after.nextId = before.nextId

theorem WellFormed.permuted (wellFormed : tree.WellFormed) {parent : NodeId}
    {order : List NodeId} (done : tree.permuteChildren parent order = .ok after) :
    Permuted tree after parent order := by
  obtain ⟨known, perm, rfl⟩ := permuteChildren_eq_ok_iff.mp done
  have linked := wellFormed.toLinked.reordered_linked known perm
  have links := sameLinks_placeChildren (tree.reordered parent order) parent
  constructor
  · intro id
    have placed := core?_placeChildren parent
      (fun child member => ⟨parent, linked.childOf.mp member⟩) id
    rw [placed, core?, get?_reordered]
    split
    · rename_i same
      rw [same, core?, Option.map_map]
      rfl
    · rfl
  · intro id
    rw [← links.children, childrenOf_reordered known]
  · exact links.nextId.symm

/-- What a tree looks like after the classes of a node were replaced. -/
structure Reclassed (before after : Tree) (changed : NodeId) (classes : List String) : Prop where
  core : ∀ id, after.core? id =
    if id = changed then
      (before.core? changed).map fun node =>
        { node with
          identity := { node.identity with classes := classes.foldl Identity.insertName [] } }
    else before.core? id
  face : ∀ {id}, id ≠ changed →
    (after.get? id).map Node.face = (before.get? id).map Node.face
  links : SameLinks before after

theorem reclassed {changed : NodeId} {classes : List String}
    (done : tree.replaceClasses changed classes = .ok after) :
    Reclassed tree after changed classes := by
  rw [replaceClasses, require] at done
  cases found : tree.get? changed with
  | none => rw [found] at done; cases done
  | some node =>
      rw [found] at done
      obtain rfl := Except.ok.inj done
      let identity := { node.identity with classes := classes.foldl Identity.insertName [] }
      have outlines : SameOutline (tree.modify node.id fun node => { node with identity })
          (tree.setIdentity node identity) := by
        rw [setIdentity]
        apply SameOutline.trans _ (sameOutline_dirtyDependents _ node.id)
        exact ⟨rfl, rfl, rfl⟩
      rw [id_of_get? found] at outlines
      have lookup := fun id => get?_modify tree changed id (fun node => { node with identity })
        fun _ => rfl
      constructor
      · intro id
        rw [← outlines.core?_eq id, core?, lookup]
        split
        · rw [core?, found]
          rfl
        · rfl
      · intro id different
        rw [← face_of_sameOutline outlines id, lookup, if_neg different]
      · exact (sameLinks_modify tree changed (fun node => { node with identity })
          (fun _ => rfl) (fun _ => rfl) fun _ => rfl).trans outlines.sameLinks

end Tree

end WidgetStyle
