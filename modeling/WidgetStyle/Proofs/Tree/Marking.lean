import WidgetStyle.Proofs.Tree.Outline

/-!
# Marking nodes as dirty

What the marking operations do: they keep the outline of the tree, and leave
clean exactly the nodes that were clean before and lie below none of the tops
that are marked.  Putting children in their places changes placements besides,
and leaves nothing clean below a child whose place or number of siblings changed.
-/

namespace WidgetStyle.Tree

/-- The id belongs to a node that is not dirty. -/
def IsClean (tree : Tree) (id : NodeId) : Prop :=
  ∃ node, tree.get? id = some node ∧ node.flags.dirty = false

theorem IsClean.contains {tree : Tree} {id : NodeId} (clean : tree.IsClean id) :
    tree.contains id = true := by
  rcases clean with ⟨node, found, -⟩
  exact contains_of_get? found

/-! ## One subtree -/

theorem subtree_unknown {tree : Tree} {id : NodeId} (unknown : tree.get? id = none) :
    tree.subtree id = [id] := by
  rw [subtree, descendants, childrenOf_eq_nil unknown, collect]

/-- The node as it is after the given ids were marked. -/
def marked (ids : List NodeId) (node : Node) : Node :=
  if ids.contains node.id then node.dirtied else node

@[simp] theorem id_marked (ids : List NodeId) (node : Node) : (marked ids node).id = node.id := by
  unfold marked
  split <;> rfl

@[simp] theorem outline_marked (ids : List NodeId) (node : Node) :
    (marked ids node).outline = node.outline := by
  unfold marked
  split <;> rfl

theorem dirtySubtree_of_get? {tree : Tree} {top : NodeId} {node : Node}
    (found : tree.get? top = some node) :
    tree.dirtySubtree top = tree.mapNodes (marked (tree.subtree top)) := by
  rw [dirtySubtree, contains_of_get? found, if_pos rfl]
  rfl

theorem dirtySubtree_unknown {tree : Tree} {top : NodeId} (unknown : tree.get? top = none) :
    tree.dirtySubtree top = tree := by
  rw [dirtySubtree, contains, unknown]
  rfl

theorem get?_dirtySubtree (tree : Tree) (top id : NodeId) :
    (tree.dirtySubtree top).get? id = (tree.get? id).map (marked (tree.subtree top)) := by
  cases found : tree.get? top with
  | some node => rw [dirtySubtree_of_get? found, get?_mapNodes _ _ _ (id_marked _)]
  | none =>
      rw [dirtySubtree_unknown found, subtree_unknown found]
      cases lookup : tree.get? id with
      | none => rfl
      | some node =>
          have different : id ≠ top := fun same => by simp [same, found] at lookup
          simp [marked, id_of_get? lookup, different]

theorem sameOutline_dirtySubtree (tree : Tree) (top : NodeId) :
    SameOutline tree (tree.dirtySubtree top) := by
  cases found : tree.get? top with
  | some node =>
      rw [dirtySubtree_of_get? found]
      exact sameOutline_mapNodes tree _ (outline_marked _)
  | none =>
      rw [dirtySubtree_unknown found]
      exact .refl tree

@[simp] theorem isClean_dirtySubtree_iff (tree : Tree) (top id : NodeId) :
    (tree.dirtySubtree top).IsClean id ↔ tree.IsClean id ∧ id ∉ tree.subtree top := by
  unfold IsClean
  rw [get?_dirtySubtree]
  cases found : tree.get? id with
  | none => simp
  | some node =>
      have same := id_of_get? found
      by_cases member : id ∈ tree.subtree top <;>
        simp [marked, same, member, Node.dirtied]

/-! ## Several subtrees -/

theorem sameOutline_foldl_dirtySubtree (tree : Tree) (tops : List NodeId) :
    SameOutline tree (tops.foldl dirtySubtree tree) := by
  induction tops generalizing tree with
  | nil => exact .refl tree
  | cons top rest ih => exact (sameOutline_dirtySubtree tree top).trans (ih _)

theorem isClean_foldl_dirtySubtree_iff (tree : Tree) (tops : List NodeId) (id : NodeId) :
    (tops.foldl dirtySubtree tree).IsClean id ↔
      tree.IsClean id ∧ ∀ top, top ∈ tops → id ∉ tree.subtree top := by
  induction tops generalizing tree with
  | nil => simp
  | cons top rest ih =>
      have links := (sameOutline_dirtySubtree tree top).sameLinks
      rw [List.foldl_cons, ih, isClean_dirtySubtree_iff]
      simp only [← links.subtree_eq, List.forall_mem_cons, and_assoc]

/-! ## Dependents -/

/-- The elements after the first occurrence of one of them. -/
theorem mem_drop_dropWhile_iff {Member : Type} [DecidableEq Member] {members : List Member}
    {first later : Member} :
    later ∈ (members.dropWhile fun member => decide (member ≠ first)).drop 1 ↔
      ∃ i j : Nat, i < j ∧ members[i]? = some first ∧ members[j]? = some later := by
  induction members with
  | nil => simp
  | cons head rest ih =>
      by_cases same : head = first
      · subst same
        simp only [List.dropWhile_cons, ne_eq, not_true_eq_false, decide_false,
          Bool.false_eq_true, if_false, List.drop_succ_cons, List.drop_zero]
        rw [List.mem_iff_getElem?]
        constructor
        · rintro ⟨place, found⟩
          exact ⟨0, place + 1, by omega, rfl, found⟩
        · rintro ⟨i, j, order, -, found⟩
          cases j with
          | zero => omega
          | succ place => exact ⟨place, found⟩
      · simp only [List.dropWhile_cons, ne_eq, same, not_false_eq_true, decide_true, if_true]
        rw [ih]
        constructor
        · rintro ⟨i, j, order, start, found⟩
          exact ⟨i + 1, j + 1, by omega, start, found⟩
        · rintro ⟨i, j, order, start, found⟩
          cases i with
          | zero => exact absurd (Option.some.inj start) same
          | succ i =>
              cases j with
              | zero => omega
              | succ j => exact ⟨i, j, by omega, start, found⟩

/-- The siblings after a node are those listed after it below one parent. -/
theorem LinkedBy.mem_followingSiblings_iff {birth : NodeId → Int} {tree : Tree}
    (linked : tree.LinkedBy birth) {id later : NodeId} :
    later ∈ tree.followingSiblings id ↔
      ∃ parent, ∃ i j : Nat, i < j ∧ (tree.childrenOf parent)[i]? = some id ∧
        (tree.childrenOf parent)[j]? = some later := by
  cases link : tree.parentId? id with
  | none =>
      have orphan : (tree.get? id).bind tree.parent? = none := by
        cases found : tree.get? id with
        | none => rfl
        | some node =>
            rw [parentId?_of_get? found] at link
            rw [Option.bind_some, parent?, link]
            rfl
      rw [followingSiblings, orphan]
      refine ⟨fun member => absurd member List.not_mem_nil, ?_⟩
      rintro ⟨parent, i, j, -, first, -⟩
      rw [linked.childOf.mp (List.mem_of_getElem? first)] at link
      cases link
  | some parent =>
      obtain ⟨above, found⟩ := contains_iff.mp (linked.contains_parent link)
      obtain ⟨node, lookup, parented⟩ := Option.bind_eq_some_iff.mp link
      rw [followingSiblings, lookup, Option.bind_some, parent?, parented, Option.bind_some, found]
      have children := childrenOf_of_get? found
      constructor
      · intro member
        exact ⟨parent, children ▸ mem_drop_dropWhile_iff.mp member⟩
      · rintro ⟨other, i, j, order, first, second⟩
        have same := linked.childOf.mp (List.mem_of_getElem? first)
        rw [link] at same
        cases same
        exact mem_drop_dropWhile_iff.mpr ⟨i, j, order, children ▸ first, children ▸ second⟩

/-- A change of a node's identity or state can be seen from a node when that lies
below the changed one or below a later sibling of it. -/
def Affects (tree : Tree) (changed id : NodeId) : Prop :=
  tree.Below changed id ∨ ∃ later, later ∈ tree.followingSiblings changed ∧ tree.Below later id

theorem sameOutline_dirtyDependents (tree : Tree) (id : NodeId) :
    SameOutline tree (tree.dirtyDependents id) :=
  (sameOutline_dirtySubtree tree id).trans (sameOutline_foldl_dirtySubtree _ _)

theorem LinkedBy.isClean_dirtyDependents_iff {birth : NodeId → Int} {tree : Tree}
    (linked : tree.LinkedBy birth) (changed id : NodeId) :
    (tree.dirtyDependents changed).IsClean id ↔ tree.IsClean id ∧ ¬tree.Affects changed id := by
  have links := (sameOutline_dirtySubtree tree changed).sameLinks
  rw [dirtyDependents, isClean_foldl_dirtySubtree_iff, isClean_dirtySubtree_iff, Affects]
  simp only [← links.subtree_eq, linked.mem_subtree_iff, not_or, not_exists, not_and, and_assoc]

/-! ## Clean trees -/

theorem sameOutline_cleanAll (tree : Tree) : SameOutline tree tree.cleanAll :=
  sameOutline_mapNodes tree (fun node => { node with flags := { node.flags with dirty := false } })
    fun _ => rfl

/-! ## Placing children -/

theorem placeChild_unknown {tree : Tree} {total : Nat} {entry : NodeId × Nat}
    (unknown : tree.get? entry.1 = none) : placeChild total tree entry = tree := by
  rw [placeChild, unknown]

/-- The tree with one child put in its place, before anything is marked. -/
def placedAt (tree : Tree) (total : Nat) (entry : NodeId × Nat) : Tree :=
  tree.modify entry.1 fun node => { node with placement := Placement.ofIndex entry.2 total }

theorem sameLinks_placedAt (tree : Tree) (total : Nat) (entry : NodeId × Nat) :
    SameLinks tree (tree.placedAt total entry) :=
  sameLinks_modify tree entry.1 _ (fun _ => rfl) (fun _ => rfl) fun _ => rfl

theorem get?_placedAt (tree : Tree) (total : Nat) (entry : NodeId × Nat) (id : NodeId) :
    (tree.placedAt total entry).get? id =
      if id = entry.1 then
        (tree.get? entry.1).map fun node =>
          { node with placement := Placement.ofIndex entry.2 total }
      else tree.get? id := by
  exact get?_modify tree entry.1 id _ fun _ => rfl

@[simp] theorem isClean_placedAt_iff (tree : Tree) (total : Nat) (entry : NodeId × Nat) (id : NodeId) :
    (tree.placedAt total entry).IsClean id ↔ tree.IsClean id := by
  unfold IsClean
  rw [get?_placedAt]
  split
  · rename_i same
    rw [same]
    cases tree.get? entry.1 with
    | none => simp
    | some node => simp
  · rfl

theorem placeChild_of_get? {tree : Tree} {total : Nat} {entry : NodeId × Nat} {child : Node}
    (found : tree.get? entry.1 = some child) :
    placeChild total tree entry =
      if child.placement.index = entry.2 ∧ child.placement.total = total then
        tree.placedAt total entry
      else (tree.placedAt total entry).dirtySubtree entry.1 := by
  rw [placeChild, found]
  rfl

theorem sameOutline_placeChild (tree : Tree) (total : Nat) (entry : NodeId × Nat) :
    SameOutline (tree.placedAt total entry) (placeChild total tree entry) := by
  cases found : tree.get? entry.1 with
  | none =>
      have absent : ∀ node, node ∈ tree.nodes → node.id ≠ entry.1 := by
        intro node member same
        have known := contains_iff_mem.mpr (List.mem_map_of_mem (f := (·.id)) member)
        rw [same, contains, found] at known
        cases known
      rw [placeChild_unknown found, placedAt, modify]
      refine ⟨?_, rfl, rfl⟩
      rw [List.map_map]
      apply List.map_congr_left
      intro node member
      simp only [Function.comp_apply, absent node member, if_false]
  | some child =>
      rw [placeChild_of_get? found]
      split
      · exact .refl _
      · exact sameOutline_dirtySubtree _ _

theorem sameLinks_placeChild (tree : Tree) (total : Nat) (entry : NodeId × Nat) :
    SameLinks tree (placeChild total tree entry) :=
  (sameLinks_placedAt tree total entry).trans (sameOutline_placeChild tree total entry).sameLinks

theorem isClean_of_placeChild {tree : Tree} {total : Nat} {entry : NodeId × Nat} {id : NodeId}
    (clean : (placeChild total tree entry).IsClean id) : tree.IsClean id := by
  cases found : tree.get? entry.1 with
  | none => rwa [placeChild_unknown found] at clean
  | some child =>
      rw [placeChild_of_get? found] at clean
      split at clean
      · exact (isClean_placedAt_iff tree total entry id).mp clean
      · exact (isClean_placedAt_iff tree total entry id).mp
          ((isClean_dirtySubtree_iff _ _ _).mp clean).1

/-- A node that is not below the child that is put in its place stays clean. -/
theorem isClean_placeChild {tree : Tree} {total : Nat} {entry : NodeId × Nat} {id : NodeId}
    (clean : tree.IsClean id) (outside : id ∉ tree.subtree entry.1) :
    (placeChild total tree entry).IsClean id := by
  have placed := (isClean_placedAt_iff tree total entry id).mpr clean
  cases found : tree.get? entry.1 with
  | none => rwa [placeChild_unknown found]
  | some child =>
      rw [placeChild_of_get? found]
      split
      · exact placed
      · rw [(sameLinks_placedAt tree total entry).subtree_eq] at outside
        exact (isClean_dirtySubtree_iff _ _ _).mpr ⟨placed, outside⟩

/-- Where a clean node is left below a child that was put in its place, the child
had that place before. -/
theorem placement_of_isClean_placeChild {tree : Tree} {total : Nat} {entry : NodeId × Nat}
    {id : NodeId} {child : Node} (clean : (placeChild total tree entry).IsClean id)
    (found : tree.get? entry.1 = some child) (below : id ∈ tree.subtree entry.1) :
    child.placement.index = entry.2 ∧ child.placement.total = total := by
  rw [placeChild_of_get? found] at clean
  split at clean
  · assumption
  · have outside := ((isClean_dirtySubtree_iff _ _ _).mp clean).2
    rw [← (sameLinks_placedAt tree total entry).subtree_eq] at outside
    exact absurd below outside

/-! ## Placing all children -/

theorem sameLinks_foldl_placeChild (tree : Tree) (total : Nat) (entries : List (NodeId × Nat)) :
    SameLinks tree (entries.foldl (placeChild total) tree) := by
  induction entries generalizing tree with
  | nil => exact .refl tree
  | cons entry rest ih => exact (sameLinks_placeChild tree total entry).trans (ih _)

theorem isClean_of_foldl_placeChild {tree : Tree} {total : Nat} {entries : List (NodeId × Nat)}
    {id : NodeId} (clean : (entries.foldl (placeChild total) tree).IsClean id) :
    tree.IsClean id := by
  induction entries generalizing tree with
  | nil => exact clean
  | cons entry rest ih => exact isClean_of_placeChild (ih clean)

theorem isClean_foldl_placeChild {tree : Tree} {total : Nat} {entries : List (NodeId × Nat)}
    {id : NodeId} (clean : tree.IsClean id)
    (outside : ∀ child ∈ entries.map (·.1), id ∉ tree.subtree child) :
    (entries.foldl (placeChild total) tree).IsClean id := by
  induction entries generalizing tree with
  | nil => exact clean
  | cons entry rest ih =>
      rw [List.map_cons, List.forall_mem_cons] at outside
      apply ih (isClean_placeChild clean outside.1)
      simpa only [← (sameLinks_placeChild tree total entry).subtree_eq] using outside.2

/-- The outline of a node that none of the entries names is kept. -/
theorem outline_foldl_placeChild_of_not_mem {tree : Tree} {total : Nat}
    {entries : List (NodeId × Nat)} {id : NodeId} (outside : id ∉ entries.map (·.1)) :
    ((entries.foldl (placeChild total) tree).get? id).map Node.outline =
      (tree.get? id).map Node.outline := by
  induction entries generalizing tree with
  | nil => rfl
  | cons entry rest ih =>
      rw [List.map_cons, List.mem_cons, not_or] at outside
      rw [List.foldl_cons, ih outside.2, ← (sameOutline_placeChild tree total entry).get? id,
        get?_placedAt, if_neg outside.1]

/-- A node that one entry names is put in the place of that entry. -/
theorem outline_foldl_placeChild_of_mem {tree : Tree} {total : Nat}
    {entries : List (NodeId × Nat)} (distinct : (entries.map (·.1)).Nodup)
    {entry : NodeId × Nat} (member : entry ∈ entries) :
    ((entries.foldl (placeChild total) tree).get? entry.1).map Node.outline =
      (tree.get? entry.1).map fun node =>
        { node with placement := Placement.ofIndex entry.2 total }.outline := by
  induction entries generalizing tree with
  | nil => cases member
  | cons first rest ih =>
      rw [List.map_cons, List.nodup_cons] at distinct
      rw [List.foldl_cons]
      rcases List.mem_cons.mp member with rfl | later
      · rw [outline_foldl_placeChild_of_not_mem distinct.1,
          ← (sameOutline_placeChild tree total entry).get? entry.1, get?_placedAt, if_pos rfl,
          Option.map_map]
        rfl
      · have different : entry.1 ≠ first.1 := fun same =>
          distinct.1 (same ▸ List.mem_map_of_mem (f := (·.1)) later)
        have outlines := (sameOutline_placeChild tree total first).get? entry.1
        rw [get?_placedAt, if_neg different] at outlines
        have placed := congrArg
          (Option.map fun node : Node =>
            { node with placement := Placement.ofIndex entry.2 total }) outlines
        rw [Option.map_map, Option.map_map] at placed
        rw [ih distinct.2 later]
        exact placed.symm

/-- Where a clean node is left below a child that one entry names, the child had
the place of that entry before. -/
theorem placement_of_isClean_foldl_placeChild {tree : Tree} {total : Nat}
    {entries : List (NodeId × Nat)} (distinct : (entries.map (·.1)).Nodup)
    {entry : NodeId × Nat} (member : entry ∈ entries) {id : NodeId} {child : Node}
    (clean : (entries.foldl (placeChild total) tree).IsClean id)
    (found : tree.get? entry.1 = some child) (below : id ∈ tree.subtree entry.1) :
    child.placement.index = entry.2 ∧ child.placement.total = total := by
  induction entries generalizing tree child with
  | nil => cases member
  | cons first rest ih =>
      rw [List.map_cons, List.nodup_cons] at distinct
      rw [List.foldl_cons] at clean
      rcases List.mem_cons.mp member with rfl | later
      · exact placement_of_isClean_placeChild (isClean_of_foldl_placeChild clean) found below
      · have different : entry.1 ≠ first.1 := fun same =>
          distinct.1 (same ▸ List.mem_map_of_mem (f := (·.1)) later)
        have outlines := (sameOutline_placeChild tree total first).get? entry.1
        rw [get?_placedAt, if_neg different, found] at outlines
        obtain ⟨other, otherFound, outline⟩ := Option.map_eq_some_iff.mp outlines.symm
        rw [(sameLinks_placeChild tree total first).subtree_eq] at below
        have placement : other.placement = child.placement := congrArg (·.placement) outline
        rw [← placement]
        exact ih distinct.2 later clean otherFound below

@[simp] theorem map_fst_zipIdx (members : List NodeId) : members.zipIdx.map (·.1) = members := by
  rw [List.zipIdx_map_fst]

theorem sameLinks_placeChildren (tree : Tree) (parent : NodeId) :
    SameLinks tree (tree.placeChildren parent) :=
  sameLinks_foldl_placeChild tree _ _

theorem isClean_of_placeChildren {tree : Tree} {parent id : NodeId}
    (clean : (tree.placeChildren parent).IsClean id) : tree.IsClean id :=
  isClean_of_foldl_placeChild clean

theorem isClean_placeChildren {tree : Tree} {parent id : NodeId} (clean : tree.IsClean id)
    (outside : ∀ child ∈ tree.childrenOf parent, id ∉ tree.subtree child) :
    (tree.placeChildren parent).IsClean id :=
  isClean_foldl_placeChild clean (by rwa [map_fst_zipIdx])

theorem outline_placeChildren_of_not_mem {tree : Tree} {parent id : NodeId}
    (outside : id ∉ tree.childrenOf parent) :
    ((tree.placeChildren parent).get? id).map Node.outline =
      (tree.get? id).map Node.outline :=
  outline_foldl_placeChild_of_not_mem (by rwa [map_fst_zipIdx])

theorem outline_placeChildren_of_mem {tree : Tree} {parent child : NodeId} {place : Nat}
    (distinct : (tree.childrenOf parent).Nodup)
    (listed : (tree.childrenOf parent)[place]? = some child) :
    ((tree.placeChildren parent).get? child).map Node.outline =
      (tree.get? child).map fun node =>
        { node with
          placement := Placement.ofIndex place (tree.childrenOf parent).length }.outline := by
  have member : (child, place) ∈ (tree.childrenOf parent).zipIdx :=
    List.mem_zipIdx_iff_getElem?.mpr listed
  exact outline_foldl_placeChild_of_mem (by rwa [map_fst_zipIdx]) member

theorem placement_of_isClean_placeChildren {tree : Tree} {parent child id : NodeId} {place : Nat}
    {node : Node} (distinct : (tree.childrenOf parent).Nodup)
    (listed : (tree.childrenOf parent)[place]? = some child)
    (clean : (tree.placeChildren parent).IsClean id)
    (found : tree.get? child = some node) (below : id ∈ tree.subtree child) :
    node.placement.index = place ∧ node.placement.total = (tree.childrenOf parent).length := by
  have member : (child, place) ∈ (tree.childrenOf parent).zipIdx :=
    List.mem_zipIdx_iff_getElem?.mpr listed
  exact placement_of_isClean_foldl_placeChild (by rwa [map_fst_zipIdx]) member clean found below

end WidgetStyle.Tree
