import WidgetStyle.Proofs.Matching.Resemblance

/-!
# Parents and siblings by id

The two steps that matching takes, as functions of ids.  In a well-formed tree
the sibling before a node is the one listed before it, whatever index the node
carries, and both steps come to an end within the size of the tree.
-/

namespace WidgetStyle.Tree

open Surroundings

/-- The id of the sibling directly before a node. -/
def previousId? (tree : Tree) (id : NodeId) : Option NodeId :=
  (tree.get? id).bind fun node => (tree.previous? node).map (·.id)

theorem parent?_eq {tree : Tree} {id : NodeId} {node : Node} (found : tree.get? id = some node) :
    tree.parent? node = (tree.parentId? id).bind tree.get? := by
  rw [parentId?_of_get? found, parent?]

theorem parent?_eq_some_iff {tree : Tree} {id : NodeId} {node above : Node}
    (found : tree.get? id = some node) :
    tree.parent? node = some above ↔
      tree.get? above.id = some above ∧ tree.parentId? id = some above.id := by
  rw [parent?_eq found]
  cases link : tree.parentId? id with
  | none => simp
  | some parent =>
      rw [Option.bind_some]
      constructor
      · intro lookup
        rw [id_of_get? lookup]
        exact ⟨lookup, rfl⟩
      · rintro ⟨lookup, same⟩
        rw [Option.some.inj same]
        exact lookup

theorem get?_of_previous? {tree : Tree} {node before : Node}
    (found : tree.previous? node = some before) : tree.get? before.id = some before := by
  unfold previous? at found
  cases above : tree.parent? node with
  | none => rw [above] at found; cases found
  | some parent =>
      rw [above] at found
      simp only at found
      split at found
      · cases found
      · obtain ⟨id, -, lookup⟩ := Option.bind_eq_some_iff.mp found
        rwa [id_of_get? lookup]

theorem previous?_eq {tree : Tree} {id : NodeId} {node : Node}
    (found : tree.get? id = some node) :
    tree.previous? node = (tree.previousId? id).bind tree.get? := by
  rw [previousId?, found, Option.bind_some]
  cases before : tree.previous? node with
  | none => rfl
  | some other => exact (get?_of_previous? before).symm

namespace FormedBy

variable {birth : NodeId → Int} {tree : Tree}

theorem exists_place (formed : tree.FormedBy birth) {child parent : NodeId}
    (link : tree.parentId? child = some parent) :
    ∃ place : Nat, (tree.childrenOf parent)[place]? = some child :=
  List.mem_iff_getElem?.mp (formed.childOf.mpr link)

/-- The sibling before a node is the one listed before it. -/
theorem previous?_of_listed (formed : tree.FormedBy birth) {parent child : NodeId} {place : Nat}
    {node : Node} (listed : (tree.childrenOf parent)[place]? = some child)
    (found : tree.get? child = some node) :
    tree.previous? node =
      if place = 0 then none
      else (tree.childrenOf parent)[place - 1]?.bind tree.get? := by
  have link := formed.childOf.mp (List.mem_of_getElem? listed)
  obtain ⟨above, aboveFound⟩ := contains_iff.mp (formed.contains_parent link)
  have step : tree.parent? node = some above := by
    rw [parent?_eq found, link]
    exact aboveFound
  have index : node.placement.index = place := by
    rw [formed.placed listed found]
    rfl
  rw [previous?, step, index, childrenOf_of_get? aboveFound]
  cases place with
  | zero => rfl
  | succ place =>
      have position : ((place + 1 : Nat) - 1 : Int).toNat = place := by omega
      simp only [position]
      rw [if_neg (by omega), if_neg (by omega)]
      rfl

theorem previousId?_root {root : NodeId} (parentless : tree.parentId? root = none) :
    tree.previousId? root = none := by
  rw [previousId?]
  cases found : tree.get? root with
  | none => rfl
  | some node =>
      rw [parentId?_of_get? found] at parentless
      rw [Option.bind_some, previous?, parent?, parentless]
      rfl

theorem previousId?_of_listed (formed : tree.FormedBy birth) {parent child : NodeId}
    {place : Nat} (listed : (tree.childrenOf parent)[place]? = some child) :
    tree.previousId? child =
      if place = 0 then none else (tree.childrenOf parent)[place - 1]? := by
  obtain ⟨node, found⟩ := contains_iff.mp
    (formed.contains_child (List.mem_of_getElem? listed))
  rw [previousId?, found, Option.bind_some, formed.previous?_of_listed listed found]
  split
  · rfl
  · cases listedBefore : (tree.childrenOf parent)[place - 1]? with
    | none => rfl
    | some before =>
        obtain ⟨other, otherFound⟩ := contains_iff.mp
          (formed.contains_child (List.mem_of_getElem? listedBefore))
        rw [Option.bind_some, otherFound, Option.map_some, id_of_get? otherFound]

/-- A sibling before a node has the same parent, and the node comes after it. -/
theorem listed_of_previousId? (formed : tree.FormedBy birth) {before id : NodeId}
    (found : tree.previousId? id = some before) :
    ∃ parent, ∃ place : Nat, (tree.childrenOf parent)[place]? = some before ∧
      (tree.childrenOf parent)[place + 1]? = some id := by
  cases link : tree.parentId? id with
  | none => rw [previousId?_root link] at found; cases found
  | some parent =>
      obtain ⟨place, listed⟩ := formed.exists_place link
      rw [formed.previousId?_of_listed listed] at found
      cases place with
      | zero => cases found
      | succ place => exact ⟨parent, place, found, listed⟩

theorem parentId?_previous (formed : tree.FormedBy birth) {before id : NodeId}
    (found : tree.previousId? id = some before) : tree.parentId? before = tree.parentId? id := by
  obtain ⟨parent, place, listedBefore, listed⟩ := formed.listed_of_previousId? found
  rw [formed.childOf.mp (List.mem_of_getElem? listedBefore),
    formed.childOf.mp (List.mem_of_getElem? listed)]

/-! ## Chains -/

/-- The chain of parents of a node leads to the nodes that it is strictly below of. -/
theorem mem_chain_parent?_iff (formed : tree.FormedBy birth) {reach : Nat} {id : NodeId}
    {node other : Node} (found : tree.get? id = some node) (ends : Ends tree.parent? reach node) :
    other ∈ chain tree.parent? reach node ↔
      tree.get? other.id = some other ∧ tree.StrictlyBelow other.id id := by
  induction ends generalizing id with
  | stop last =>
      rw [chain_of_none last]
      constructor
      · intro member
        cases member
      · rintro ⟨-, parent, link, -⟩
        rcases contains_iff.mp (formed.contains_parent link) with ⟨above, lookup⟩
        rw [parent?_eq found, link, Option.bind_some, lookup] at last
        cases last
  | @next bound node above step _ ih =>
      rcases (parent?_eq_some_iff found).mp step with ⟨lookup, link⟩
      rw [chain_of_some step, List.mem_cons, ih lookup]
      constructor
      · rintro (rfl | ⟨known, strict⟩)
        · exact ⟨lookup, _, link, .top⟩
        · exact ⟨known, _, link, strict.below⟩
      · rintro ⟨known, parent, otherLink, below⟩
        rw [link] at otherLink
        cases otherLink
        rcases below.cases_top with top | strict
        · rw [← top, lookup] at known
          exact .inl (Option.some.inj known).symm
        · exact .inr ⟨known, strict⟩

theorem ends_parent? (formed : tree.FormedBy birth) {id : NodeId} {node : Node}
    (found : tree.get? id = some node) : Ends tree.parent? (tree.elders birth id) node := by
  refine formed.inductionUp
    (motive := fun id => ∀ node, tree.get? id = some node →
      Ends tree.parent? (tree.elders birth id) node) ?_ (contains_of_get? found) node found
  intro id known above node found
  cases link : tree.parentId? id with
  | none =>
      apply Ends.stop
      rw [parent?_eq found, link]
      rfl
  | some parent =>
      obtain ⟨upper, upperFound⟩ := contains_iff.mp (formed.contains_parent link)
      have fewer := elders_lt (contains_of_get? upperFound) (formed.parentOlder link)
      have step : tree.parent? node = some upper := by
        rw [parent?_eq found, link]
        exact upperFound
      exact (Ends.next step (above parent link upper upperFound)).mono fewer

/-- The sibling before a node that is not the first one. -/
theorem exists_previous? (formed : tree.FormedBy birth) {parent child : NodeId} {place : Nat}
    {node : Node} (listed : (tree.childrenOf parent)[place + 1]? = some child)
    (found : tree.get? child = some node) :
    ∃ sibling before, (tree.childrenOf parent)[place]? = some sibling ∧
      tree.get? sibling = some before ∧ tree.previous? node = some before := by
  have shorter : place < (tree.childrenOf parent).length := by
    have inside := (List.getElem?_eq_some_iff.mp listed).1
    omega
  have listedBefore := List.getElem?_eq_getElem shorter
  obtain ⟨before, beforeFound⟩ := contains_iff.mp
    (formed.contains_child (List.mem_of_getElem? listedBefore))
  refine ⟨_, before, listedBefore, beforeFound, ?_⟩
  rw [formed.previous?_of_listed listed found, if_neg (Nat.succ_ne_zero place),
    Nat.add_sub_cancel, listedBefore]
  exact beforeFound

theorem ends_previous?_of_listed (formed : tree.FormedBy birth) {parent child : NodeId}
    {place : Nat} {node : Node} (listed : (tree.childrenOf parent)[place]? = some child)
    (found : tree.get? child = some node) : Ends tree.previous? place node := by
  induction place generalizing child node with
  | zero =>
      apply Ends.stop
      rw [formed.previous?_of_listed listed found, if_pos rfl]
  | succ place ih =>
      rcases formed.exists_previous? listed found with
        ⟨sibling, before, listedBefore, beforeFound, step⟩
      exact .next step (ih listedBefore beforeFound)

theorem length_childrenOf_le (formed : tree.FormedBy birth) (id : NodeId) :
    (tree.childrenOf id).length ≤ tree.size := by
  have within : tree.childrenOf id ⊆ tree.nodes.map (·.id) := by
    intro child member
    exact contains_iff_mem.mp (formed.contains_child member)
  have bounded := ((formed.childrenDistinct id).subperm within).length_le
  rwa [List.length_map] at bounded

/-- Matching comes to an end by itself in a well-formed tree. -/
theorem ends_surroundings (formed : tree.FormedBy birth) {id : NodeId} {node : Node}
    (found : tree.get? id = some node) :
    Ends tree.surroundings.parent? tree.surroundings.reach node ∧
      Ends tree.surroundings.previous? tree.surroundings.reach node := by
  constructor
  · exact (formed.ends_parent? found).mono (elders_le_size birth tree id)
  · cases link : tree.parentId? id with
    | none =>
        apply Ends.stop
        have first := previousId?_root link
        change tree.previous? node = none
        rw [previous?_eq found, first]
        rfl
    | some parent =>
        obtain ⟨place, listed⟩ := formed.exists_place link
        have inside := (List.getElem?_eq_some_iff.mp listed).1
        have bounded := formed.length_childrenOf_le parent
        exact (formed.ends_previous?_of_listed listed found).mono (by
          change place ≤ tree.size
          omega)

end FormedBy

/-! ## Trees that resemble each other -/

/-- The nodes of two trees that are paired by their ids. -/
def Resemble.Related (left right : Tree) (Paired : NodeId → NodeId → Prop)
    (one other : Node) : Prop :=
  ∃ first second, Paired first second ∧ left.get? first = some one ∧
    right.get? second = some other

/-- Paired nodes are in their trees, and their parents and the siblings before them are
paired. -/
structure Parallel (left right : Tree) (Paired : NodeId → NodeId → Prop) : Prop where
  known : ∀ {first second}, Paired first second →
    left.contains first = true ∧ right.contains second = true
  parent : ∀ {first second}, Paired first second →
    Option.Rel Paired (left.parentId? first) (right.parentId? second)
  previous : ∀ {first second}, Paired first second →
    Option.Rel Paired (left.previousId? first) (right.previousId? second)

namespace Parallel

variable {left right : Tree} {leftBirth rightBirth : NodeId → Int}
  {Paired : NodeId → NodeId → Prop}

theorem lookup_related (parallel : Parallel left right Paired) {first second : Option NodeId}
    (paired : Option.Rel Paired first second) :
    Option.Rel (Resemble.Related left right Paired) (first.bind left.get?)
      (second.bind right.get?) := by
  cases paired with
  | none => exact .none
  | @some first second paired =>
      have known := parallel.known paired
      obtain ⟨one, found⟩ := contains_iff.mp known.1
      obtain ⟨other, otherFound⟩ := contains_iff.mp known.2
      rw [Option.bind_some, Option.bind_some, found, otherFound]
      exact .some ⟨first, second, paired, found, otherFound⟩

/-- Matching walks the same ways from paired nodes of well-formed trees. -/
theorem surroundings (parallel : Parallel left right Paired) (leftFormed : left.FormedBy leftBirth)
    (rightFormed : right.FormedBy rightBirth) :
    Surroundings.Parallel left.surroundings right.surroundings
      (Resemble.Related left right Paired) where
  parent := by
    rintro one other ⟨first, second, paired, found, otherFound⟩
    change Option.Rel _ (left.parent? one) (right.parent? other)
    rw [parent?_eq found, parent?_eq otherFound]
    exact parallel.lookup_related (parallel.parent paired)
  previous := by
    rintro one other ⟨first, second, paired, found, otherFound⟩
    change Option.Rel _ (left.previous? one) (right.previous? other)
    rw [previous?_eq found, previous?_eq otherFound]
    exact parallel.lookup_related (parallel.previous paired)
  leftEnds := by
    rintro one other ⟨first, second, -, found, -⟩
    exact leftFormed.ends_surroundings found
  rightEnds := by
    rintro one other ⟨first, second, -, -, otherFound⟩
    exact rightFormed.ends_surroundings otherFound

end Parallel

/-- Paired nodes look alike, and so do their parents and their siblings before
them. -/
structure Resemble (left right : Tree) (Paired : NodeId → NodeId → Prop) : Prop where
  like : ∀ {first second}, Paired first second → ∃ one other,
    left.get? first = some one ∧ right.get? second = some other ∧ one.Like other
  parent : ∀ {first second}, Paired first second →
    Option.Rel Paired (left.parentId? first) (right.parentId? second)
  previous : ∀ {first second}, Paired first second →
    Option.Rel Paired (left.previousId? first) (right.previousId? second)

namespace Resemble

variable {left right : Tree} {leftBirth rightBirth : NodeId → Int}
  {Paired : NodeId → NodeId → Prop}

theorem parallel (resemble : Resemble left right Paired) : Parallel left right Paired where
  known paired := by
    obtain ⟨one, other, found, otherFound, -⟩ := resemble.like paired
    exact ⟨contains_of_get? found, contains_of_get? otherFound⟩
  parent := resemble.parent
  previous := resemble.previous

/-- Paired nodes of well-formed trees cannot be told apart by matching. -/
theorem surroundings (resemble : Resemble left right Paired) (leftFormed : left.FormedBy leftBirth)
    (rightFormed : right.FormedBy rightBirth) :
    Surroundings.Resemble left.surroundings right.surroundings (Related left right Paired) := by
  have walks := resemble.parallel.surroundings leftFormed rightFormed
  refine ⟨?_, walks.parent, walks.previous, walks.leftEnds, walks.rightEnds⟩
  rintro one other ⟨first, second, paired, found, otherFound⟩
  obtain ⟨one', other', found', otherFound', alike⟩ := resemble.like paired
  rw [found] at found'
  rw [otherFound] at otherFound'
  cases found'
  cases otherFound'
  exact alike

end Resemble

end WidgetStyle.Tree
