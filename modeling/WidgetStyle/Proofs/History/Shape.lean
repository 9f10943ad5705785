import WidgetStyle.Proofs.History.Sharing
import WidgetStyle.Proofs.Tree.Core

/-!
# The shape of reachable trees

Whatever is done to a tree, its nodes stay one tree: the root is the one node
without a parent, parents and lists of children agree, every node lies below the
root, and every node but the root knows its place among its siblings.  The ids that
a history hands out only ever grow, so no id is handed out twice.
-/

namespace WidgetStyle

/-! ## Proper trees -/

/-- The placement says where a node stands in a list of siblings. -/
structure Placement.Describes (placement : Placement) (siblings : List NodeId) (id : NodeId) :
    Prop where
  index : ∃ place : Nat, siblings[place]? = some id ∧ placement.index = place
  total : placement.total = siblings.length
  isFirst : placement.isFirst = true ↔ siblings.head? = some id
  isLast : placement.isLast = true ↔ siblings.getLast? = some id
  isOnly : placement.isOnly = true ↔ siblings = [id]

/-- The placement made for an index describes that index in any list in which the
node is listed there and nowhere else. -/
theorem Placement.describes_ofIndex {siblings : List NodeId} {id : NodeId} {place : Nat}
    (distinct : siblings.Nodup) (listed : siblings[place]? = some id) :
    (ofIndex place siblings.length).Describes siblings id := by
  have inside : place < siblings.length := (List.getElem?_eq_some_iff.mp listed).1
  have samePlace : ∀ other : Nat, siblings[other]? = some id ↔ other = place := by
    intro other
    constructor
    · intro again
      exact (List.getElem?_inj (List.getElem?_eq_some_iff.mp again).1 distinct).mp
        (again.trans listed.symm)
    · intro same
      rw [same, listed]
  constructor
  case index => exact ⟨place, listed, rfl⟩
  case total => rfl
  case isFirst =>
    rw [List.head?_eq_getElem?, samePlace, ofIndex, decide_eq_true_eq]
    omega
  case isLast =>
    rw [List.getLast?_eq_getElem?, samePlace, ofIndex, decide_eq_true_eq]
    omega
  case isOnly =>
    rw [ofIndex, decide_eq_true_eq]
    constructor
    · intro single
      apply List.ext_getElem?
      intro other
      cases other with
      | zero =>
          have start : place = 0 := by omega
          rw [← start, listed, start]
          rfl
      | succ other =>
          rw [List.getElem?_eq_none (by omega)]
          rfl
    · intro alone
      simp [alone]

/-- Where a node stands among distinct siblings is described in one way only. -/
theorem Placement.Describes.unique {one other : Placement} {siblings : List NodeId} {id : NodeId}
    (distinct : siblings.Nodup) (first : one.Describes siblings id)
    (second : other.Describes siblings id) : one = other := by
  rcases first.index with ⟨place, listed, index⟩
  rcases second.index with ⟨again, listedAgain, indexAgain⟩
  have same := (List.getElem?_inj (List.getElem?_eq_some_iff.mp listed).1 distinct).mp
    (listed.trans listedAgain.symm)
  have total := first.total.trans second.total.symm
  have isFirst := Bool.eq_iff_iff.mpr (first.isFirst.trans second.isFirst.symm)
  have isLast := Bool.eq_iff_iff.mpr (first.isLast.trans second.isLast.symm)
  have isOnly := Bool.eq_iff_iff.mpr (first.isOnly.trans second.isOnly.symm)
  rw [← same, ← index] at indexAgain
  cases one
  cases other
  rw [Placement.mk.injEq]
  exact ⟨indexAgain.symm, total, isFirst, isLast, isOnly⟩

namespace Tree

/-- The nodes are one tree, and all but the root know their places in it. -/
structure Proper (tree : Tree) : Prop where
  distinct : (tree.nodes.map (·.id)).Nodup
  rooted : tree.root ≠ none ↔ tree.nodes ≠ []
  rootOnly : ∀ id, tree.root = some id ↔ ∃ node, tree.get? id = some node ∧ node.parent = none
  listedOnce : ∀ id node above, tree.get? id = some node → node.parent = some above →
    ∃ parent, tree.get? above = some parent ∧ parent.children.count id = 1
  childrenLinked : ∀ id node child, tree.get? id = some node → child ∈ node.children →
    node.children.count child = 1 ∧ ∃ lower, tree.get? child = some lower ∧ lower.parent = some id
  belowRoot : ∀ id, tree.contains id = true → ∃ root, tree.root = some root ∧ tree.Below root id
  placed : ∀ id node above parent, tree.get? id = some node → node.parent = some above →
    tree.get? above = some parent → node.placement.Describes parent.children id

theorem WellFormed.root_eq_some_iff {tree : Tree} (formed : tree.WellFormed) (id : NodeId) :
    tree.root = some id ↔ ∃ node, tree.get? id = some node ∧ node.parent = none := by
  constructor
  · intro rooted
    have found := formed.rootFound rooted
    rcases contains_iff.mp found.1 with ⟨node, lookup⟩
    exact ⟨node, lookup, (parentId?_of_get? lookup).symm.trans found.2⟩
  · intro found
    rcases found with ⟨node, lookup, parentless⟩
    exact formed.rootOnly (contains_of_get? lookup) ((parentId?_of_get? lookup).trans parentless)

theorem WellFormed.root_ne_none_iff {tree : Tree} (formed : tree.WellFormed) :
    tree.root ≠ none ↔ tree.nodes ≠ [] := by
  constructor
  · intro rooted empty
    rcases Option.ne_none_iff_exists'.mp rooted with ⟨root, same⟩
    have known := contains_iff_mem.mp (formed.rootFound same).1
    simp [empty] at known
  · intro inhabited rootless
    exact inhabited (formed.toLinked.nodes_eq_nil rootless)

/-- A well-formed tree is proper. -/
theorem WellFormed.proper {tree : Tree} (formed : tree.WellFormed) : tree.Proper := by
  have once : ∀ {id child : NodeId} {node : Node}, tree.get? id = some node →
      child ∈ node.children → node.children.count child = 1 := by
    intro id child node found member
    have distinct := formed.childrenDistinct id
    rw [childrenOf_of_get? found] at distinct
    exact List.count_eq_one_of_mem distinct member
  constructor
  case distinct => exact formed.distinct
  case rooted => exact formed.root_ne_none_iff
  case rootOnly => exact formed.root_eq_some_iff
  case listedOnce =>
    intro id node above found parented
    have member := formed.childOf.mpr ((parentId?_of_get? found).trans parented)
    rcases contains_iff.mp (contains_of_mem_childrenOf member) with ⟨parent, lookup⟩
    rw [childrenOf_of_get? lookup] at member
    exact ⟨parent, lookup, once lookup member⟩
  case childrenLinked =>
    intro id node child found member
    refine ⟨once found member, ?_⟩
    rw [← childrenOf_of_get? found] at member
    rcases contains_iff.mp (formed.contains_child member) with ⟨lower, lookup⟩
    exact ⟨lower, lookup, (parentId?_of_get? lookup).symm.trans (formed.childOf.mp member)⟩
  case belowRoot =>
    intro id known
    have inhabited : tree.nodes ≠ [] := by
      intro empty
      simp [contains_iff_mem, empty] at known
    rcases Option.ne_none_iff_exists'.mp (formed.root_ne_none_iff.mpr inhabited) with ⟨root, rooted⟩
    exact ⟨root, rooted, formed.below_root rooted known⟩
  case placed =>
    intro id node above parent found parented lookup
    rcases formed.exists_place ((parentId?_of_get? found).trans parented) with ⟨place, listed⟩
    rw [formed.placed listed found]
    rw [childrenOf_of_get? lookup] at listed ⊢
    have distinct := formed.childrenDistinct above
    rw [childrenOf_of_get? lookup] at distinct
    exact Placement.describes_ofIndex distinct listed

/-! ## Ages in proper trees

Nothing is said about the ids of a proper tree, which need not ascend from parents to children.
The depths of the nodes do, and tell their age as well.
-/

/-- The number of nodes above an id. -/
noncomputable def depth (tree : Tree) (id : NodeId) : Nat :=
  tree.nodes.countP fun node =>
    @decide (tree.StrictlyBelow node.id id) (Classical.propDecidable _)

namespace Proper

variable {tree : Tree} {id child parent : NodeId}

theorem exists_parent (proper : tree.Proper) (link : tree.parentId? child = some parent) :
    ∃ node, tree.get? parent = some node ∧ node.children.count child = 1 := by
  rcases contains_iff.mp (contains_of_parentId? link) with ⟨node, found⟩
  exact proper.listedOnce child node parent found ((parentId?_of_get? found).symm.trans link)

theorem childOf (proper : tree.Proper) :
    child ∈ tree.childrenOf parent ↔ tree.parentId? child = some parent := by
  constructor
  · intro member
    rcases contains_iff.mp (contains_of_mem_childrenOf member) with ⟨node, found⟩
    rw [childrenOf_of_get? found] at member
    rcases (proper.childrenLinked parent node child found member).2 with ⟨lower, lookup, link⟩
    exact (parentId?_of_get? lookup).trans link
  · intro link
    rcases proper.exists_parent link with ⟨node, found, once⟩
    rw [childrenOf_of_get? found, ← List.count_pos_iff, once]
    exact Nat.one_pos

theorem childrenDistinct (proper : tree.Proper) (id : NodeId) : (tree.childrenOf id).Nodup := by
  cases found : tree.get? id with
  | none =>
      rw [childrenOf_eq_nil found]
      exact .nil
  | some node =>
      rw [childrenOf_of_get? found, List.nodup_iff_count_eq_one]
      exact fun child member => (proper.childrenLinked id node child found member).1

/-- No node lies above itself: going up from it leads to the root, where the way ends. -/
theorem not_strictlyBelow_self (proper : tree.Proper) (known : tree.contains id = true) :
    ¬tree.StrictlyBelow id id := by
  rcases proper.belowRoot id known with ⟨root, rooted, below⟩
  clear known
  induction below with
  | top =>
      rintro ⟨parent, link, -⟩
      rcases (proper.rootOnly root).mp rooted with ⟨node, found, parentless⟩
      rw [parentId?_of_get? found, parentless] at link
      cases link
  | @child id parent link _ ih =>
      -- A way around through a node is a way around through its parent.
      rintro ⟨upper, again, around⟩
      rw [link] at again
      cases again
      apply ih
      rcases around.cases_top with same | ⟨next, further, under⟩
      · exact ⟨parent, same ▸ link, .top⟩
      · exact ⟨next, further, .trans (.child link .top) under⟩

theorem depth_lt (proper : tree.Proper) (link : tree.parentId? child = some parent) :
    tree.depth parent < tree.depth child := by
  classical
  rcases proper.exists_parent link with ⟨node, found, -⟩
  have named := id_of_get? found
  refine countP_lt_countP ?_ (mem_of_get? found) ?_ ?_
  · intro upper above
    rw [decide_eq_true_eq] at above ⊢
    exact ⟨parent, link, above.below⟩
  · rw [decide_eq_false_iff_not, named]
    exact proper.not_strictlyBelow_self (contains_of_get? found)
  · rw [decide_eq_true_eq, named]
    exact ⟨parent, link, .top⟩

/-- The links of a proper tree describe one tree, in which depth tells the age. -/
theorem formedBy_depth (proper : tree.Proper) : tree.FormedBy fun id => tree.depth id where
  distinct := proper.distinct
  rootFound rooted := by
    rcases (proper.rootOnly _).mp rooted with ⟨node, found, parentless⟩
    exact ⟨contains_of_get? found, (parentId?_of_get? found).trans parentless⟩
  rootOnly known parentless := by
    rcases contains_iff.mp known with ⟨node, found⟩
    exact (proper.rootOnly _).mpr ⟨node, found, (parentId?_of_get? found).symm.trans parentless⟩
  childOf := proper.childOf
  parentOlder link := Int.ofNat_lt.mpr (proper.depth_lt link)
  childrenDistinct := proper.childrenDistinct
  placed := by
    intro parent child place node listed found
    have link := proper.childOf.mp (List.mem_of_getElem? listed)
    rcases proper.exists_parent link with ⟨above, lookup, -⟩
    have distinct := proper.childrenDistinct parent
    have described := proper.placed child node parent above found
      ((parentId?_of_get? found).symm.trans link) lookup
    rw [← childrenOf_of_get? lookup] at described
    exact described.unique distinct (Placement.describes_ofIndex distinct listed)

/-- A proper tree is well-formed as long as no node has an id that is yet to be handed out. -/
theorem wellFormed (proper : tree.Proper)
    (issued : ∀ id, tree.contains id = true → id.value < tree.nextId.value) :
    tree.WellFormed where
  toLinkedBy := proper.formedBy_depth.toLinkedBy.aged
  beforeNext known := issued _ known
  placed := proper.formedBy_depth.placed

end Proper

theorem sameLinks_setIdentity (tree : Tree) (node : Node) (identity : Identity) :
    SameLinks tree (tree.setIdentity node identity) := by
  have modified := sameLinks_modify tree node.id (fun node => { node with identity })
    (fun _ => rfl) (fun _ => rfl) fun _ => rfl
  rw [setIdentity]
  apply modified.trans
  apply SameOutline.sameLinks
  apply SameOutline.trans _ (sameOutline_dirtyDependents _ node.id)
  exact ⟨rfl, rfl, rfl⟩

end Tree

namespace TreeChange

open WidgetStyle.Tree

variable {tree after : Tree}

/-! ## Ids in ascending order -/

/-- The id that a change hands out is the next one of the tree. -/
theorem issued?_eq_some (formed : tree.WellFormed) {change : TreeChange} {id : NodeId}
    (issued : change.issued? tree = some id) :
    id = tree.nextId ∧ (change.apply tree).nextId = tree.nextId.next := by
  cases change with
  | plantRoot identity =>
      rcases formed.plantRoot_eq identity with ⟨registry, planted⟩
      simp only [issued?, planted, Option.some.injEq] at issued
      simp [apply, outcome, planted, issued]
  | appendChild parent identity =>
      cases added : tree.appendChild parent identity with
      | error error => simp [issued?, added, Except.toOption] at issued
      | ok pair =>
          have appended := formed.appended added
          simp only [issued?, added, Except.toOption, Option.map_some, Option.some.injEq] at issued
          rw [← issued]
          refine ⟨appended.new_eq, ?_⟩
          simp only [apply, outcome, added, Except.map]
          exact appended.nextId
  | _ => cases issued

/-- A change that hands out no id keeps the next one. -/
theorem nextId_of_issued?_eq_none (formed : tree.WellFormed) {change : TreeChange}
    (idle : change.issued? tree = none) : (change.apply tree).nextId = tree.nextId := by
  have effect := effect_apply change tree
  generalize change.apply tree = after at effect
  cases effect with
  | planted identity => cases idle
  | appended added => simp [issued?, added, Except.toOption] at idle
  | removed id =>
      cases found : tree.get? id with
      | none => rw [removeSubtree_unknown found]
      | some node => exact (formed.removed (contains_of_get? found)).nextId
  | permuted done => exact (formed.permuted done).nextId
  | renamed found distinct => exact (sameLinks_setIdentity tree _ _).nextId.symm
  | restyled same => exact same.links.nextId.symm

/-- No change takes an id back. -/
theorem nextId_le_apply (formed : tree.WellFormed) (change : TreeChange) :
    tree.nextId.value ≤ (change.apply tree).nextId.value := by
  cases handedOut : change.issued? tree with
  | none => simp [nextId_of_issued?_eq_none formed handedOut]
  | some id =>
      rw [(issued?_eq_some formed handedOut).2]
      exact Int.le_of_lt (Int.lt_succ _)

/-- What a history hands out from a tree on is not older than the tree's next id. -/
theorem nextId_le_of_mem_issued (formed : tree.WellFormed) {changes : List TreeChange}
    {id : NodeId} (member : id ∈ issued tree changes) : tree.nextId.value ≤ id.value := by
  induction changes generalizing tree with
  | nil => cases member
  | cons change later ih =>
      rw [issued, List.mem_append, Option.mem_toList] at member
      rcases member with now | afterwards
      · simp [(issued?_eq_some formed now).1]
      · have next := ih (wellFormed_apply formed change) afterwards
        have kept := nextId_le_apply formed change
        omega

/-- The ids that a history hands out ascend. -/
theorem issued_ascending (formed : tree.WellFormed) (changes : List TreeChange) :
    (issued tree changes).Pairwise fun earlier later => earlier.value < later.value := by
  induction changes generalizing tree with
  | nil => exact .nil
  | cons change later ih =>
      have formedAfter := wellFormed_apply formed change
      rw [issued, List.pairwise_append]
      refine ⟨?_, ih formedAfter, ?_⟩
      · cases change.issued? tree with
        | none => exact .nil
        | some id => exact List.pairwise_singleton _ id
      · intro id now other afterwards
        have handedOut := issued?_eq_some formed (Option.mem_toList.mp now)
        have bound := nextId_le_of_mem_issued formedAfter afterwards
        rw [handedOut.2] at bound
        rw [handedOut.1]
        simp only [NodeId.next] at bound
        omega

/-- Where every node has a state of its own, every history leads to a proper tree, and the ids
that it hands out ascend. -/
theorem proper_replay (first : NodeId) (changes : List TreeChange) :
    (replay { nextId := first } changes).Proper ∧
      (issued { nextId := first } changes).Pairwise fun earlier later =>
        earlier.value < later.value :=
  ⟨(wellFormed_replay (wellFormed_empty first) changes).proper,
    issued_ascending (wellFormed_empty first) changes⟩

end TreeChange

/-- Of two rows that hold one state, the first one has the index of the second one. -/
theorem SharedTree.twinRows_misplaced :
    twinRows.tree.childrenOf ⟨1⟩ = [⟨2⟩, ⟨3⟩] ∧
      (twinRows.tree.get? ⟨2⟩).map (·.placement.index) = some 1 ∧
      ¬twinRows.tree.snapshot.Proper := by
  have index : (twinRows.tree.get? ⟨2⟩).map (·.placement.index) = some 1 := by decide +kernel
  refine ⟨by decide +kernel, index, ?_⟩
  intro proper
  rcases Option.map_eq_some_iff.mp index with ⟨first, found, second⟩
  have listed : (twinRows.tree.snapshot.childrenOf ⟨1⟩)[0]? = some ⟨2⟩ := by decide +kernel
  rw [proper.formedBy_depth.placed listed found] at second
  cases second

end WidgetStyle
