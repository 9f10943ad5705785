import WidgetStyle.Proofs.Tree.Descent

/-!
# Document order

Which of two nodes comes first, told by the links of a tree and by no walk: a node comes
before all that lies below it, and an earlier sibling comes with all below it before a later
one.  Of two nodes at most one comes first, and the walk of a tree meets its nodes in this
order.
-/

namespace WidgetStyle.Tree

variable {tree : Tree}

/-- Two nodes are children of one parent, which lists the first one earlier. -/
def ListedBefore (tree : Tree) (elder younger : NodeId) : Prop :=
  ∃ parent, ∃ earlier later : Nat, earlier < later ∧
    (tree.childrenOf parent)[earlier]? = some elder ∧
    (tree.childrenOf parent)[later]? = some younger

/-- The first node comes before the second one. -/
inductive Precedes (tree : Tree) (first second : NodeId) : Prop where
  | above : tree.StrictlyBelow first second → Precedes tree first second
  | beside {elder younger : NodeId} :
      tree.ListedBefore elder younger → tree.Below elder first → tree.Below younger second →
        Precedes tree first second

theorem Below.strictly_of_child {top child id : NodeId} (below : tree.Below child id)
    (link : tree.parentId? child = some top) : tree.StrictlyBelow top id := by
  rcases below.cases_top with same | strict
  · subst same
    exact ⟨top, link, .top⟩
  · rcases strict with ⟨parent, above, upper⟩
    exact ⟨parent, above, .trans (.child link .top) upper⟩

namespace LinkedBy

variable {birth : NodeId → Int}

/-! ## A strict order -/

theorem exists_parent_of_listedBefore (linked : tree.LinkedBy birth) {elder younger : NodeId}
    (listed : tree.ListedBefore elder younger) :
    ∃ parent, tree.parentId? elder = some parent ∧ tree.parentId? younger = some parent := by
  rcases listed with ⟨parent, earlier, later, -, first, second⟩
  refine ⟨parent, ?_, ?_⟩
  · exact linked.childOf.mp (List.mem_of_getElem? first)
  · exact linked.childOf.mp (List.mem_of_getElem? second)

theorem listedBefore_trans (linked : tree.LinkedBy birth) {elder middle younger : NodeId}
    (first : tree.ListedBefore elder middle) (second : tree.ListedBefore middle younger) :
    tree.ListedBefore elder younger := by
  rcases first with ⟨parent, earlier, place, before, elderListed, middleListed⟩
  rcases second with ⟨upper, again, later, after, middleAgain, youngerListed⟩
  rcases linked.same_place middleListed middleAgain with ⟨rfl, rfl⟩
  exact ⟨upper, earlier, later, Nat.lt_trans before after, elderListed, youngerListed⟩

theorem not_listedBefore_self (linked : tree.LinkedBy birth) (id : NodeId) :
    ¬tree.ListedBefore id id := by
  intro listed
  rcases listed with ⟨parent, earlier, later, before, first, second⟩
  have same := linked.same_place first second
  omega

/-- Nothing lies below a sibling and below a later one. -/
theorem not_below_both (linked : tree.LinkedBy birth) {elder younger id : NodeId}
    (listed : tree.ListedBefore elder younger) (first : tree.Below elder id) :
    ¬tree.Below younger id := by
  intro second
  rcases linked.exists_parent_of_listedBefore listed with ⟨parent, link, otherLink⟩
  have same := linked.siblings_apart link otherLink first second
  subst same
  exact linked.not_listedBefore_self elder listed

/-- Whatever lies below a sibling of a node lies below all that is strictly above the node. -/
theorem below_of_listedBefore (linked : tree.LinkedBy birth) {top elder younger id : NodeId}
    (listed : tree.ListedBefore elder younger)
    (strict : tree.StrictlyBelow top elder ∨ tree.StrictlyBelow top younger)
    (below : tree.Below elder id ∨ tree.Below younger id) : tree.Below top id := by
  rcases linked.exists_parent_of_listedBefore listed with ⟨parent, link, otherLink⟩
  have upper : tree.Below top parent := by
    rcases strict with ⟨above, found, upper⟩ | ⟨above, found, upper⟩
    · rw [link] at found
      cases found
      exact upper
    · rw [otherLink] at found
      cases found
      exact upper
  rcases below with below | below
  · exact upper.trans (.trans (.child link .top) below)
  · exact upper.trans (.trans (.child otherLink .top) below)

/-- Of two nodes at most one comes first. -/
theorem not_precedes_symm (linked : tree.LinkedBy birth) {first second : NodeId}
    (order : tree.Precedes first second) : ¬tree.Precedes second first := by
  intro turned
  cases order with
  | above strict =>
      cases turned with
      | above again =>
          have older := linked.birth_lt_of_strictlyBelow strict
          have younger := linked.birth_lt_of_strictlyBelow again
          omega
      | beside listed left right =>
          exact linked.not_below_both listed left (right.trans strict.below)
  | @beside elder younger listed left right =>
      cases turned with
      | above strict => exact linked.not_below_both listed left (right.trans strict.below)
      | @beside other further listedAgain leftAgain rightAgain =>
          -- The first node lies below `elder` and `further`, one of which is above the other.
          rcases below_total left rightAgain with down | up
          · rcases down.cases_top with same | strict
            · subst same
              have around := linked.listedBefore_trans listedAgain listed
              exact linked.not_below_both around leftAgain right
            · have below := linked.below_of_listedBefore listedAgain (.inr strict) (.inl leftAgain)
              exact linked.not_below_both listed below right
          · rcases up.cases_top with same | strict
            · subst same
              have around := linked.listedBefore_trans listedAgain listed
              exact linked.not_below_both around leftAgain right
            · have below := linked.below_of_listedBefore listed (.inl strict) (.inr right)
              exact linked.not_below_both listedAgain leftAgain below

/-! ## Walks -/

/-- What lies below an id of the stack comes before all that lies below a later one. -/
def InOrder (tree : Tree) (stack : List NodeId) : Prop :=
  stack.Pairwise fun earlier later => ∀ first second, tree.Below earlier first →
    tree.Below later second → tree.Precedes first second

theorem inOrder_childrenOf (tree : Tree) (id : NodeId) : InOrder tree (tree.childrenOf id) := by
  rw [InOrder, List.pairwise_iff_getElem]
  intro earlier later inside bound before first second left right
  refine .beside ⟨id, earlier, later, before, ?_, ?_⟩ left right
  · exact List.getElem?_eq_getElem inside
  · exact List.getElem?_eq_getElem bound

/-- Visiting the first id of a stack leaves a stack in order. -/
theorem inOrder_visited (linked : tree.LinkedBy birth) {id : NodeId} {stack : List NodeId}
    (ordered : InOrder tree (id :: stack)) : InOrder tree (tree.childrenOf id ++ stack) := by
  rcases List.pairwise_cons.mp ordered with ⟨fromFirst, rest⟩
  apply List.pairwise_append.mpr
  refine ⟨inOrder_childrenOf tree id, rest, ?_⟩
  intro child member waiting later first second left right
  have link := linked.childOf.mp member
  exact fromFirst waiting later first second (.trans (.child link .top) left) right

/-- A walk from a stack in order meets its nodes in document order. -/
theorem pairwise_walk (linked : tree.LinkedBy birth) {stack visited : List NodeId}
    (walk : tree.Walk stack visited) (ordered : InOrder tree stack) :
    visited.Pairwise tree.Precedes := by
  induction walk with
  | done => exact .nil
  | @visit id stack visited rest ih =>
      apply List.pairwise_cons.mpr
      refine ⟨?_, ih (linked.inOrder_visited ordered)⟩
      intro other met
      rcases (linked.mem_walk_iff rest).mp met with ⟨top, member, below⟩
      rcases List.mem_append.mp member with child | waiting
      · exact .above (below.strictly_of_child (linked.childOf.mp child))
      · exact (List.pairwise_cons.mp ordered).1 top waiting id other .top below

/-- The walk of a tree meets its nodes in document order. -/
theorem pairwise_preorder (linked : tree.LinkedBy birth) :
    tree.preorder.Pairwise tree.Precedes := by
  rw [preorder]
  cases tree.root with
  | none => exact .nil
  | some root =>
      exact linked.pairwise_walk (linked.walk_subtree root) (List.pairwise_singleton _ _)

theorem pairwise_preorderNodes (linked : tree.LinkedBy birth) :
    tree.preorderNodes.Pairwise fun first second => tree.Precedes first.id second.id := by
  rw [preorderNodes, List.pairwise_filterMap]
  apply linked.pairwise_preorder.imp
  intro first second order node found other lookup
  grind

/-- The walk of a tree meets every node. -/
theorem mem_preorderNodes_iff (linked : tree.LinkedBy birth) {node : Node} :
    node ∈ tree.preorderNodes ↔ tree.get? node.id = some node := by
  rw [preorderNodes, List.mem_filterMap]
  constructor
  · intro met
    rcases met with ⟨id, -, found⟩
    grind
  · intro found
    exact ⟨node.id, linked.mem_preorder_iff.mpr (contains_of_get? found), found⟩

end LinkedBy

end WidgetStyle.Tree
