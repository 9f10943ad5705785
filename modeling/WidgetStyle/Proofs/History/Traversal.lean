import Mathlib.Data.List.Sort
import Mathlib.Logic.Function.Iterate
import WidgetStyle.Proofs.History.Basic
import WidgetStyle.Proofs.Tree.DocumentOrder

/-!
# Traversals of a reachable tree

A traversal below a node is a loop over a stack of ids, with nothing that bounds it and no
record of what it met before.  Whatever was done to a tree, the loop stops, after one turn for
each id that it meets.  It meets the descendants of the node in the order of a recursion over
the children, so the bound with which they are collected never cuts them short.  The walk from
the root meets every node once, and each parent before its children.
-/

namespace WidgetStyle

/-! ## The loop -/

/-- How far a traversal has come: the ids met so far, and a stack of the ids that wait, the
last of which is on top. -/
structure Traversal where
  met : List NodeId
  stack : List NodeId

namespace Traversal

/-- The traversal of all that lies below a node begins with its children, the first on top. -/
def below (tree : Tree) (top : NodeId) : Traversal :=
  { met := [], stack := (tree.childrenOf top).reverse }

/-- One turn of the loop: the id on top is popped and met, and its children are pushed in
reverse, so that the first one is on top.  Nothing happens when no id waits. -/
def turn (tree : Tree) (now : Traversal) : Traversal :=
  match now.stack.getLast? with
  | some id =>
      { met := now.met ++ [id]
        stack := now.stack.dropLast ++ (tree.childrenOf id).reverse }
  | none => now

/-- The loop meets these ids and stops: one turn for each id leaves nothing on the stack, and
before that some id waits. -/
structure Meets (tree : Tree) (start : Traversal) (ids : List NodeId) : Prop where
  goesOn : ∀ turns, turns < ids.length → ((turn tree)^[turns] start).stack ≠ []
  stops : (turn tree)^[ids.length] start = { met := start.met ++ ids, stack := [] }

variable {tree : Tree}

theorem turn_push (tree : Tree) (met : List NodeId) (id : NodeId) (waiting : List NodeId) :
    turn tree { met, stack := (id :: waiting).reverse } =
      { met := met ++ [id], stack := (tree.childrenOf id ++ waiting).reverse } := by
  simp [turn]

/-- The loop meets what the walk from its stack meets. -/
theorem meets_of_walk {waiting ids : List NodeId} (walk : tree.Walk waiting ids)
    (met : List NodeId) : Meets tree { met, stack := waiting.reverse } ids := by
  induction walk generalizing met with
  | done =>
      constructor
      · intro turns before
        cases before
      · simp
  | @visit id waiting ids _ ih =>
      have rest := ih (met ++ [id])
      constructor
      · intro turns before
        cases turns with
        | zero => simp
        | succ turns =>
            rw [Function.iterate_succ_apply, turn_push]
            exact rest.goesOn turns (Nat.lt_of_succ_lt_succ before)
      · rw [List.length_cons, Function.iterate_succ_apply, turn_push, rest.stops]
        simp

end Traversal

namespace Tree

variable {birth : NodeId → Int} {tree : Tree}

/-! ## The recursion -/

/-- The list gives the siblings in recursive pre-order: each of them is followed by what this
gives for its own children, and then by the siblings after it. -/
inductive Preordered (tree : Tree) : List NodeId → List NodeId → Prop where
  | none : Preordered tree [] []
  | next {id : NodeId} {siblings inner outer : List NodeId} :
      Preordered tree (tree.childrenOf id) inner → Preordered tree siblings outer →
        Preordered tree (id :: siblings) (id :: (inner ++ outer))

theorem Preordered.walk {siblings ids : List NodeId} (given : tree.Preordered siblings ids) :
    tree.Walk siblings ids := by
  induction given with
  | none => exact .done
  | next _ _ inner outer => exact .visit (inner.append outer)

theorem Walk.preordered {siblings ids : List NodeId} (walk : tree.Walk siblings ids) :
    tree.Preordered siblings ids := by
  -- A walk is split where the children of a node end and its siblings begin.  The two parts are
  -- no parts of its derivation, but they are shorter.
  induction count : ids.length using Nat.strongRecOn generalizing siblings ids with
  | ind count ih =>
      cases walk with
      | done => exact .none
      | visit rest =>
          rcases rest.split with ⟨inner, outer, parts, innerWalk, outerWalk⟩
          subst parts
          simp only [List.length_cons, List.length_append] at count
          apply Preordered.next
          · exact ih inner.length (by omega) innerWalk rfl
          · exact ih outer.length (by omega) outerWalk rfl

/-- In any tree a walk over a stack goes the way of the recursion over the children. -/
theorem walk_iff_preordered {siblings ids : List NodeId} :
    tree.Walk siblings ids ↔ tree.Preordered siblings ids :=
  ⟨Walk.preordered, Preordered.walk⟩

theorem Walk.unique {stack one other : List NodeId} (first : tree.Walk stack one)
    (second : tree.Walk stack other) : one = other := by
  induction first generalizing other with
  | done =>
      cases second
      rfl
  | visit _ ih =>
      cases second with
      | visit rest => rw [ih rest]

/-! ## Below a node -/

/-- What the traversal below a node comes to: the loop stops, it has met the ids in the order
of the recursion, and these are the ids of what lies below the node. -/
structure TraversedBelow (tree : Tree) (top : NodeId) : Prop where
  meets : Traversal.Meets tree (.below tree top) (tree.descendants top)
  fewer : (tree.descendants top).length < tree.size
  recursive : ∀ ids, tree.Preordered (tree.childrenOf top) ids ↔ ids = tree.descendants top
  distinct : (tree.descendants top).Nodup
  members : ∀ id, id ∈ tree.descendants top ↔ tree.StrictlyBelow top id

namespace LinkedBy

theorem walk_descendants (linked : tree.LinkedBy birth) (top : NodeId) :
    tree.Walk (tree.childrenOf top) (tree.descendants top) := by
  have walk := linked.walk_subtree top
  rw [subtree] at walk
  cases walk with
  | visit rest => rwa [List.append_nil] at rest

theorem mem_descendants_iff (linked : tree.LinkedBy birth) {top id : NodeId} :
    id ∈ tree.descendants top ↔ tree.StrictlyBelow top id := by
  rw [linked.mem_walk_iff (linked.walk_descendants top)]
  constructor
  · intro listed
    rcases listed with ⟨child, member, below⟩
    exact below.strictly_of_child (linked.childOf.mp member)
  · intro strict
    rcases Below.exists_child strict with ⟨child, link, below⟩
    exact ⟨child, linked.childOf.mpr link, below⟩

theorem traversedBelow (linked : tree.LinkedBy birth) {top : NodeId}
    (known : tree.contains top = true) : tree.TraversedBelow top := by
  have walk := linked.walk_descendants top
  constructor
  case meets => exact Traversal.meets_of_walk walk []
  case fewer => exact linked.length_walk_le (linked.walk_subtree top) known
  case recursive =>
    intro ids
    rw [← walk_iff_preordered]
    constructor
    · intro again
      exact again.unique walk
    · intro same
      rwa [same]
  case distinct => exact (List.nodup_cons.mp (linked.nodup_subtree top)).2
  case members => exact fun id => linked.mem_descendants_iff

/-! ## From the root -/

theorem nodup_preorder (linked : tree.LinkedBy birth) : tree.preorder.Nodup := by
  rw [preorder]
  cases tree.root with
  | none => exact .nil
  | some root => exact linked.nodup_subtree root

/-- The walk from the root finds a node for every id. -/
theorem map_id_preorderNodes (linked : tree.LinkedBy birth) :
    tree.preorderNodes.map (·.id) = tree.preorder := by
  have known : ∀ id ∈ tree.preorder, (tree.get? id).map (·.id) = some id := by
    intro id met
    rcases contains_iff.mp (linked.mem_preorder_iff.mp met) with ⟨node, found⟩
    rw [found, Option.map_some, id_of_get? found]
  rw [preorderNodes, List.map_filterMap, List.filterMap_congr known, List.filterMap_some]

theorem nodup_map_id_preorderNodes (linked : tree.LinkedBy birth) :
    (tree.preorderNodes.map (·.id)).Nodup := by
  rw [linked.map_id_preorderNodes]
  exact linked.nodup_preorder

/-- The walk from the root is a rearrangement of all nodes. -/
theorem perm_preorderNodes (linked : tree.LinkedBy birth) :
    tree.preorderNodes.Perm tree.nodes := by
  have walked := linked.nodup_map_id_preorderNodes.of_map
  have listed := linked.distinct.of_map
  rw [List.perm_ext_iff_of_nodup walked listed]
  intro node
  rw [linked.mem_preorderNodes_iff]
  exact ⟨mem_of_get?, get?_of_mem linked.distinct⟩

/-- The walk meets a node before all that lies below it. -/
theorem sublist_preorderNodes (linked : tree.LinkedBy birth) {upper lower : Node}
    (strict : tree.StrictlyBelow upper.id lower.id) (upperMet : upper ∈ tree.preorderNodes)
    (lowerMet : lower ∈ tree.preorderNodes) : [upper, lower].Sublist tree.preorderNodes := by
  have asymmetric : Std.Antisymm fun first second : Node =>
      tree.Precedes first.id second.id :=
    ⟨fun first second order turned => absurd turned (linked.not_precedes_symm order)⟩
  have different : upper ≠ lower := by
    intro same
    rw [same] at strict
    exact linked.not_strictlyBelow_self lower.id strict
  have within : [upper, lower].Subperm tree.preorderNodes := by
    apply List.subperm_of_subset
    · simp [different]
    · simp [upperMet, lowerMet]
  have ordered : [upper, lower].Pairwise fun first second =>
      tree.Precedes first.id second.id := by
    simpa using .above strict
  exact List.sublist_of_subperm_of_pairwise within ordered linked.pairwise_preorderNodes

end LinkedBy

/-- What traversals of a tree come to: below each node as said there, and from the root to
every node, once and after its parent. -/
structure Traversed (tree : Tree) : Prop where
  below : ∀ top, tree.contains top = true → tree.TraversedBelow top
  found : tree.preorderNodes.map (·.id) = tree.preorder
  once : (tree.preorderNodes.map (·.id)).Nodup
  everyNode : tree.preorderNodes.Perm tree.nodes
  parentFirst : ∀ parent ∈ tree.nodes, ∀ child ∈ tree.nodes, child.parent = some parent.id →
    [parent, child].Sublist tree.preorderNodes

/-! ## Trees that share their ids -/

/-- The tree when other trees have taken some ids from the source that it shares with them. -/
def skipIds (tree : Tree) (taken : Nat) : Tree :=
  { tree with nextId := ⟨tree.nextId.value + taken⟩ }

theorem FormedBy.skipIds (formed : tree.FormedBy birth) (taken : Nat) :
    (tree.skipIds taken).FormedBy birth where
  distinct := formed.distinct
  rootFound := formed.rootFound
  rootOnly := formed.rootOnly
  childOf := formed.childOf
  parentOlder := formed.parentOlder
  childrenDistinct := formed.childrenDistinct
  placed := formed.placed

theorem WellFormed.skipIds (formed : tree.WellFormed) (taken : Nat) :
    (tree.skipIds taken).WellFormed where
  toLinkedBy := (formed.toFormedBy.skipIds taken).toLinkedBy.aged
  beforeNext := by
    intro id known
    have issued : id.value < tree.nextId.value := formed.beforeNext known
    simp only [Tree.skipIds]
    omega
  placed := formed.placed

end Tree

namespace TreeChange

open WidgetStyle.Tree

/-- The tree after the changes of a history.  Before each change other trees take the given
number of ids. -/
def replayAmong (tree : Tree) (history : List (Nat × TreeChange)) : Tree :=
  history.foldl (fun current step => step.2.apply (current.skipIds step.1)) tree

/-- A history of a tree that shares its ids with no other tree. -/
theorem replayAmong_alone (tree : Tree) (changes : List TreeChange) :
    replayAmong tree (changes.map fun change => (0, change)) = replay tree changes := by
  simp [replayAmong, replay, List.foldl_map, skipIds]

theorem wellFormed_replayAmong {tree : Tree} (formed : tree.WellFormed)
    (history : List (Nat × TreeChange)) : (replayAmong tree history).WellFormed := by
  induction history generalizing tree with
  | nil => exact formed
  | cons step later ih => exact ih (wellFormed_apply (formed.skipIds step.1) step.2)

/-- Every history leads to a tree that can be traversed. -/
theorem traversed_replayAmong (first : NodeId) (history : List (Nat × TreeChange)) :
    (replayAmong { nextId := first } history).Traversed := by
  have formed := wellFormed_replayAmong (wellFormed_empty first) history
  have linked := formed.toLinkedBy
  constructor
  case below => exact fun top known => linked.traversedBelow known
  case found => exact linked.map_id_preorderNodes
  case once => exact linked.nodup_map_id_preorderNodes
  case everyNode => exact linked.perm_preorderNodes
  case parentFirst =>
    intro parent parentListed child childListed link
    have found := get?_of_mem linked.distinct childListed
    have strict : (replayAmong { nextId := first } history).StrictlyBelow parent.id child.id :=
      ⟨parent.id, (parentId?_of_get? found).trans link, .top⟩
    apply linked.sublist_preorderNodes strict
    · exact linked.perm_preorderNodes.mem_iff.mpr parentListed
    · exact linked.perm_preorderNodes.mem_iff.mpr childListed

/-- The last node is met third, as it lies below the second one.  The ids between theirs went to
other trees. -/
example : (replayAmong { nextId := ⟨1⟩ }
    [ (0, .plantRoot { widgetType := "App" }),
      (0, .appendChild ⟨1⟩ { widgetType := "Row" }),
      (0, .appendChild ⟨1⟩ { widgetType := "Row" }),
      (5, .appendChild ⟨2⟩ { widgetType := "Label" }) ]).preorder = [⟨1⟩, ⟨2⟩, ⟨9⟩, ⟨3⟩] := by
  decide +kernel

end TreeChange

end WidgetStyle
