import Mathlib.Data.List.Perm.Subperm
import WidgetStyle.Proofs.Tree.Links

/-!
# Descent

What lies below a node, as a relation along parent links, and the walks of a tree
as a relation without a bound.  In a linked tree a walk meets every node below its
start once, so the bound that the executable walk carries is never reached, and
the subtree of a node is exactly what lies below it.
-/

namespace WidgetStyle.Tree

/-- A node is the top itself or lies somewhere below it. -/
inductive Below (tree : Tree) (top : NodeId) : NodeId → Prop where
  | top : Below tree top top
  | child {id parent : NodeId} :
      tree.parentId? id = some parent → Below tree top parent → Below tree top id

/-- A node lies below another one and is not that one. -/
def StrictlyBelow (tree : Tree) (top id : NodeId) : Prop :=
  ∃ parent, tree.parentId? id = some parent ∧ tree.Below top parent

namespace Below

variable {tree : Tree}

theorem trans {top middle id : NodeId} (upper : tree.Below top middle)
    (lower : tree.Below middle id) : tree.Below top id := by
  induction lower with
  | top => exact upper
  | child link _ ih => exact .child link ih

theorem cases_top {top id : NodeId} (below : tree.Below top id) :
    id = top ∨ tree.StrictlyBelow top id := by
  cases below with
  | top => exact .inl rfl
  | child link upper => exact .inr ⟨_, link, upper⟩

/-- What lies below a node and is not that node lies below one of its children. -/
theorem exists_child {top id : NodeId} (below : tree.StrictlyBelow top id) :
    ∃ child, tree.parentId? child = some top ∧ tree.Below child id := by
  rcases below with ⟨parent, link, upper⟩
  induction upper generalizing id with
  | top => exact ⟨id, link, .top⟩
  | child above _ ih =>
      obtain ⟨child, first, rest⟩ := ih above
      exact ⟨child, first, .child link rest⟩

end Below

theorem StrictlyBelow.below {tree : Tree} {top id : NodeId} (strict : tree.StrictlyBelow top id) :
    tree.Below top id := by
  rcases strict with ⟨parent, link, upper⟩
  exact .child link upper

namespace LinkedBy

variable {birth : NodeId → Int} {tree : Tree}

theorem birth_le_of_below (linked : tree.LinkedBy birth) {top id : NodeId}
    (below : tree.Below top id) : birth top ≤ birth id := by
  induction below with
  | top => exact Int.le_refl _
  | child link _ ih => exact Int.le_trans ih (Int.le_of_lt (linked.parentOlder link))

theorem birth_lt_of_strictlyBelow (linked : tree.LinkedBy birth) {top id : NodeId}
    (strict : tree.StrictlyBelow top id) : birth top < birth id := by
  rcases strict with ⟨parent, link, upper⟩
  exact Int.lt_of_le_of_lt (linked.birth_le_of_below upper) (linked.parentOlder link)

theorem not_strictlyBelow_self (linked : tree.LinkedBy birth) (id : NodeId) :
    ¬tree.StrictlyBelow id id :=
  fun strict => Int.lt_irrefl _ (linked.birth_lt_of_strictlyBelow strict)

theorem contains_of_below (linked : tree.LinkedBy birth) {top id : NodeId}
    (below : tree.Below top id) (known : tree.contains id = true) : tree.contains top = true := by
  induction below with
  | top => exact known
  | child link _ ih => exact ih (linked.contains_parent link)

theorem contains_of_strictlyBelow {top id : NodeId} (strict : tree.StrictlyBelow top id) :
    tree.contains id = true := by
  rcases strict with ⟨parent, link, -⟩
  exact contains_of_parentId? link

theorem contains_below {top id : NodeId} (known : tree.contains top = true)
    (below : tree.Below top id) : tree.contains id = true := by
  rcases below.cases_top with rfl | strict
  · exact known
  · exact contains_of_strictlyBelow strict

/-- Two nodes above one node lie above each other. -/
theorem below_total {left right id : NodeId} (first : tree.Below left id)
    (second : tree.Below right id) : tree.Below left right ∨ tree.Below right left := by
  induction first with
  | top => exact .inr second
  | @child id parent link upper ih =>
      cases second with
      | top => exact .inl (.child link upper)
      | child other above =>
          rw [link] at other
          cases other
          exact ih above

/-- Nothing lies below two siblings at once. -/
theorem siblings_apart (linked : tree.LinkedBy birth) {parent left right id : NodeId}
    (leftLink : tree.parentId? left = some parent)
    (rightLink : tree.parentId? right = some parent)
    (first : tree.Below left id) (second : tree.Below right id) : left = right := by
  have apart : ∀ {upper lower : NodeId}, tree.parentId? upper = some parent →
      tree.parentId? lower = some parent → tree.Below upper lower → upper = lower := by
    intro upper lower upperLink lowerLink below
    rcases below.cases_top with same | strict
    · exact same.symm
    · rcases strict with ⟨above, link, under⟩
      rw [lowerLink] at link
      cases link
      have order := linked.birth_le_of_below under
      have older := linked.parentOlder upperLink
      omega
  rcases below_total first second with below | below
  · exact apart leftLink rightLink below
  · exact (apart rightLink leftLink below).symm

/-- Every node lies below the root. -/
theorem below_root (linked : tree.LinkedBy birth) {root id : NodeId}
    (rooted : tree.root = some root) (known : tree.contains id = true) : tree.Below root id := by
  refine linked.inductionUp (motive := tree.Below root) ?_ known
  intro id known above
  cases link : tree.parentId? id with
  | none =>
      have only := linked.rootOnly known link
      rw [rooted] at only
      cases only
      exact .top
  | some parent => exact .child link (above parent link)

end LinkedBy

/-! ## Walks -/

/-- The ids that a walk from a stack of ids meets, each before its children. -/
inductive Walk (tree : Tree) : List NodeId → List NodeId → Prop where
  | done : Walk tree [] []
  | visit {id : NodeId} {stack visited : List NodeId} :
      Walk tree (tree.childrenOf id ++ stack) visited → Walk tree (id :: stack) (id :: visited)

namespace Walk

variable {tree : Tree}

theorem append {front back frontVisited backVisited : List NodeId}
    (first : tree.Walk front frontVisited) (second : tree.Walk back backVisited) :
    tree.Walk (front ++ back) (frontVisited ++ backVisited) := by
  induction first with
  | done => exact second
  | visit _ ih =>
      rw [List.append_assoc] at ih
      exact .visit ih

theorem split {front back visited : List NodeId} (walk : tree.Walk (front ++ back) visited) :
    ∃ frontVisited backVisited, visited = frontVisited ++ backVisited ∧
      tree.Walk front frontVisited ∧ tree.Walk back backVisited := by
  generalize stacked : front ++ back = stack at walk
  induction walk generalizing front with
  | done =>
      obtain ⟨rfl, rfl⟩ := List.append_eq_nil_iff.mp stacked
      exact ⟨[], [], rfl, .done, .done⟩
  | @visit id stack visited rest ih =>
      cases front with
      | nil =>
          have whole : back = id :: stack := by simpa using stacked
          rw [whole]
          exact ⟨[], id :: visited, rfl, .done, .visit rest⟩
      | cons first front =>
          obtain ⟨rfl, rfl⟩ := List.cons.inj stacked
          obtain ⟨inner, outer, parts, innerWalk, outerWalk⟩ :=
            @ih (tree.childrenOf first ++ front) (List.append_assoc ..)
          exact ⟨first :: inner, outer, by rw [parts]; rfl, .visit innerWalk, outerWalk⟩

/-- A walk meets every id that it starts from. -/
theorem mem_of_mem_stack {stack visited : List NodeId} (walk : tree.Walk stack visited)
    {id : NodeId} (member : id ∈ stack) : id ∈ visited := by
  induction walk with
  | done => cases member
  | visit _ ih =>
      rcases List.mem_cons.mp member with rfl | later
      · exact List.mem_cons_self
      · exact List.mem_cons_of_mem _ (ih (List.mem_append_right _ later))

/-- A walk that meets a node meets its children. -/
theorem mem_of_mem_childrenOf {stack visited : List NodeId} (walk : tree.Walk stack visited)
    {id child : NodeId} (met : id ∈ visited) (member : child ∈ tree.childrenOf id) :
    child ∈ visited := by
  induction walk with
  | done => cases met
  | visit rest ih =>
      rcases List.mem_cons.mp met with rfl | later
      · exact List.mem_cons_of_mem _
          (rest.mem_of_mem_stack (List.mem_append_left _ member))
      · exact List.mem_cons_of_mem _ (ih later)

/-- The executable walk is the walk, as long as its bound allows for it. -/
theorem collect_eq {stack visited : List NodeId} (walk : tree.Walk stack visited) {bound : Nat}
    (enough : visited.length ≤ bound) : tree.collect bound stack = visited := by
  induction walk generalizing bound with
  | done => rw [collect]
  | visit _ ih =>
      cases bound with
      | zero => cases enough
      | succ bound =>
          rw [collect, ih (Nat.le_of_succ_le_succ enough)]

/-- A walk depends only on the children of the nodes that it meets. -/
theorem congr {other : Tree} {stack visited : List NodeId} (walk : tree.Walk stack visited)
    (same : ∀ id, id ∈ visited → other.childrenOf id = tree.childrenOf id) :
    other.Walk stack visited := by
  induction walk with
  | done => exact .done
  | visit _ ih =>
      refine .visit ?_
      rw [same _ List.mem_cons_self]
      exact ih fun id met => same id (List.mem_cons_of_mem _ met)

end Walk

namespace LinkedBy

variable {birth : NodeId → Int} {tree : Tree}

/-- A walk meets exactly what lies below its start. -/
theorem mem_walk_iff (linked : tree.LinkedBy birth) {stack visited : List NodeId}
    (walk : tree.Walk stack visited) {id : NodeId} :
    id ∈ visited ↔ ∃ top, top ∈ stack ∧ tree.Below top id := by
  constructor
  · intro met
    induction walk with
    | done => cases met
    | @visit first stack visited _ ih =>
        rcases List.mem_cons.mp met with rfl | later
        · exact ⟨id, List.mem_cons_self, .top⟩
        · obtain ⟨top, member, below⟩ := ih later
          rcases List.mem_append.mp member with child | waiting
          · exact ⟨first, List.mem_cons_self,
              .trans (.child (linked.childOf.mp child) .top) below⟩
          · exact ⟨top, List.mem_cons_of_mem _ waiting, below⟩
  · rintro ⟨top, member, below⟩
    induction below with
    | top => exact walk.mem_of_mem_stack member
    | child link _ ih => exact walk.mem_of_mem_childrenOf ih (linked.childOf.mpr link)

theorem exists_walk (linked : tree.LinkedBy birth) (id : NodeId) :
    ∃ visited, tree.Walk [id] visited := by
  refine linked.inductionDown (motive := fun id => ∃ visited, tree.Walk [id] visited) ?_ id
  intro id walks
  have children : ∀ stack : List NodeId, (∀ child, child ∈ stack → child ∈ tree.childrenOf id) →
      ∃ visited, tree.Walk stack visited := by
    intro stack within
    induction stack with
    | nil => exact ⟨[], .done⟩
    | cons child rest ih =>
        obtain ⟨front, frontWalk⟩ := walks child (within child List.mem_cons_self)
        obtain ⟨back, backWalk⟩ := ih fun other member =>
          within other (List.mem_cons_of_mem _ member)
        exact ⟨front ++ back, frontWalk.append backWalk⟩
  obtain ⟨visited, walk⟩ := children (tree.childrenOf id) fun _ member => member
  exact ⟨id :: visited, .visit (by rwa [List.append_nil])⟩

/-- No id of the list lies below another one. -/
def Apart (tree : Tree) (stack : List NodeId) : Prop :=
  stack.Pairwise fun left right => ¬tree.Below left right ∧ ¬tree.Below right left

theorem apart_children (linked : tree.LinkedBy birth) {id : NodeId} {stack : List NodeId}
    (apart : Apart tree (id :: stack)) : Apart tree (tree.childrenOf id ++ stack) := by
  obtain ⟨fromFirst, rest⟩ := List.pairwise_cons.mp apart
  have outside : ∀ child, child ∈ tree.childrenOf id → ∀ other, other ∈ stack →
      ¬tree.Below child other ∧ ¬tree.Below other child := by
    intro child member other waiting
    have link := linked.childOf.mp member
    have notBelow := fromFirst other waiting
    constructor
    · intro below
      exact notBelow.1 (.trans (.child link .top) below)
    · intro below
      rcases below.cases_top with same | ⟨parent, above, under⟩
      · exact notBelow.1 (same ▸ .child link .top)
      · rw [link] at above
        cases above
        exact notBelow.2 under
  have siblings : Apart tree (tree.childrenOf id) := by
    refine List.Pairwise.imp_of_mem ?_ (linked.childrenDistinct id)
    intro left right leftMember rightMember different
    have leftLink := linked.childOf.mp leftMember
    have rightLink := linked.childOf.mp rightMember
    exact ⟨fun below => different (linked.siblings_apart leftLink rightLink below .top),
      fun below => different (linked.siblings_apart leftLink rightLink .top below)⟩
  exact List.pairwise_append.mpr ⟨siblings, rest, outside⟩

/-- A walk from ids of which none lies below another meets no node twice. -/
theorem nodup_walk (linked : tree.LinkedBy birth) {stack visited : List NodeId}
    (walk : tree.Walk stack visited) (apart : Apart tree stack) : visited.Nodup := by
  induction walk with
  | done => exact .nil
  | @visit first stack visited rest ih =>
      refine List.nodup_cons.mpr ⟨?_, ih (linked.apart_children apart)⟩
      intro again
      obtain ⟨top, member, below⟩ := (linked.mem_walk_iff rest).mp again
      rcases List.mem_append.mp member with child | waiting
      · exact linked.not_strictlyBelow_self top
          ⟨first, linked.childOf.mp child, below⟩
      · exact ((List.pairwise_cons.mp apart).1 top waiting).2 below

/-- A walk that meets no unknown node is no longer than the tree is large. -/
theorem length_walk_le (linked : tree.LinkedBy birth) {id : NodeId} {visited : List NodeId}
    (walk : tree.Walk [id] visited) (known : tree.contains id = true) :
    visited.length ≤ tree.size := by
  have distinct := linked.nodup_walk walk (List.pairwise_singleton _ _)
  have within : visited ⊆ tree.nodes.map (·.id) := by
    intro other met
    obtain ⟨top, member, below⟩ := (linked.mem_walk_iff walk).mp met
    cases List.mem_singleton.mp member
    exact contains_iff_mem.mp (contains_below known below)
  have bounded := (distinct.subperm within).length_le
  rwa [List.length_map] at bounded

/-- The subtree of a node is the walk from it. -/
theorem walk_subtree (linked : tree.LinkedBy birth) (id : NodeId) :
    tree.Walk [id] (tree.subtree id) := by
  cases found : tree.get? id with
  | none =>
      have childless := childrenOf_eq_nil found
      rw [subtree, descendants, childless, collect]
      refine .visit ?_
      rw [childless]
      exact .done
  | some node =>
      obtain ⟨visited, walk⟩ := linked.exists_walk id
      have bounded := linked.length_walk_le walk (contains_of_get? found)
      cases walk with
      | visit rest =>
          have whole : tree.childrenOf id ++ [] = tree.childrenOf id := List.append_nil _
          rw [subtree, descendants, ← whole,
            rest.collect_eq (Nat.le_of_succ_le bounded)]
          exact .visit rest

/-- The subtree of a node depends only on the children of the nodes in it. -/
theorem subtree_congr (linked : tree.LinkedBy birth) {other : Tree} {top : NodeId}
    (known : tree.contains top = true) (larger : tree.size ≤ other.size)
    (same : ∀ id, id ∈ tree.subtree top → other.childrenOf id = tree.childrenOf id) :
    other.subtree top = tree.subtree top := by
  have walk := linked.walk_subtree top
  have bounded := Nat.le_trans (linked.length_walk_le walk known) larger
  have again := walk.congr same
  rw [subtree, descendants] at again bounded ⊢
  cases again with
  | visit rest =>
      rw [List.append_nil] at rest
      rw [rest.collect_eq (Nat.le_of_succ_le bounded), subtree, descendants]

theorem mem_subtree_iff (linked : tree.LinkedBy birth) {top id : NodeId} :
    id ∈ tree.subtree top ↔ tree.Below top id := by
  rw [linked.mem_walk_iff (linked.walk_subtree top)]
  simp only [List.mem_singleton, exists_eq_left]

/-- What lies below a child depends on the children of the parent in no way. -/
theorem subtree_of_child (linked : tree.LinkedBy birth) {other : Tree} {parent child : NodeId}
    (link : tree.parentId? child = some parent) (larger : tree.size ≤ other.size)
    (same : ∀ id, tree.contains id = true → id ≠ parent →
      other.childrenOf id = tree.childrenOf id) :
    other.subtree child = tree.subtree child := by
  have known := contains_of_parentId? link
  apply linked.subtree_congr known larger
  intro id met
  have below := linked.mem_subtree_iff.mp met
  apply same id (contains_below known below)
  intro around
  subst around
  have older := linked.parentOlder link
  have order := linked.birth_le_of_below below
  omega

theorem nodup_subtree (linked : tree.LinkedBy birth) (id : NodeId) : (tree.subtree id).Nodup :=
  linked.nodup_walk (linked.walk_subtree id) (List.pairwise_singleton _ _)

/-- The walk from the root meets exactly the nodes of the tree. -/
theorem mem_preorder_iff (linked : tree.LinkedBy birth) {id : NodeId} :
    id ∈ tree.preorder ↔ tree.contains id = true := by
  cases rooted : tree.root with
  | none =>
      rw [preorder, rooted, contains_iff_mem, linked.nodes_eq_nil rooted]
      simp only [List.map_nil]
  | some root =>
      rw [preorder, rooted]
      change id ∈ tree.subtree root ↔ _
      rw [linked.mem_subtree_iff]
      exact ⟨contains_below (linked.rootFound rooted).1, linked.below_root rooted⟩

end LinkedBy

end WidgetStyle.Tree
