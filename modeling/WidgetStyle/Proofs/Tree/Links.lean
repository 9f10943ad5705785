import Mathlib.Data.List.Nodup
import WidgetStyle.Tree.Mutation

/-!
# Links of a tree

Parents and children of a tree as two functions on ids, and the conditions under
which they describe one tree: each child has one parent, which lists it once and
is older than it, and the root is the one node without a parent.  That a parent is
older than its child, whatever tells the age, rules out cycles and gives the two
inductions, up to the root and down to the leaves.  Ids are handed out in ascending
order, but nothing here asks for more than that no node has an id yet to be handed out.
-/

namespace WidgetStyle.Tree

/-! ## Lookup -/

@[grind →] theorem mem_of_get? {sharing : Sharing} {tree : Tree sharing} {id : NodeId}
    {node : Node} (found : tree.get? id = some node) : node ∈ tree.nodes :=
  List.mem_of_find?_eq_some found

@[grind →] theorem id_of_get? {sharing : Sharing} {tree : Tree sharing} {id : NodeId}
    {node : Node} (found : tree.get? id = some node) : node.id = id := by
  have equal := List.find?_some found
  simpa using equal

theorem contains_iff {tree : Tree} {id : NodeId} :
    tree.contains id = true ↔ ∃ node, tree.get? id = some node := by
  rw [contains, Option.isSome_iff_exists]

@[simp] theorem contains_of_get? {tree : Tree} {id : NodeId} {node : Node}
    (found : tree.get? id = some node) : tree.contains id = true :=
  contains_iff.mpr ⟨node, found⟩

/-- An id belongs to a node exactly when it is among the ids of all nodes. -/
theorem contains_iff_mem {tree : Tree} {id : NodeId} :
    tree.contains id = true ↔ id ∈ tree.nodes.map (·.id) := by
  rw [contains, get?, List.find?_isSome, List.mem_map]
  simp only [decide_eq_true_eq]

theorem get?_of_mem {tree : Tree} (distinct : (tree.nodes.map (·.id)).Nodup) {node : Node}
    (member : node ∈ tree.nodes) : tree.get? node.id = some node := by
  obtain ⟨found, lookup⟩ := contains_iff.mp
    (contains_iff_mem.mpr (List.mem_map_of_mem (f := (·.id)) member))
  rw [lookup]
  exact congrArg some
    (List.inj_on_of_nodup_map distinct (mem_of_get? lookup) member (id_of_get? lookup))

/-! ## Links as functions of ids -/

/-- The id of the parent of a node, none for an unknown node. -/
def parentId? (tree : Tree) (id : NodeId) : Option NodeId :=
  (tree.get? id).bind (·.parent)

@[simp] theorem parentId?_of_get? {tree : Tree} {id : NodeId} {node : Node}
    (found : tree.get? id = some node) : tree.parentId? id = node.parent := by
  rw [parentId?, found, Option.bind_some]

theorem contains_of_parentId? {tree : Tree} {id parent : NodeId}
    (above : tree.parentId? id = some parent) : tree.contains id = true := by
  obtain ⟨node, found, -⟩ := Option.bind_eq_some_iff.mp above
  exact contains_of_get? found

@[simp] theorem childrenOf_of_get? {tree : Tree} {id : NodeId} {node : Node}
    (found : tree.get? id = some node) : tree.childrenOf id = node.children := by
  rw [childrenOf, found]

@[simp] theorem childrenOf_eq_nil {tree : Tree} {id : NodeId} (unknown : tree.get? id = none) :
    tree.childrenOf id = [] := by
  rw [childrenOf, unknown]

theorem contains_of_mem_childrenOf {tree : Tree} {id child : NodeId}
    (member : child ∈ tree.childrenOf id) : tree.contains id = true := by
  cases found : tree.get? id with
  | none => rw [childrenOf_eq_nil found] at member; cases member
  | some node => exact contains_of_get? found

/-- The links of a tree describe one tree of nodes, in which parents were born before their
children. -/
structure LinkedBy (birth : NodeId → Int) (tree : Tree) : Prop where
  distinct : (tree.nodes.map (·.id)).Nodup
  rootFound : ∀ {root}, tree.root = some root →
    tree.contains root = true ∧ tree.parentId? root = none
  rootOnly : ∀ {id}, tree.contains id = true → tree.parentId? id = none → tree.root = some id
  childOf : ∀ {child parent},
    child ∈ tree.childrenOf parent ↔ tree.parentId? child = some parent
  parentOlder : ∀ {child parent},
    tree.parentId? child = some parent → birth parent < birth child
  childrenDistinct : ∀ id, (tree.childrenOf id).Nodup

/-- Ages of the nodes that tell parents from their children, if there are any. -/
noncomputable def age (tree : Tree) : NodeId → Int :=
  Classical.epsilon fun birth => tree.LinkedBy birth

theorem LinkedBy.aged {birth : NodeId → Int} {tree : Tree} (linked : tree.LinkedBy birth) :
    tree.LinkedBy tree.age := by
  have aged : ∃ birth, tree.LinkedBy birth := ⟨birth, linked⟩
  exact Classical.epsilon_spec aged

/-- The links of a tree describe one tree of nodes, all of whose ids have been handed out. -/
structure Linked (tree : Tree) : Prop extends tree.LinkedBy tree.age where
  beforeNext : ∀ {id}, tree.contains id = true → id.value < tree.nextId.value

namespace LinkedBy

variable {birth : NodeId → Int} {tree : Tree}

theorem contains_parent (linked : tree.LinkedBy birth) {child parent : NodeId}
    (above : tree.parentId? child = some parent) : tree.contains parent = true :=
  contains_of_mem_childrenOf (linked.childOf.mpr above)

theorem ne_parent (linked : tree.LinkedBy birth) {child parent : NodeId}
    (link : tree.parentId? child = some parent) : child ≠ parent := by
  intro same
  have older := linked.parentOlder link
  rw [same] at older
  exact Int.lt_irrefl _ older

/-- A node is listed in one place only. -/
theorem same_place (linked : tree.LinkedBy birth) {parent upper id : NodeId} {place other : Nat}
    (listed : (tree.childrenOf parent)[place]? = some id)
    (again : (tree.childrenOf upper)[other]? = some id) : upper = parent ∧ other = place := by
  have link := linked.childOf.mp (List.mem_of_getElem? listed)
  rw [linked.childOf.mp (List.mem_of_getElem? again)] at link
  cases link
  refine ⟨rfl, ?_⟩
  exact (List.getElem?_inj (List.getElem?_eq_some_iff.mp again).1
    (linked.childrenDistinct parent)).mp (again.trans listed.symm)

theorem contains_child (linked : tree.LinkedBy birth) {child parent : NodeId}
    (member : child ∈ tree.childrenOf parent) : tree.contains child = true :=
  contains_of_parentId? (linked.childOf.mp member)

end LinkedBy

/-! ## Induction along the links -/

/-- The number of nodes older than an id. -/
def elders (birth : NodeId → Int) (tree : Tree) (id : NodeId) : Nat :=
  tree.nodes.countP fun node => decide (birth node.id < birth id)

/-- The number of nodes younger than an id. -/
def juniors (birth : NodeId → Int) (tree : Tree) (id : NodeId) : Nat :=
  tree.nodes.countP fun node => decide (birth id < birth node.id)

/-- A count grows strictly when a further member counts. -/
theorem countP_lt_countP {Member : Type} {narrow wide : Member → Bool} {members : List Member}
    {extra : Member} (within : ∀ member, narrow member = true → wide member = true)
    (present : extra ∈ members) (new : narrow extra = false) (counted : wide extra = true) :
    members.countP narrow < members.countP wide := by
  induction members with
  | nil => cases present
  | cons first rest ih =>
      rw [List.countP_cons, List.countP_cons]
      have grows := List.countP_mono_left (l := rest) fun member _ => within member
      rcases List.mem_cons.mp present with rfl | later
      · simp only [new, counted, Bool.false_eq_true, if_false, if_true]
        omega
      · have step := ih later
        by_cases counts : narrow first = true
        · rw [if_pos counts, if_pos (within first counts)]
          omega
        · rw [if_neg counts]
          omega

theorem elders_lt {birth : NodeId → Int} {tree : Tree} {older younger : NodeId}
    (known : tree.contains older = true) (order : birth older < birth younger) :
    tree.elders birth older < tree.elders birth younger := by
  obtain ⟨node, found⟩ := contains_iff.mp known
  have same := id_of_get? found
  refine countP_lt_countP ?_ (mem_of_get? found) ?_ ?_
  · intro member before
    simp only [decide_eq_true_eq] at before ⊢
    omega
  · simp [same]
  · simpa [same] using order

theorem juniors_lt {birth : NodeId → Int} {tree : Tree} {older younger : NodeId}
    (known : tree.contains younger = true) (order : birth older < birth younger) :
    tree.juniors birth younger < tree.juniors birth older := by
  obtain ⟨node, found⟩ := contains_iff.mp known
  have same := id_of_get? found
  refine countP_lt_countP ?_ (mem_of_get? found) ?_ ?_
  · intro member after
    simp only [decide_eq_true_eq] at after ⊢
    omega
  · simp [same]
  · simpa [same] using order

theorem elders_le_size (birth : NodeId → Int) (tree : Tree) (id : NodeId) :
    tree.elders birth id ≤ tree.size :=
  List.countP_le_length

/-- A node is not older than itself, so some node always remains uncounted. -/
theorem elders_lt_size (birth : NodeId → Int) {tree : Tree} {id : NodeId}
    (known : tree.contains id = true) : tree.elders birth id < tree.size := by
  obtain ⟨node, found⟩ := contains_iff.mp known
  have same := id_of_get? found
  have grows : tree.elders birth id < tree.nodes.countP fun _ => true :=
    countP_lt_countP (fun _ _ => rfl) (mem_of_get? found) (by simp [same]) rfl
  rwa [List.countP_true] at grows

namespace LinkedBy

variable {birth : NodeId → Int} {tree : Tree}

/-- What holds of a node whenever it holds of its parent holds of every node. -/
theorem inductionUp (linked : tree.LinkedBy birth) {motive : NodeId → Prop}
    (step : ∀ id, tree.contains id = true →
      (∀ parent, tree.parentId? id = some parent → motive parent) → motive id)
    {id : NodeId} (known : tree.contains id = true) : motive id := by
  induction count : tree.elders birth id using Nat.strongRecOn generalizing id with
  | ind count ih =>
      apply step id known
      intro parent above
      have parentKnown := linked.contains_parent above
      exact ih _ (count ▸ elders_lt parentKnown (linked.parentOlder above)) parentKnown rfl

/-- What holds of a node whenever it holds of its children holds of every node. -/
theorem inductionDown (linked : tree.LinkedBy birth) {motive : NodeId → Prop}
    (step : ∀ id, (∀ child, child ∈ tree.childrenOf id → motive child) → motive id)
    (id : NodeId) : motive id := by
  induction count : tree.juniors birth id using Nat.strongRecOn generalizing id with
  | ind count ih =>
      apply step id
      intro child member
      have childKnown := linked.contains_child member
      exact ih _ (count ▸ juniors_lt childKnown (linked.parentOlder (linked.childOf.mp member)))
        child rfl

/-- Without a root there are no nodes. -/
theorem nodes_eq_nil (linked : tree.LinkedBy birth) (rootless : tree.root = none) :
    tree.nodes = [] := by
  have noNode : ∀ id, tree.contains id = true → False := by
    intro id known
    refine linked.inductionUp (motive := fun _ => False) ?_ known
    intro id known above
    cases link : tree.parentId? id with
    | none =>
        have root := linked.rootOnly known link
        rw [rootless] at root
        cases root
    | some parent => exact above parent link
  apply List.eq_nil_iff_forall_not_mem.mpr
  intro node member
  exact noNode node.id (contains_iff_mem.mpr (List.mem_map_of_mem (f := (·.id)) member))

end LinkedBy

end WidgetStyle.Tree
