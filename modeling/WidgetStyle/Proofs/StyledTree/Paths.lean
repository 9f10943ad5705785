import WidgetStyle.Proofs.StyledTree.Completeness

/-!
# Gathering the paths to dirty nodes

The nodes that have a dirty node below them can be gathered by going up from one dirty node after
the other.  There is no need to go up to the root each time: what is above a node that was met
before was met before as well.  So the way up may end at the first node that is known already, and
the same nodes are gathered.
-/

namespace WidgetStyle

namespace Tree

variable {birth : NodeId → Int} {tree : Tree} {known ids : List NodeId} {id upper : NodeId}

/-- The ids on the way up from a node until one that is known already. -/
def newlyAbove (tree : Tree) (known : List NodeId) (id : NodeId) : List NodeId :=
  ((tree.ancestors id).map (·.id)).takeWhile fun upper => decide (upper ∉ known)

/-- The ids above some nodes, gathered by going up from each of them until a known one. -/
def gatherAbove (tree : Tree) (known : List NodeId) (ids : List NodeId) : List NodeId :=
  ids.foldl (fun known id => known ++ tree.newlyAbove known id) known

/-- With every id also all ids above it are listed. -/
def UpClosed (tree : Tree) (known : List NodeId) : Prop :=
  ∀ id ∈ known, ∀ upper, tree.StrictlyBelow upper id → upper ∈ known

theorem strictlyBelow_iff_of_parent {parent : NodeId} (link : tree.parentId? id = some parent) :
    tree.StrictlyBelow upper id ↔ upper = parent ∨ tree.StrictlyBelow upper parent := by
  constructor
  · intro strict
    rcases strict with ⟨other, found, below⟩
    rw [link, Option.some.injEq] at found
    subst found
    exact below.cases_top.imp_left Eq.symm
  · rintro (rfl | strict)
    · exact ⟨upper, link, .top⟩
    · exact ⟨parent, link, strict.below⟩

theorem newlyAbove_root (parentless : tree.parentId? id = none) :
    tree.newlyAbove known id = [] := by
  rw [newlyAbove, FormedBy.ancestors_root parentless, List.map_nil, List.takeWhile_nil]

theorem FormedBy.newlyAbove_child (formed : tree.FormedBy birth) {parent : NodeId}
    (link : tree.parentId? id = some parent) :
    tree.newlyAbove known id =
      if parent ∈ known then [] else parent :: tree.newlyAbove known parent := by
  rcases contains_iff.mp (formed.contains_parent link) with ⟨node, found⟩
  have named := id_of_get? found
  rw [newlyAbove, formed.ancestors_child link found, List.map_cons, named]
  split
  · rename_i listed
    exact List.takeWhile_cons_of_neg (by simpa using listed)
  · rename_i unlisted
    exact List.takeWhile_cons_of_pos (by simpa using unlisted)

/-- Nothing is missed when the way up ends at a known id. -/
theorem FormedBy.mem_append_newlyAbove_iff (formed : tree.FormedBy birth)
    (closed : tree.UpClosed known) (alive : tree.contains id = true) :
    upper ∈ known ++ tree.newlyAbove known id ↔ upper ∈ known ∨ tree.StrictlyBelow upper id := by
  refine formed.inductionUp (motive := fun id =>
    upper ∈ known ++ tree.newlyAbove known id ↔ upper ∈ known ∨ tree.StrictlyBelow upper id)
      ?_ alive
  intro id _ above
  cases link : tree.parentId? id with
  | none =>
      have nothing : ¬tree.StrictlyBelow upper id := by simp [StrictlyBelow, link]
      simp [newlyAbove_root link, nothing]
  | some parent =>
      rw [formed.newlyAbove_child link, strictlyBelow_iff_of_parent link]
      split
      · rename_i listed
        have within (strict : tree.StrictlyBelow upper parent) : upper ∈ known :=
          closed parent listed upper strict
        rw [List.append_nil]
        constructor
        · exact .inl
        · rintro (old | rfl | strict)
          · exact old
          · exact listed
          · exact within strict
      · have higher := above parent link
        rw [List.mem_append] at higher ⊢
        rw [List.mem_cons]
        tauto

theorem FormedBy.upClosed_append (formed : tree.FormedBy birth) (closed : tree.UpClosed known)
    (alive : tree.contains id = true) : tree.UpClosed (known ++ tree.newlyAbove known id) := by
  intro lower listed upper strict
  rw [formed.mem_append_newlyAbove_iff closed alive] at listed ⊢
  rcases listed with old | below
  · exact .inl (closed lower old upper strict)
  · right
    rcases below with ⟨parent, link, below⟩
    exact ⟨parent, link, strict.below.trans below⟩

theorem FormedBy.mem_gatherAbove_iff (formed : tree.FormedBy birth) (closed : tree.UpClosed known)
    (alive : ∀ id ∈ ids, tree.contains id = true) :
    upper ∈ tree.gatherAbove known ids ↔
      upper ∈ known ∨ ∃ id ∈ ids, tree.StrictlyBelow upper id := by
  induction ids generalizing known with
  | nil => simp [gatherAbove]
  | cons id rest ih =>
      have own := alive id List.mem_cons_self
      have later := ih (formed.upClosed_append closed own) fun other member =>
        alive other (List.mem_cons_of_mem _ member)
      rw [gatherAbove, List.foldl_cons, ← gatherAbove, later,
        formed.mem_append_newlyAbove_iff closed own, List.exists_mem_cons_iff, or_assoc]

end Tree

namespace StyledTree

variable {birth : NodeId → Int} {styled : StyledTree} {id : NodeId}

theorem mem_gatherAbove_dirtyIds_iff (formed : styled.tree.FormedBy birth) :
    id ∈ styled.tree.gatherAbove [] styled.tree.dirtyIds ↔ id ∈ styled.pathsToDirty := by
  have linked := formed.toLinkedBy
  rw [formed.mem_gatherAbove_iff, mem_pathsToDirty_iff formed]
  · rw [List.mem_nil_iff, false_or]
    constructor
    · rintro ⟨other, dirty, strict⟩
      exact ⟨other, strict, ((mem_dirtyIds_iff linked).mp dirty).2⟩
    · rintro ⟨other, strict, dirty⟩
      have known := Tree.LinkedBy.contains_of_strictlyBelow strict
      exact ⟨other, (mem_dirtyIds_iff linked).mpr ⟨known, dirty⟩, strict⟩
  · intro id listed
    cases listed
  · exact fun id dirty => ((mem_dirtyIds_iff linked).mp dirty).1

/-- A pass asks of the paths only which nodes are on them. -/
theorem passOver_congr {paths others : List NodeId} (same : ∀ id, id ∈ paths ↔ id ∈ others)
    (styled : StyledTree) (bound : Nat) (stack : List NodeId) :
    styled.passOver paths bound stack = styled.passOver others bound stack := by
  have contains (id : NodeId) : paths.contains id = others.contains id := by
    rw [Bool.eq_iff_iff, List.contains_iff_mem, List.contains_iff_mem, same]
  induction bound generalizing styled stack with
  | zero => cases stack <;> rw [passOver, passOver]
  | succ bound ih =>
      cases stack with
      | nil => rw [passOver, passOver]
      | cons id stack =>
          rw [passOver, passOver]
          simp only [contains, ih]

end StyledTree

end WidgetStyle
