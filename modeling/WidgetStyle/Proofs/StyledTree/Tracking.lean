import WidgetStyle.Proofs.Cascade.Overtaking
import WidgetStyle.Proofs.StyledTree.Reconciliation

/-!
# A rebuild is tracked

While children are aligned with views, neither they nor anything below the ones that
are still free has been reordered, so that every change of classes marks all that
followed the node before the rebuild.  Each operation of a rebuild is tracked then,
and what the whole rebuild leaves clean can have another style from scratch only
where it is overtaken.
-/

namespace WidgetStyle

namespace Tree

variable {start before after : Tree} {top id parent : NodeId}

theorem Unswapped.congr (unswapped : Unswapped start before parent)
    (same : after.childrenOf parent = before.childrenOf parent) :
    Unswapped start after parent := by
  rw [Unswapped, same]
  exact unswapped

end Tree

namespace StyledTree

variable {styled before after built : StyledTree} {start : Tree} {parent id : NodeId}
  {old : FormerChildren} {taken takenLast order ids : List NodeId} {views : List View}

/-- Neither the children of the parent nor those of any node below a free child were
reordered. -/
structure Unreordered (start : Tree) (styled : StyledTree) (parent : NodeId)
    (old : FormerChildren) (taken : List NodeId) : Prop where
  hub : Tree.Unswapped start styled.tree parent
  free : ∀ {child id}, child ∈ old.free taken → styled.tree.Below child id →
    Tree.Unswapped start styled.tree id

namespace Unreordered

/-- When no children below the parent were reordered, an alignment can begin. -/
theorem of_below (wellFormed : styled.tree.WellFormed)
    (known : styled.tree.contains parent = true)
    (below : ∀ {id}, styled.tree.Below parent id → Tree.Unswapped start styled.tree id) :
    Unreordered start styled parent (styled.formerChildren parent) [] where
  hub := below .top
  free := by
    intro child id free under
    have link := (Aligning.start wellFormed known).parentId?_free free
    exact below (.trans (.child link .top) under)

theorem hub_later (startLinked : start.Linked)
    (older : start.nextId.value ≤ before.tree.nextId.value)
    (unreordered : Unreordered start before parent old taken)
    (aligned : Aligned before after parent old taken takenLast order ids views) :
    Tree.Unswapped start after.tree parent := by
  have former := List.pairwise_filter.mp (List.Pairwise.sublist aligned.sequence unreordered.hub)
  refine List.Pairwise.imp_of_mem ?_ former
  intro earlier later member otherMember kept follows
  have linked := aligned.state.wellFormed.toLinked
  obtain ⟨upper, link, otherLink⟩ := startLinked.parentId?_of_following follows
  have known : ∀ child, child ∈ after.tree.childrenOf parent → start.contains child = true →
      before.tree.contains child = true := by
    intro child listed present
    exact (aligned.confined.former (linked.contains_child listed)
      (Int.lt_of_lt_of_le (startLinked.beforeNext present) older)).1
  exact kept (known earlier member (Tree.contains_of_parentId? link))
    (known later otherMember (Tree.contains_of_parentId? otherLink)) follows

/-- What was not reordered before views were aligned is not reordered afterwards. -/
theorem later (startLinked : start.Linked)
    (older : start.nextId.value ≤ before.tree.nextId.value)
    (unreordered : Unreordered start before parent old taken)
    (state : Aligning before parent old taken order)
    (aligned : Aligned before after parent old taken takenLast order ids views) :
    Unreordered start after parent old takenLast where
  hub := unreordered.hub_later startLinked older aligned
  free := by
    intro child id free below
    have untouched := aligned.untouched_free state free below
    exact (unreordered.free (aligned.free_before free) untouched.1).congr untouched.2.children

end Unreordered

/-! ## Operations -/

/-- The tree is well-formed, and what led to it is tracked. -/
def Tracked (start : Tree) (styled : StyledTree) : Prop :=
  styled.tree.WellFormed ∧ Tree.Tracks start styled.tree

theorem keptByAppend_tracked (startLinked : start.Linked) : KeptByAppend (Tracked start) := by
  intro styled grown parent identity id tracked added
  obtain ⟨tree, done, rfl⟩ := appendChild_eq_ok added
  exact ⟨tracked.1.appendChild done, tracked.2.append startLinked tracked.1 done⟩

theorem tracked_removeSubtree (startLinked : start.Linked) (tracked : Tracked start styled)
    (id : NodeId) : Tracked start (styled.removeSubtree id).2 := by
  refine ⟨tracked.1.removeSubtree id, ?_⟩
  cases link : styled.tree.parentId? id with
  | some parent => exact tracked.2.remove startLinked tracked.1 link
  | none =>
      change Tree.Tracks start (styled.tree.removeSubtree id).2
      cases found : styled.tree.get? id with
      | none =>
          rw [Tree.removeSubtree_unknown found]
          exact tracked.2
      | some node =>
          -- Without its root a tree has no nodes, clean or not.
          have known := Tree.contains_of_get? found
          have rooted := tracked.1.rootOnly known link
          have empty : ∀ other, ¬(styled.tree.removeSubtree id).2.IsClean other := by
            intro other cleaned
            have member := Tree.contains_iff_mem.mp cleaned.contains
            rw [tracked.1.nodes_removeSubtree_root rooted] at member
            cases member
          constructor
          · rw [(tracked.1.removed known).nextId]
            exact tracked.2.nextId
          · intro other cleaned
            exact absurd cleaned (empty other)
          · intro other top cleaned
            exact absurd cleaned (empty other)
          · intro other top sibling cleaned
            exact absurd cleaned (empty other)

theorem tracked_permuteChildren (startLinked : start.Linked) (tracked : Tracked start styled)
    {tree : Tree} (done : styled.tree.permuteChildren parent order = .ok tree) :
    Tracked start { styled with tree } :=
  ⟨tracked.1.permuteChildren done, tracked.2.permute startLinked tracked.1 done⟩

theorem tracked_adopt? (startLinked : start.Linked) (tracked : Tracked start styled)
    {identity : Identity} (done : styled.adopt? id identity = some built)
    (unswapped : ∀ parent, styled.tree.parentId? id = some parent →
      Tree.Unswapped start styled.tree parent) : Tracked start built := by
  rcases adopt?_eq_some done with rfl | ⟨tree, replaced, rfl⟩
  · exact tracked
  · exact ⟨(tracked.1.retains_replaceClasses replaced).wellFormed,
      tracked.2.reclass startLinked tracked.1 replaced unswapped⟩

theorem tracked_finishChildren (startLinked : start.Linked) (tracked : Tracked start styled)
    {former : List NodeId}
    (done : styled.finishChildren parent former taken order = .ok built) : Tracked start built :=
  holds_finishChildren (fun tracked => tracked_removeSubtree startLinked tracked _)
    (fun tracked permuted => tracked_permuteChildren startLinked tracked permuted) tracked done

/-! ## Views -/

mutual

theorem tracked_alignView (startLinked : start.Linked) {styled built : StyledTree}
    {parent id : NodeId} {old : FormerChildren} {taken takenLast order : List NodeId}
    {place : Nat} :
    (view : View) → Aligning styled parent old taken order →
      Unreordered start styled parent old taken → Tracked start styled →
      styled.alignView parent old taken place view = .ok (id, takenLast, built) →
      Tracked start built
  | .widget identity children => by
      intro state unreordered tracked done
      have append : KeptByAppend (Tracked start) := keptByAppend_tracked startLinked
      cases obtained_of_alignView done with
      | made _ added => exact holds_appendView append (.widget identity children) tracked added
      | @replaced child _ _ _ _ added =>
          have removed := tracked_removeSubtree startLinked tracked child
          exact holds_appendView append (.widget identity children) removed added
      | @kept _ middle _ chosen adopting inner =>
          have free := mem_free_of_chosen state chosen
          have link := state.parentId?_free free
          have adopted := adopted_adopt? state.wellFormed adopting
          have after := tracked_adopt? startLinked tracked adopting (by
            intro upper above
            rw [link] at above
            cases above
            exact unreordered.hub)
          have known := (adopted.links.contains_eq id).symm.trans
            (Tree.contains_of_parentId? link)
          obtain ⟨_, _, aligned, views, finishing⟩ := exists_of_alignChildren inner
          have steps := tracked_alignViews startLinked children
            (.start adopted.wellFormed known)
            (.of_below adopted.wellFormed known (by
              intro other under
              exact (unreordered.free free (adopted.links.symm.below under)).congr
                (adopted.links.children other).symm))
            after views
          exact tracked_finishChildren startLinked steps finishing

theorem tracked_alignViews (startLinked : start.Linked) {styled built : StyledTree}
    {parent : NodeId} {old : FormerChildren} {taken takenLast order ids : List NodeId}
    {place : Nat} :
    (views : List View) → Aligning styled parent old taken order →
      Unreordered start styled parent old taken → Tracked start styled →
      styled.alignViews parent old taken place views = .ok (ids, takenLast, built) →
      Tracked start built
  | [] => by
      intro _ _ tracked done
      rw [alignViews] at done
      cases done
      exact tracked
  | view :: rest => by
      intro state unreordered tracked done
      obtain ⟨id, takenMiddle, middle, first, aligned⟩ :=
        aligned_alignView place view state
      rw [alignViews, first] at done
      obtain ⟨last, below, same⟩ := exists_of_map_eq_ok done
      cases same
      have step := tracked_alignView startLinked view state unreordered tracked first
      exact tracked_alignViews startLinked rest aligned.state
        (unreordered.later startLinked tracked.2.nextId state aligned) step below

end

/-! ## Whole rebuilds -/

theorem keptByAppend_unclean :
    KeptByAppend fun styled => styled.tree.WellFormed ∧ ∀ id, ¬styled.tree.IsClean id := by
  intro styled grown parent identity new kept added
  obtain ⟨tree, done, rfl⟩ := appendChild_eq_ok added
  refine ⟨kept.1.appendChild done, ?_⟩
  intro id cleaned
  exact kept.2 id ((kept.1.retains_appendChild done).clean cleaned)

/-- A build from scratch leaves no node clean. -/
theorem not_isClean_buildAnew {view : View} {root : NodeId}
    (done : styled.buildAnew view = .ok (root, built)) (id : NodeId) : ¬built.tree.IsClean id := by
  have empty : styled.clearTree.tree.WellFormed := Tree.wellFormed_empty _
  exact (holds_buildAnew keptByAppend_unclean
    ⟨empty.plantRoot _, empty.not_isClean_plantRoot _⟩ done).2 id

theorem tracked_alignChildren (startLinked : start.Linked) (wellFormed : styled.tree.WellFormed)
    (known : styled.tree.contains parent = true) (tracks : Tree.Tracks start styled.tree)
    (below : ∀ {id}, styled.tree.Below parent id → Tree.Unswapped start styled.tree id)
    (done : styled.alignChildren parent views = .ok built) : Tracked start built := by
  obtain ⟨_, _, aligned, inner, finishing⟩ := exists_of_alignChildren done
  exact tracked_finishChildren startLinked
    (tracked_alignViews startLinked views (.start wellFormed known)
      (.of_below wellFormed known below) ⟨wellFormed, tracks⟩ inner) finishing

/-- A rebuild is tracked, unless it is made from scratch. -/
theorem tracks_rebuild (wellFormed : styled.tree.WellFormed) {view : View} {root : NodeId}
    (done : styled.rebuild view = .ok (root, built)) :
    Tree.Tracks styled.tree built.tree ∨ ∀ id, ¬built.tree.IsClean id := by
  rcases rebuild_cases done with anew | ⟨middle, rooted, adopting, aligned⟩
  · exact .inr (not_isClean_buildAnew anew)
  · rcases view with ⟨identity, children⟩
    have linked := wellFormed.toLinked
    have adopted := adopted_adopt? wellFormed adopting
    have parentless := (wellFormed.rootFound rooted).2
    have after := tracked_adopt? linked ⟨wellFormed, .refl _⟩ adopting (by
      intro parent link
      rw [parentless] at link
      cases link)
    have known := (adopted.links.contains_eq root).symm.trans (wellFormed.rootFound rooted).1
    refine .inl (tracked_alignChildren linked adopted.wellFormed known
      after.2 ?_ aligned).2
    intro id _
    exact (wellFormed.unswapped id).congr (adopted.links.children id).symm

/-- What a rebuild leaves clean keeps its style from scratch where it is not
overtaken. -/
theorem freshStyle_eq_of_rebuild (formed : styled.WellFormed) {view : View} {root : NodeId}
    (done : styled.rebuild view = .ok (root, built)) (clean : built.tree.IsClean id)
    (ahead : ¬Tree.Overtaken styled.tree built.tree id) :
    built.freshStyle id = styled.freshStyle id := by
  have alike := alike_rebuild done
  have builtFormed := wellFormed_rebuild formed done
  rw [freshStyle, freshStyle, alike.1, alike.2.1]
  rcases tracks_rebuild formed.tree done with tracks | unclean
  · exact tracks.freshStyle_eq formed.tree builtFormed.tree _ clean ahead
  · exact absurd clean (unclean id)

/-! ## Cached styles -/

/-- What is clean was clean at the start, and it is cached as it was then. -/
def Carried (start styled : StyledTree) : Prop :=
  styled.tree.WellFormed ∧ ∀ {id}, styled.tree.IsClean id →
    start.tree.IsClean id ∧ styled.styles.get? id = start.styles.get? id

theorem Carried.step {start styled : StyledTree} (carried : Carried start styled)
    (wellFormed : after.tree.WellFormed)
    (clean : ∀ {id}, after.tree.IsClean id → styled.tree.IsClean id)
    (styles : ∀ {id}, after.tree.IsClean id → after.styles.get? id = styled.styles.get? id) :
    Carried start after := by
  refine ⟨wellFormed, ?_⟩
  intro id cleaned
  have former := carried.2 (clean cleaned)
  exact ⟨former.1, (styles cleaned).trans former.2⟩

theorem get?_removeSubtree_styles (formed : styled.tree.WellFormed) {top : NodeId}
    (cleaned : (styled.removeSubtree top).2.tree.IsClean id) :
    (styled.removeSubtree top).2.styles.get? id = styled.styles.get? id := by
  cases found : styled.tree.get? top with
  | none =>
      rw [removeSubtree, Tree.removeSubtree_unknown found]
      rfl
  | some node =>
      have known := Tree.contains_of_get? found
      have alive := ((formed.removed known).contains_iff formed.toLinkedBy).mp cleaned.contains
      rw [get?_styles_removeSubtree formed known,
        if_neg fun member => alive.2 (formed.toLinked.mem_subtree_iff.mp member)]

theorem keptByRebuild_carried (start : StyledTree) : KeptByRebuild (Carried start) where
  append := by
    intro styled grown parent identity new carried added
    obtain ⟨tree, done, rfl⟩ := appendChild_eq_ok added
    exact carried.step (carried.1.appendChild done) (carried.1.retains_appendChild done).clean
      fun _ => rfl
  adopt := by
    intro styled adopted id identity carried done
    rcases adopt?_eq_some done with rfl | ⟨tree, replaced, rfl⟩
    · exact carried
    · have retains := carried.1.retains_replaceClasses replaced
      exact carried.step retains.wellFormed retains.clean fun _ => rfl
  remove := by
    intro styled id carried
    have retains := carried.1.retains_removeSubtree id
    exact carried.step retains.wellFormed retains.clean (get?_removeSubtree_styles carried.1)
  permute := by
    intro styled parent order tree carried permuted
    exact carried.step (carried.1.permuteChildren permuted)
      (Tree.Tracks.isClean_of_permuteChildren permuted) fun _ => rfl

/-- What a rebuild leaves clean was clean before and is cached as before. -/
theorem carried_rebuild (formed : styled.tree.WellFormed) {view : View} {root : NodeId}
    (done : styled.rebuild view = .ok (root, built)) : Carried styled built := by
  have empty : styled.clearTree.tree.WellFormed := Tree.wellFormed_empty _
  refine holds_rebuild (keptByRebuild_carried styled) ⟨formed, fun cleaned => ⟨cleaned, rfl⟩⟩
    ⟨empty.plantRoot _, ?_⟩ done
  intro id cleaned
  exact absurd cleaned (empty.not_isClean_plantRoot _ id)

end StyledTree

end WidgetStyle
