import WidgetStyle.Proofs.StyledTree.Runs

/-!
# Completeness of a pass

After a pass every node should have a cached style.  A pass turns back at a node
whose style can be trusted when no node below it is dirty, and takes it that
nothing is left to do there.  Dropping styles without marking nodes breaks this,
and then a pass leaves out exactly what has no cached style below such a node.
-/

namespace WidgetStyle

namespace Tree.FormedBy

variable {birth : NodeId → Int} {tree : Tree}

/-- The ancestors of a node are the nodes that it is strictly below of. -/
theorem mem_ancestors_iff (formed : tree.FormedBy birth) {upper id : NodeId}
    (known : tree.contains id = true) :
    upper ∈ (tree.ancestors id).map (·.id) ↔ tree.StrictlyBelow upper id := by
  rcases contains_iff.mp known with ⟨node, found⟩
  have chained : ∀ other, other ∈ Surroundings.chain tree.parent? tree.size node ↔
      tree.get? other.id = some other ∧ tree.StrictlyBelow other.id id :=
    fun other => formed.mem_chain_parent?_iff found (formed.ends_surroundings found).1
  rw [ancestors, found]
  simp only [climb_eq_chain, List.mem_map]
  constructor
  · rintro ⟨other, member, rfl⟩
    exact ((chained other).mp member).2
  · intro strict
    rcases Below.exists_child strict with ⟨child, link, -⟩
    rcases contains_iff.mp (formed.contains_parent link) with ⟨other, lookup⟩
    refine ⟨other, (chained other).mpr ?_, id_of_get? lookup⟩
    rw [id_of_get? lookup]
    exact ⟨lookup, strict⟩

end Tree.FormedBy

namespace StyledTree

variable {birth : NodeId → Int} {styled after : StyledTree} {count : Nat}

theorem mem_dirtyIds_iff {tree : Tree} (linked : tree.LinkedBy birth) {id : NodeId} :
    id ∈ tree.dirtyIds ↔ tree.contains id = true ∧ ¬tree.IsClean id := by
  rw [Tree.dirtyIds, List.mem_map]
  constructor
  · intro listed
    rcases listed with ⟨node, member, same⟩
    obtain ⟨stored, dirty⟩ := List.mem_filter.mp member
    have found := Tree.get?_of_mem linked.distinct stored
    rw [same] at found
    refine ⟨Tree.contains_of_get? found, ?_⟩
    intro clean
    rcases clean with ⟨other, lookup, clear⟩
    rw [found] at lookup
    cases lookup
    rw [dirty] at clear
    cases clear
  · intro parts
    obtain ⟨node, found⟩ := Tree.contains_iff.mp parts.1
    refine ⟨node, List.mem_filter.mpr ⟨Tree.mem_of_get? found, ?_⟩, Tree.id_of_get? found⟩
    cases dirty : node.flags.dirty with
    | true => rfl
    | false => exact absurd ⟨node, found, dirty⟩ parts.2

/-- The paths to dirty nodes are the nodes that some dirty node is strictly below
of. -/
theorem mem_pathsToDirty_iff (formed : styled.tree.FormedBy birth) {id : NodeId} :
    id ∈ styled.pathsToDirty ↔
      ∃ other, styled.tree.StrictlyBelow id other ∧ ¬styled.tree.IsClean other := by
  rw [pathsToDirty, List.mem_flatMap]
  constructor
  · intro listed
    rcases listed with ⟨other, dirty, member⟩
    have parts := (mem_dirtyIds_iff formed.toLinkedBy).mp dirty
    exact ⟨other, (formed.mem_ancestors_iff parts.1).mp member, parts.2⟩
  · intro found
    rcases found with ⟨other, strict, dirty⟩
    have known := Tree.LinkedBy.contains_of_strictlyBelow strict
    exact ⟨other, (mem_dirtyIds_iff formed.toLinkedBy).mpr ⟨known, dirty⟩,
      (formed.mem_ancestors_iff known).mpr strict⟩

/-- The style of the node can be trusted, and no node below it is dirty. -/
def Settled (styled : StyledTree) (id : NodeId) : Prop :=
  (styled.trustedAt? id).isSome = true ∧
    ∀ other, styled.tree.StrictlyBelow id other → styled.tree.IsClean other

/-- A pass turns back at settled nodes. -/
theorem stops_iff_settled (formed : styled.tree.FormedBy birth) {id : NodeId} :
    styled.Stops styled.pathsToDirty id ↔ styled.Settled id := by
  rw [Stops, Settled, mem_pathsToDirty_iff formed]
  apply and_congr_right
  intro _
  constructor
  · intro none other strict
    by_contra dirty
    exact none ⟨other, strict, dirty⟩
  · intro clean found
    rcases found with ⟨other, strict, dirty⟩
    exact dirty (clean other strict)

theorem Settled.isClean {top id : NodeId} (settled : styled.Settled top)
    (below : styled.tree.Below top id) : styled.tree.IsClean id := by
  rcases below.cases_top with rfl | strict
  · obtain ⟨style, trusted⟩ := Option.isSome_iff_exists.mp settled.1
    exact (trustedAt?_eq_some_iff.mp trusted).1
  · exact settled.2 id strict

theorem isSome_trustedAt?_iff {id : NodeId} (clean : styled.tree.IsClean id) :
    (styled.trustedAt? id).isSome = true ↔ (styled.styles.get? id).isSome = true := by
  rw [Option.isSome_iff_exists, Option.isSome_iff_exists]
  simp only [trustedAt?_eq_some_iff, clean, true_and]

/-- A pass that returns takes its way through the whole tree. -/
theorem passed_refreshDown (formed : styled.tree.FormedBy birth)
    (done : styled.refreshDown = (.ok count, after)) :
    Passed styled after styled.pathsToDirty styled.tree.preorder := by
  have linked := formed.toLinkedBy
  cases rooted : styled.tree.root with
  | none =>
      rw [refreshDown_rootless rooted] at done
      cases done
      have empty : styled.tree.preorder = [] := by rw [Tree.preorder, rooted]
      rw [empty]
      exact ⟨fun trusted => trusted, fun cleaned => cleaned, fun _ => rfl,
        fun member => by cases member⟩
  | some root =>
      have order : styled.tree.preorder = styled.tree.subtree root := by
        rw [Tree.preorder, rooted]
      rcases exists_selectorSet_of_refreshDown rooted done with ⟨set, read⟩
      have pass := pass_refreshDown rooted read
      rw [done] at pass
      have passed := pass.passed linked (linked.walk_subtree root) (linked.nodup_subtree root)
        (by
          intro id member
          rw [← order] at member
          exact linked.mem_preorder_iff.mp member)
        (linked.length_walk_le (linked.walk_subtree root) (linked.rootFound rooted).1) rfl
      rw [order]
      exact ⟨passed.kept, passed.clean, passed.outside, passed.reached⟩

/-- After a pass a node can be trusted when it could be before, or when it lies below
no settled node. -/
theorem trusted_refreshDown_iff (formed : styled.tree.FormedBy birth)
    (done : styled.refreshDown = (.ok count, after)) {id : NodeId}
    (known : styled.tree.contains id = true) :
    (after.trustedAt? id).isSome = true ↔ (styled.trustedAt? id).isSome = true ∨
      ∀ top, styled.Settled top → ¬styled.tree.Below top id := by
  have passed := passed_refreshDown formed done
  rw [passed.reached (formed.mem_preorder_iff.mpr known)]
  apply or_congr_right
  simp only [stops_iff_settled formed]
  constructor
  · intro free top settled below
    have alive := formed.contains_of_below below known
    exact free top (formed.mem_preorder_iff.mpr alive) settled below
  · intro free top _ settled
    exact free top settled

/-- When all that lies below settled nodes can be trusted, everything can be trusted
after a pass. -/
theorem isSome_trustedAt?_refreshDown (formed : styled.tree.FormedBy birth)
    (done : styled.refreshDown = (.ok count, after))
    (covered : ∀ {top id}, styled.Settled top → styled.tree.Below top id →
      (styled.trustedAt? id).isSome = true)
    {id : NodeId} (known : styled.tree.contains id = true) :
    (after.trustedAt? id).isSome = true := by
  apply (trusted_refreshDown_iff formed done known).mpr
  by_cases under : ∃ top, styled.Settled top ∧ styled.tree.Below top id
  · rcases under with ⟨top, settled, below⟩
    exact .inl (covered settled below)
  · refine .inr ?_
    intro top settled below
    exact under ⟨top, settled, below⟩

/-- The requests after which passes are expected to be complete: nodes are not
styled by themselves, and marks are not cleared. -/
def DownOnly (styled : StyledTree) : Request → Prop
  | .change .cleanAll | .ownStyle _ => False
  | .refresh => styled.config.inheritance = true
  | .change _ | .replaceSheet _ | .editSheet _ | .dirtyAll | .dirtySubtree _ | .focusElement _
  | .hoverElement _ | .removeSubtree _ | .clearTree | .buildFlat _ _ | .rebuild _
  | .inheritedStyle _ | .refreshDown => True

/-- Where every node has a state of its own, a pass that returns leaves every node with a cached
style exactly when before it every node below a settled one had a cached style. -/
theorem cached_refreshDown_iff {sheet : Sheet} {config : Config} {first : NodeId}
    (run : Run DownOnly (blank sheet config first) styled)
    (done : styled.refreshDown = (.ok count, after)) :
    (∀ id, after.tree.contains id = true → (after.styles.get? id).isSome = true) ↔
      ∀ top, styled.Settled top →
        ∀ id, styled.tree.Below top id → (styled.styles.get? id).isSome = true := by
  have formed := run.wellFormed.tree.toFormedBy
  have passed := passed_refreshDown formed done
  have content := sameContent_refreshDown styled
  rw [done] at content
  have alive := content.tree.sameLinks.contains_eq
  constructor
  · intro complete top settled id below
    have clean := settled.isClean below
    have cached := complete id ((alive id).symm.trans clean.contains)
    have trusted := (isSome_trustedAt?_iff (passed.clean clean)).mpr cached
    rcases (trusted_refreshDown_iff formed done clean.contains).mp trusted with before | free
    · exact (isSome_trustedAt?_iff clean).mp before
    · exact absurd below (free top settled)
  · intro covered id known
    have trusted := isSome_trustedAt?_refreshDown formed done
      (fun settled below => (isSome_trustedAt?_iff (settled.isClean below)).mpr
        (covered _ settled _ below)) ((alive id).trans known)
    obtain ⟨style, found⟩ := Option.isSome_iff_exists.mp trusted
    rw [(trustedAt?_eq_some_iff.mp found).2]
    rfl

/-- A button below an `App`, styled once, after which the sheet is replaced. -/
def restyled : StyledTree :=
  (((blank (.ofRule "App" "color" "red") {} ⟨1⟩).perform
    (.rebuild (.widget { widgetType := "App" } [.widget { widgetType := "Button" } []]))).perform
    .refreshDown).perform
    (.replaceSheet (.ofRule "App" "gap" "1"))

theorem restyled_run : Run DownOnly (blank (.ofRule "App" "color" "red") {} ⟨1⟩) restyled :=
  .next (.next (.next .start trivial) trivial) trivial

/-- Directly after the sheet is replaced no node is settled, and a pass is
complete. -/
theorem restyled_complete :
    restyled.refreshDown.1 = .ok 2 ∧
      ∀ id, restyled.refreshDown.2.tree.contains id = true →
        (restyled.refreshDown.2.styles.get? id).isSome = true := by
  have count : restyled.refreshDown.1 = .ok 2 := by decide +kernel
  refine ⟨count, (cached_refreshDown_iff restyled_run (Prod.ext count rfl)).mpr ?_⟩
  intro top settled
  have uncached : restyled.Uncached := fun _ => rfl
  rw [Settled, uncached.trustedAt?] at settled
  cases settled.1

/-- When the root is asked for its style first, it is settled, and the pass leaves
out the button, whose style was dropped. -/
theorem restyled_root_incomplete :
    Run DownOnly (blank (.ofRule "App" "color" "red") {} ⟨1⟩)
        (restyled.perform (.inheritedStyle ⟨1⟩)) ∧
      (restyled.perform (.inheritedStyle ⟨1⟩)).refreshDown.1 = .ok 0 ∧
      (restyled.perform (.inheritedStyle ⟨1⟩)).refreshDown.2.tree.contains ⟨2⟩ = true ∧
      (restyled.perform (.inheritedStyle ⟨1⟩)).refreshDown.2.styles.get? ⟨2⟩ = none := by
  refine ⟨.next restyled_run trivial, ?_, ?_, ?_⟩
  · decide +kernel
  · decide +kernel
  · decide +kernel

end StyledTree

end WidgetStyle
