import WidgetStyle.Proofs.Cascade.Application
import WidgetStyle.Proofs.History.Shape
import WidgetStyle.Proofs.Selector.LongPlace
import WidgetStyle.Proofs.StyledTree.Computing
import WidgetStyle.Proofs.StyledTree.Paths

/-!
# How much a pass computes

When no declaration fails, a pass over a proper tree comes to an end, leaves nothing dirty
and nothing to do for a second pass.  When all clean nodes have a cached style, it computes the
dirty nodes in the order of the walk, so that turning back saves steps and nothing else: a plain
walk that enters every node and computes the dirty ones comes to the same.
-/

namespace WidgetStyle

namespace StyledTree

variable {birth : NodeId → Int} {styled before after : StyledTree} {bound : Nat} {id : NodeId}

/-! ## A pass that nothing stops -/

/-- Each node of the tree can be styled: what matches it can be told, and no declaration of that
fails. -/
def Applicable (styled : StyledTree) : Prop :=
  ∀ id node, styled.tree.get? id = some node →
    ∃ matched, styled.cascade.matchesOf styled.surroundings node = .ok matched ∧
      ∀ found ∈ matched, ∀ declaration ∈ found.rule.declarations,
        ¬declaration.Fails styled.sheet.bindings

/-- When the selectors in use are those of the sheet, it is enough that the sheet can be read and
that no declaration of it fails. -/
theorem applicable_of_rules (readable : styled.sheet.excess? = none)
    (current : styled.selectorSet = SelectorSet.ofSheet styled.sheet)
    (sound : ∀ rule ∈ styled.sheet.rules, ∀ declaration ∈ rule.declarations,
      ¬declaration.Fails styled.sheet.bindings) : styled.Applicable := by
  intro id node _
  have whole : styled.cascade = .ofSheet styled.sheet styled.config := by
    rw [cascade, Cascade.ofSheet, current]
  rcases Cascade.matchesOf_ofSheet readable styled.config styled.surroundings node
    with ⟨matched, done, -⟩
  rw [← whole] at done
  refine ⟨matched, done, ?_⟩
  intro found member declaration declares
  rcases Cascade.rule_of_mem_matchesOf done member with ⟨place, -, listed⟩
  exact sound found.rule (List.mem_of_getElem? listed) declaration declares

theorem Applicable.styleFrom_ne_error (applicable : styled.Applicable) {node : Node}
    (found : styled.tree.get? id = some node) (base : Style) (error : StyleError) :
    styled.cascade.styleFrom base styled.tree.surroundings node ≠ .error error := by
  obtain ⟨matched, done, applies⟩ : ∃ matched,
      styled.cascade.matchesOf styled.tree.surroundings node = .ok matched ∧ _ :=
    applicable id node found
  have succeeds (important : Bool) (style : Style) (error : StyleError) :
      Cascade.applyAll styled.sheet.bindings style (Cascade.declarationsOf important matched) ≠
        .error error := by
    intro failed
    rcases Cascade.applyAll_fails_iff.mp ⟨error, failed⟩ with ⟨declaration, listed, fails⟩
    rcases (Cascade.mem_declarationsOf_iff.mp listed).2 with ⟨entry, among, declares⟩
    exact applies entry among declaration declares fails
  intro failed
  rw [Cascade.styleFrom, done] at failed
  simp only at failed
  split at failed
  · rename_i first
    exact succeeds false base _ first
  · exact succeeds true _ error failed

/-- Where a node can be styled, the selectors can be read. -/
theorem Applicable.exists_selectorSet (applicable : styled.Applicable) {node : Node}
    (found : styled.tree.get? id = some node) : ∃ set, styled.selectorSet = .ok set := by
  rcases applicable id node found with ⟨matched, done, -⟩
  rcases Cascade.matchesOf_eq_ok done with ⟨set, read, -⟩
  exact ⟨set, read⟩

/-- No style from scratch fails. -/
def Unfailing (styled : StyledTree) : Prop :=
  ∀ id error, styled.cascade.freshStyle styled.tree id ≠ .error error

theorem Applicable.unfailing (applicable : styled.Applicable)
    (formed : styled.tree.FormedBy birth) : styled.Unfailing := by
  intro id error
  cases known : styled.tree.contains id with
  | false =>
      have unknown : styled.tree.get? id = none := by simpa [Tree.contains] using known
      simp [Tree.FormedBy.freshStyle_unknown styled.cascade unknown]
  | true =>
      refine formed.inductionUp (motive := fun id => ∀ error,
        styled.cascade.freshStyle styled.tree id ≠ .error error) ?_ known error
      intro id known above error failed
      rcases Tree.contains_iff.mp known with ⟨node, found⟩
      rw [formed.freshStyle_of_get? styled.cascade found] at failed
      split at failed
      · rename_i cause stopped
        cases link : node.parent with
        | none =>
            rw [link] at stopped
            cases stopped
        | some parent =>
            rw [link] at stopped
            exact above parent ((Tree.parentId?_of_get? found).trans link) cause stopped
      · rename_i parentStyle _
        cases computed : styled.cascade.styleBelow parentStyle styled.tree.surroundings node with
        | error cause => exact applicable.styleFrom_ne_error found _ cause computed
        | ok style =>
            rw [computed] at failed
            cases failed

theorem SameContent.cascade_eq (same : SameContent before after) :
    after.cascade = before.cascade := by
  rw [cascade, cascade, same.sheet, same.config, same.selectors]

theorem Unfailing.of_sameContent (unfailing : before.Unfailing)
    (formed : before.tree.FormedBy birth) (same : SameContent before after) : after.Unfailing := by
  intro id error
  rw [same.cascade_eq, same.tree.freshStyle_eq formed]
  exact unfailing id error

theorem Unfailing.computeEach_eq_ok (unfailing : styled.Unfailing)
    (formed : styled.tree.FormedBy birth) (ids : List NodeId) :
    (styled.computeEach ids).1 = .ok (ids.countP styled.tree.contains) := by
  induction ids generalizing styled with
  | nil => rfl
  | cons id rest ih =>
      rw [computeEach]
      cases found : styled.tree.get? id with
      | none =>
          rw [List.countP_cons_of_neg (by simp [Tree.contains, found])]
          exact ih unfailing formed
      | some node =>
          have same := sameContent_computeBelow styled node
          rw [List.countP_cons_of_pos (Tree.contains_of_get? found)]
          simp only
          split
          · rename_i failed
            rcases formed.exists_error_of_styleBelow found (computeBelow_error failed).2
              with ⟨cause, fresh⟩
            exact absurd fresh (unfailing id cause)
          · rename_i computed done
            rw [done] at same
            have later := ih (unfailing.of_sameContent formed same) (same.tree.formedBy formed)
            have alive : computed.tree.contains = styled.tree.contains :=
              funext fun other => (same.tree.sameLinks.contains_eq other).symm
            simp only [later, alive, Except.map]

/-! ## A whole pass -/

/-- The ids of the nodes that a pass over the whole tree computes, in order. -/
def computedDown (styled : StyledTree) : List NodeId :=
  match styled.tree.root with
  | none => []
  | some root => styled.prepare.computedOver styled.pathsToDirty styled.tree.size [root]

section Whole

variable {root : NodeId} {set : SelectorSet} {count : Nat}

theorem refreshDown_eq_passOver (rooted : styled.tree.root = some root)
    (read : styled.selectorSet = .ok set) :
    styled.refreshDown = styled.prepare.passOver styled.pathsToDirty styled.tree.size [root] := by
  rw [refreshDown, rooted, read]

theorem refreshDown_eq_computeEach (rooted : styled.tree.root = some root)
    (read : styled.selectorSet = .ok set) :
    styled.refreshDown = styled.prepare.computeEach styled.computedDown := by
  rw [refreshDown_eq_passOver rooted read, computedDown, rooted]
  exact passOver_eq_computeEach styled.prepare _ _ _

/-- With a root or without, a pass computes one after the other the nodes that it computes. -/
theorem exists_refreshDown_eq
    (readable : ∀ root, styled.tree.root = some root → ∃ set, styled.selectorSet = .ok set) :
    ∃ start, SameContent styled start ∧ start.styles = styled.styles ∧
      styled.refreshDown = start.computeEach styled.computedDown := by
  cases rooted : styled.tree.root with
  | none =>
      refine ⟨styled, .refl styled, rfl, ?_⟩
      rw [refreshDown_rootless rooted, computedDown, rooted]
      rfl
  | some root =>
      rcases readable root rooted with ⟨set, read⟩
      exact ⟨styled.prepare, sameContent_prepare styled, rfl,
        refreshDown_eq_computeEach rooted read⟩

theorem length_subtree_le (formed : styled.tree.FormedBy birth)
    (rooted : styled.tree.root = some root) :
    (styled.tree.subtree root).length ≤ styled.tree.size :=
  formed.length_walk_le (formed.walk_subtree root)
    (formed.rootFound rooted).1

/-- No bound that is large enough for all nodes stops a pass, and the paths to dirty nodes may be
gathered without going up to the root for each. -/
theorem passOver_eq_refreshDown (formed : styled.tree.FormedBy birth)
    (rooted : styled.tree.root = some root) (read : styled.selectorSet = .ok set)
    (enough : styled.tree.size ≤ bound) :
    styled.prepare.passOver (styled.tree.gatherAbove [] styled.tree.dirtyIds) bound [root] =
      styled.refreshDown := by
  have linked : styled.prepare.tree.LinkedBy birth := formed.toLinkedBy
  have within := length_subtree_le formed rooted
  rw [refreshDown_eq_passOver rooted read,
    passOver_congr fun id => mem_gatherAbove_dirtyIds_iff formed]
  exact passOver_eq_of_enough linked (linked.walk_subtree root) (Nat.le_trans within enough) within

theorem Unfailing.refreshDown_eq_ok (unfailing : styled.Unfailing)
    (formed : styled.tree.FormedBy birth)
    (readable : ∀ root, styled.tree.root = some root → ∃ set, styled.selectorSet = .ok set) :
    styled.refreshDown.1 = .ok (styled.computedDown.countP styled.tree.contains) := by
  rcases exists_refreshDown_eq readable with ⟨start, content, -, computes⟩
  have alive : start.tree.contains = styled.tree.contains :=
    funext fun other => (content.tree.sameLinks.contains_eq other).symm
  rw [computes, ← alive]
  exact (unfailing.of_sameContent formed content).computeEach_eq_ok
    (content.tree.formedBy formed) styled.computedDown

/-- After a pass nothing is dirty. -/
theorem isClean_refreshDown (formed : styled.tree.FormedBy birth)
    (done : styled.refreshDown = (.ok count, after)) (known : after.tree.contains id = true) :
    after.tree.IsClean id := by
  have content := sameContent_refreshDown styled
  rw [done] at content
  rw [← content.tree.sameLinks.contains_eq] at known
  by_cases settled : ∃ top, styled.Settled top ∧ styled.tree.Below top id
  · rcases settled with ⟨top, settled, below⟩
    exact (passed_refreshDown formed done).clean (settled.isClean below)
  · have trusted := (trusted_refreshDown_iff formed done known).mpr
      (.inr fun top settles below => settled ⟨top, settles, below⟩)
    rcases Option.isSome_iff_exists.mp trusted with ⟨style, trusted⟩
    exact (trustedAt?_eq_some_iff.mp trusted).1

/-- After a pass the root has a style that can be trusted. -/
theorem exists_trustedAt?_root (formed : styled.tree.FormedBy birth)
    (rooted : styled.tree.root = some root) (done : styled.refreshDown = (.ok count, after)) :
    ∃ style, after.trustedAt? root = some style := by
  have topmost := formed.rootFound rooted
  rw [← Option.isSome_iff_exists, trusted_refreshDown_iff formed done topmost.1]
  by_cases trusted : (styled.trustedAt? root).isSome = true
  · exact .inl trusted
  · right
    intro top settled below
    cases below with
    | top => exact trusted settled.1
    | child link _ =>
        rw [topmost.2] at link
        cases link

/-- After a pass the selectors of the sheet are read. -/
theorem prepare_eq_self (rooted : styled.tree.root = some root)
    (done : styled.refreshDown = (.ok count, after)) : after.prepare = after := by
  rcases exists_selectorSet_of_refreshDown rooted done with ⟨set, read⟩
  have computed := styledAt_computeEach styled.prepare styled.computedDown
  rw [← refreshDown_eq_computeEach rooted read, done] at computed
  have kept : after.selectors = some set := by
    rw [computed.selectors, prepare, read]
    rfl
  have same : after.selectorSet.toOption = after.selectors := by
    rw [selectorSet, kept]
    rfl
  rw [prepare, same]

/-- A pass right after a pass computes nothing and changes nothing. -/
theorem refreshDown_again (formed : styled.tree.FormedBy birth)
    (done : styled.refreshDown = (.ok count, after)) : after.refreshDown = (.ok 0, after) := by
  cases rooted : styled.tree.root with
  | none =>
      rw [refreshDown_rootless rooted] at done
      cases done
      exact refreshDown_rootless rooted
  | some root =>
      have content := sameContent_refreshDown styled
      rw [done] at content
      have formedAfter := content.tree.formedBy formed
      have rootedAfter := content.tree.root.symm.trans rooted
      have clean : after.tree.dirtyIds = [] := by
        rw [List.eq_nil_iff_forall_not_mem]
        intro id dirty
        rw [mem_dirtyIds_iff formedAfter.toLinkedBy] at dirty
        exact dirty.2 (isClean_refreshDown formed done dirty.1)
      have paths : after.pathsToDirty = [] := by rw [pathsToDirty, clean, List.flatMap_nil]
      rcases exists_trustedAt?_root formed rooted done with ⟨style, trusted⟩
      have enough := length_subtree_le formedAfter rootedAfter
      rcases exists_selectorSet_of_refreshDown rooted done with ⟨set, read⟩
      have readAfter : after.selectorSet = .ok set := content.selectors.trans read
      rw [refreshDown_eq_passOver rootedAfter readAfter, prepare_eq_self rooted done, paths]
      cases size : after.tree.size with
      | zero => simp [Tree.subtree, size] at enough
      | succ bound =>
          rw [passOver_trusted trusted]
          simp [passOver]

/-- A pass computed the dirty nodes, each once and none before its parent, and left alone what was
cached for the others.  The plain walk comes to the same. -/
structure ComputesDirty (before after : StyledTree) (count : Nat) : Prop where
  distinct : before.computedDown.Nodup
  dirty : ∀ id, id ∈ before.computedDown ↔
    before.tree.contains id = true ∧ ¬before.tree.IsClean id
  parentsFirst : before.computedDown.Pairwise fun earlier later =>
    before.tree.parentId? earlier ≠ some later
  counted : count = before.computedDown.length
  spared : ∀ id, id ∉ before.computedDown → after.styles.get? id = before.styles.get? id
  plain : before.refreshPlainly = (.ok count, after)

theorem computedDown_eq (formed : styled.tree.FormedBy birth)
    (covered : ∀ id, styled.tree.IsClean id → (styled.styles.get? id).isSome = true) :
    styled.computedDown = styled.tree.dirtyAmong styled.tree.preorder := by
  have linked := formed.toLinkedBy
  rw [computedDown, Tree.preorder]
  cases rooted : styled.tree.root with
  | none => rfl
  | some root =>
      have prunable : styled.prepare.Prunable styled.pathsToDirty (styled.tree.subtree root) := by
        constructor
        case alive =>
          intro id member
          rw [← styled.tree.preorder_of_root rooted] at member
          exact linked.mem_preorder_iff.mp member
        case cached => exact fun id _ clean => covered id clean
        case quiet =>
          intro id member unlisted other strict
          by_contra dirty
          exact unlisted ((mem_pathsToDirty_iff formed).mpr ⟨other, strict, dirty⟩)
      exact computedOver_eq linked (linked.walk_subtree root) (linked.nodup_subtree root)
        (length_subtree_le formed rooted) prunable

/-- The plain walk over the whole tree comes to the same as a pass. -/
theorem refreshPlainly_eq (formed : styled.tree.FormedBy birth)
    (covered : ∀ id, styled.tree.IsClean id → (styled.styles.get? id).isSome = true) :
    styled.refreshPlainly = styled.refreshDown := by
  cases rooted : styled.tree.root with
  | none => rw [refreshPlainly, rooted, refreshDown_rootless rooted]
  | some root =>
      cases read : styled.selectorSet with
      | error excess => rw [refreshPlainly, rooted, read, refreshDown_unread rooted read]
      | ok set =>
          have linked : styled.prepare.tree.LinkedBy birth := formed.toLinkedBy
          have plain := computeDirty_eq linked (formed.nodup_subtree root)
          rw [refreshDown_eq_computeEach rooted read, computedDown_eq formed covered,
            styled.tree.preorder_of_root rooted, refreshPlainly, rooted, read]
          exact plain

theorem Unfailing.computesDirty (unfailing : styled.Unfailing) (formed : styled.tree.FormedBy birth)
    (covered : ∀ id, styled.tree.IsClean id → (styled.styles.get? id).isSome = true)
    (done : styled.refreshDown = (.ok count, after)) : ComputesDirty styled after count := by
  have linked := formed.toLinkedBy
  have computed := computedDown_eq formed covered
  have readable : ∀ root, styled.tree.root = some root → ∃ set, styled.selectorSet = .ok set :=
    fun _ rooted => exists_selectorSet_of_refreshDown rooted done
  have dirty (id : NodeId) : id ∈ styled.computedDown ↔
      styled.tree.contains id = true ∧ ¬styled.tree.IsClean id := by
    rw [computed, Tree.mem_dirtyAmong_iff, mem_dirtyIds_iff linked, linked.mem_preorder_iff]
    exact and_self_left
  have subsequence : styled.computedDown.Sublist styled.tree.preorder := by
    rw [computed]
    exact List.filter_sublist
  have ordered := linked.pairwise_preorder.sublist subsequence
  constructor
  case distinct =>
    apply ordered.imp
    intro id other order same
    rw [same] at order
    exact linked.not_precedes_symm order order
  case dirty => exact dirty
  case parentsFirst =>
    apply ordered.imp
    intro earlier later order link
    exact linked.not_precedes_symm order (.above ⟨later, link, .top⟩)
  case counted =>
    have alive : styled.computedDown.countP styled.tree.contains = styled.computedDown.length :=
      List.countP_eq_length.mpr fun id member => ((dirty id).mp member).1
    have counts := unfailing.refreshDown_eq_ok formed readable
    rw [done, alive] at counts
    exact Except.ok.inj counts
  case spared =>
    intro id absent
    rcases exists_refreshDown_eq readable with ⟨start, -, cached, computes⟩
    have only := (styledAt_computeEach start styled.computedDown).styles absent
    rw [← computes, done, cached] at only
    exact only
  case plain => exact (refreshPlainly_eq formed covered).trans done

/-- A pass over a proper tree all of whose nodes can be styled, and have states of their own, comes
to an end, and leaves nothing dirty and nothing to do for a second pass.  When all clean nodes have a cached style it computes
the dirty nodes and no other ones. -/
theorem refreshDown_computes_dirty (proper : styled.tree.Proper)
    (applicable : styled.Applicable) :
    ∃ count after, styled.refreshDown = (.ok count, after) ∧
      (∀ root, styled.tree.root = some root →
        styled.refreshDown = styled.prepare.computeEach styled.computedDown ∧
        ∀ bound, styled.tree.size ≤ bound →
          styled.prepare.passOver (styled.tree.gatherAbove [] styled.tree.dirtyIds) bound [root] =
            styled.refreshDown) ∧
      (∀ id, after.tree.contains id = true → after.tree.IsClean id) ∧
      after.refreshDown = (.ok 0, after) ∧
      ((∀ id, styled.tree.IsClean id → (styled.styles.get? id).isSome = true) →
        ComputesDirty styled after count) := by
  have formed := proper.formedBy_depth
  have unfailing := applicable.unfailing formed
  have readable : ∀ root, styled.tree.root = some root →
      ∃ set, styled.selectorSet = .ok set := by
    intro root rooted
    rcases Tree.contains_iff.mp (formed.rootFound rooted).1 with ⟨node, found⟩
    exact applicable.exists_selectorSet found
  obtain ⟨count, after, done⟩ : ∃ count after, styled.refreshDown = (.ok count, after) :=
    ⟨_, _, Prod.ext (unfailing.refreshDown_eq_ok formed readable) rfl⟩
  refine ⟨count, after, done, ?_, ?_, refreshDown_again formed done, ?_⟩
  · intro root rooted
    rcases readable root rooted with ⟨set, read⟩
    exact ⟨refreshDown_eq_computeEach rooted read,
      fun bound enough => passOver_eq_refreshDown formed rooted read enough⟩
  · exact fun id known => isClean_refreshDown formed done known
  · exact fun covered => unfailing.computesDirty formed covered done

end Whole

/-- A label under a row, with all styles computed, and then a class more on the label. -/
def relabeled : StyledTree :=
  (((blank (.ofRule "Label.hot" "color" "red") {} ⟨1⟩).perform
    (.rebuild (.widget { widgetType := "App" }
      [.widget { widgetType := "Row" } [.widget { widgetType := "Label" } []],
        .widget { widgetType := "Row" } []]))).perform .refreshDown).perform
    (.change (.insertClass ⟨3⟩ "hot"))

theorem relabeled_computed :
    relabeled.tree.Proper ∧ relabeled.Applicable ∧ relabeled.computedDown = [⟨3⟩] ∧
      ∃ after, relabeled.refreshDown = (.ok 1, after) ∧ ComputesDirty relabeled after 1 := by
  have run : Run (fun _ _ => True) (blank (.ofRule "Label.hot" "color" "red") {} ⟨1⟩) relabeled :=
    .next (.next (.next .start trivial) trivial) trivial
  have proper := run.wellFormed.tree.proper
  have current := run.wellFormed.selectors
  have applicable : relabeled.Applicable :=
    applicable_of_rules (by decide +kernel) current (by decide +kernel)
  have cached : ∀ id ∈ relabeled.tree.nodes.map (·.id),
      (relabeled.styles.get? id).isSome = true := by
    decide +kernel
  rcases refreshDown_computes_dirty proper applicable with ⟨count, after, done, -, -, -, exactly⟩
  have counted : relabeled.refreshDown.1 = .ok 1 := by decide +kernel
  rw [done] at counted
  cases counted
  refine ⟨proper, applicable, by decide +kernel, after, done, exactly ?_⟩
  exact fun id clean => cached id (Tree.contains_iff_mem.mp clean.contains)

/-- A root under a sheet. -/
def rootUnder (sheet : Sheet) : StyledTree :=
  (blank sheet {} ⟨1⟩).perform (.rebuild (.widget { widgetType := "App" } []))

/-- A sheet with a place of one digit too many. -/
def unreadable : Sheet :=
  .ofRule (String.ofList (Selector.placeText (List.replicate (Text.maxDigits + 1) '1'))) "gap" "1"

theorem excess?_ofRule {selector : String} {excess : Text.TooManyDigits}
    (fails : Selector.parseGroup selector = .error (.excess excess)) (property value : String) :
    (Sheet.ofRule selector property value).excess? = some excess := by
  rw [Sheet.excess?, Sheet.ofRule, List.findSome?_cons, Rule.excess?_eq_some_iff.mpr fails]

/-- Under a sheet that cannot be read a pass fails, whatever its declarations are. -/
theorem refreshDown_rootUnder {sheet : Sheet} {excess : Text.TooManyDigits}
    (fails : sheet.excess? = some excess) :
    (rootUnder sheet).refreshDown = (.error (.tooManyDigits excess), rootUnder sheet) := by
  have rooted : (rootUnder sheet).tree.root = some ⟨1⟩ := rfl
  have unread : (rootUnder sheet).selectorSet = .error excess :=
    @Cascade.set_ofSheet_of_excess sheet {} excess fails
  exact refreshDown_unread rooted unread

/-- Two rows with a label each, and all styles are computed. -/
def labelPair : StyledTree :=
  ((blank (.ofRule "Label" "color" "red") {} ⟨1⟩).perform
    (.rebuild (.widget { widgetType := "App" }
      [.widget { widgetType := "Row" } [.widget { widgetType := "Label" } []],
        .widget { widgetType := "Row" } [.widget { widgetType := "Label" } []]]))).perform
    .refreshDown

theorem run_labelPair :
    Run (fun _ _ => True) (blank (.ofRule "Label" "color" "red") {} ⟨1⟩) labelPair :=
  .next (.next .start trivial) trivial

/-- The second label is given the state of the first one, which makes both dirty. -/
def twinLabels : SharedStyledTree :=
  SharedStyledTree.shareState { styled := labelPair } ⟨5⟩ ⟨3⟩

theorem proper_twinLabels : twinLabels.styled.snapshot.tree.Proper := by
  -- At the moment nothing tells the labels from two labels that got dirty one by one.
  have same : twinLabels.styled.snapshot.tree =
      TreeChange.apply (.dirtySubtree ⟨5⟩) (TreeChange.apply (.dirtySubtree ⟨3⟩)
        labelPair.tree) := by
    decide +kernel
  have formed := run_labelPair.wellFormed.tree
  rw [same]
  exact (TreeChange.wellFormed_apply (TreeChange.wellFormed_apply formed _) _).proper

theorem applicable_twinLabels : twinLabels.styled.snapshot.Applicable := by
  have cascade : twinLabels.styled.snapshot.cascade = labelPair.cascade :=
    SharedStyledTree.cascade_shareState { styled := labelPair } ⟨5⟩ ⟨3⟩
  have current : twinLabels.styled.snapshot.selectorSet =
      SelectorSet.ofSheet twinLabels.styled.snapshot.sheet :=
    calc
      _ = labelPair.selectorSet := congrArg Cascade.set cascade
      _ = SelectorSet.ofSheet labelPair.sheet := run_labelPair.wellFormed.selectors
      _ = _ := congrArg (fun cascade => SelectorSet.ofSheet cascade.sheet) cascade.symm
  exact applicable_of_rules (by decide +kernel) current (by decide +kernel)

/-- A pass over a proper tree whose declarations do not fail may fail all the same, since the
selectors cannot be read.  And of two labels that hold one state a pass computes the first one
only, by which neither is dirty any more. -/
theorem passes_fall_short :
    ((rootUnder unreadable).tree.Proper ∧
      (∀ rule ∈ unreadable.rules, ∀ declaration ∈ rule.declarations,
        ¬declaration.Fails unreadable.bindings) ∧
      ∃ error, (rootUnder unreadable).refreshDown = (.error error, rootUnder unreadable)) ∧
    twinLabels.styled.snapshot.tree.Proper ∧ twinLabels.styled.snapshot.Applicable ∧
      (∀ id, twinLabels.styled.snapshot.tree.IsClean id →
        (twinLabels.styled.styles.get? id).isSome = true) ∧
      twinLabels.styled.tree.dirtyIds = [⟨3⟩, ⟨5⟩] ∧
      ∃ after, twinLabels.styled.refreshDown = (.ok 1, after) ∧ after.tree.dirtyIds = [] := by
  constructor
  · have run : Run (fun _ _ => True) (blank unreadable {} ⟨1⟩) (rootUnder unreadable) :=
      .next .start trivial
    have sound : ∀ rule ∈ unreadable.rules, ∀ declaration ∈ rule.declarations,
        ¬declaration.Fails unreadable.bindings := by
      decide +kernel
    exact ⟨run.wellFormed.tree.proper, sound, _,
      refreshDown_rootUnder (excess?_ofRule Selector.parseGroup_ones "gap" "1")⟩
  · have cached : ∀ id ∈ twinLabels.styled.snapshot.tree.nodes.map (·.id),
        (twinLabels.styled.styles.get? id).isSome = true := by
      decide +kernel
    have passed : twinLabels.styled.refreshDown.1 = .ok 1 ∧
        twinLabels.styled.refreshDown.2.tree.dirtyIds = [] := by
      decide +kernel
    refine ⟨proper_twinLabels, applicable_twinLabels, ?_, by decide +kernel, _,
      Prod.ext passed.1 rfl, passed.2⟩
    exact fun id clean => cached id (Tree.contains_iff_mem.mp clean.contains)

end StyledTree

end WidgetStyle
