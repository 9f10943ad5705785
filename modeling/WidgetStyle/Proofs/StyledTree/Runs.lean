import WidgetStyle.Proofs.StyledTree.Building
import WidgetStyle.Proofs.StyledTree.Passes

/-!
# What runs keep

Every request keeps a styled tree well-formed.  The requests of the inheriting
mode, which neither style a node by itself, nor clear marks, nor reorder children,
also keep it coherent, so that in any state of such a run the cache cannot be
told from computing all styles anew.
-/

namespace WidgetStyle

/-! ## Changes of the tree -/

namespace TreeChange

/-- Whether the change marks all that it may change the style of. -/
def marksAll : TreeChange → Bool
  | permuteChildren _ _ | cleanAll => false
  | plantRoot _ | appendChild _ _ | removeSubtree _ | replaceClasses _ _ | insertClass _ _
  | eraseClass _ _ | replaceElementId _ _ | replaceInlineStyle _ _ | writeFlags _ _
  | replaceFlags _ _ | dirtySubtree _ | giveFocus _ | giveHover _ => true

variable {tree : Tree}

theorem apply_of_outcome {sharing : Sharing} {tree : Tree sharing} {change : TreeChange}
    {holds : Tree sharing → Prop} (before : holds tree)
    (kept : ∀ {after}, change.outcome tree = .ok after → holds after) :
    holds (change.apply tree) := by
  rw [apply]
  split
  · rename_i done
    exact kept done
  · exact before

theorem retains_apply (formed : tree.WellFormed) {change : TreeChange}
    (marks : change.marksAll = true) : tree.Retains (change.apply tree) := by
  apply apply_of_outcome (.refl formed)
  intro after done
  cases change with
  | permuteChildren parent order => cases marks
  | cleanAll => cases marks
  | plantRoot identity => cases done; exact formed.retains_plantRoot identity
  | appendChild parent identity =>
      obtain ⟨pair, added, same⟩ := exists_of_map_eq_ok done
      cases same
      exact formed.retains_appendChild added
  | removeSubtree id => cases done; exact formed.retains_removeSubtree id
  | replaceClasses id classes => exact formed.retains_replaceClasses done
  | insertClass id name => exact formed.retains_insertClass done
  | eraseClass id name => exact formed.retains_eraseClass done
  | replaceElementId id elementId => exact formed.retains_replaceElementId done
  | replaceInlineStyle id style => exact formed.retains_replaceInlineStyle done
  | writeFlags id changes => exact formed.retains_writeFlags done
  | replaceFlags id flags => exact formed.retains_replaceFlags done
  | dirtySubtree id => cases done; exact formed.retains_dirtySubtree id
  | giveFocus owner => cases done; exact formed.retains_giveFlag .focused owner
  | giveHover owner => cases done; exact formed.retains_giveFlag .hovered owner

theorem wellFormed_apply (formed : tree.WellFormed) (change : TreeChange) :
    (change.apply tree).WellFormed := by
  cases marks : change.marksAll with
  | true => exact (retains_apply formed marks).wellFormed
  | false =>
      apply apply_of_outcome formed
      intro after done
      cases change with
      | permuteChildren parent order => exact formed.permuteChildren done
      | cleanAll => cases done; exact (Tree.sameOutline_cleanAll tree).wellFormed formed
      | _ => cases marks

end TreeChange

namespace StyledTree

variable {styled built : StyledTree}

/-! ## Sheets and marks -/

theorem wellFormed_blank (sheet : Sheet) (config : Config) (first : NodeId) :
    (blank sheet config first).WellFormed :=
  ⟨Tree.wellFormed_empty first, rfl⟩

theorem wellFormed_forget (formed : styled.tree.WellFormed) (sheet : Sheet) :
    { styled.forgetCascade with sheet }.WellFormed where
  tree := (Tree.sameOutline_mapNodes styled.tree (fun node => { node with computed := none })
    fun _ => rfl).wellFormed formed
  selectors := rfl

theorem wellFormed_dirtyAll (formed : styled.WellFormed) : styled.dirtyAll.WellFormed where
  tree := (Tree.sameOutline_mapNodes styled.tree
    (fun node => { node.dirtied with computed := none }) fun _ => rfl).wellFormed formed.tree
  selectors := formed.selectors

theorem wellFormed_clearTree (formed : styled.WellFormed) : styled.clearTree.WellFormed where
  tree := Tree.wellFormed_empty _
  selectors := formed.selectors

/-! ## Builds -/

theorem appendChild_eq_ok {parent id : NodeId} {identity : Identity}
    (added : styled.appendChild parent identity = .ok (id, built)) :
    ∃ tree, styled.tree.appendChild parent identity = .ok (id, tree) ∧
      built = { styled with tree } := by
  rw [appendChild] at added
  obtain ⟨pair, done, same⟩ := exists_of_map_eq_ok added
  cases same
  exact ⟨pair.2, done, rfl⟩

theorem adopt?_eq_some {id : NodeId} {identity : Identity}
    (adopted : styled.adopt? id identity = some built) :
    built = styled ∨ ∃ tree, styled.tree.replaceClasses id identity.classes = .ok tree ∧
      built = { styled with tree } := by
  rw [adopt?] at adopted
  split at adopted
  · cases adopted
  · split at adopted
    · split at adopted
      · cases adopted
        exact .inl rfl
      · split at adopted
        · rename_i done
          cases adopted
          exact .inr ⟨_, done, rfl⟩
        · cases adopted
    · cases adopted

theorem keptByRebuild_wellFormed : KeptByRebuild WellFormed where
  append := by
    intro styled grown parent identity id formed added
    obtain ⟨tree, done, rfl⟩ := appendChild_eq_ok added
    exact formed.withTree (formed.tree.appendChild done)
  adopt := by
    intro styled adopted id identity formed done
    rcases adopt?_eq_some done with rfl | ⟨tree, replaced, rfl⟩
    · exact formed
    · exact formed.withTree (formed.tree.retains_replaceClasses replaced).wellFormed
  remove := by
    intro styled id formed
    exact (follows_removeSubtree formed.tree id).wellFormed formed
  permute := by
    intro styled parent order tree formed permuted
    exact formed.withTree (formed.tree.permuteChildren permuted)

/-- A build from scratch keeps what clearing the tree and planting a root give. -/
theorem holds_buildAnew {holds : StyledTree → Prop} (append : KeptByAppend holds) {view : View}
    {root : NodeId}
    (planted : holds
      { styled.clearTree with tree := (styled.clearTree.tree.plantRoot view.identity).2 })
    (done : styled.buildAnew view = .ok (root, built)) : holds built := by
  rw [buildAnew] at done
  obtain ⟨finished, below, same⟩ := exists_of_map_eq_ok done
  cases same
  exact holds_appendViews append view.children planted below

/-- A rebuild keeps what its operations keep, and what a build from scratch
starts with. -/
theorem holds_rebuild {holds : StyledTree → Prop} (kept : KeptByRebuild holds) {view : View}
    {root : NodeId} (before : holds styled)
    (planted : holds
      { styled.clearTree with tree := (styled.clearTree.tree.plantRoot view.identity).2 })
    (done : styled.rebuild view = .ok (root, built)) : holds built := by
  rcases rebuild_cases done with anew | ⟨adopted, -, adopting, aligned⟩
  · exact holds_buildAnew kept.append planted anew
  · obtain ⟨order, last, middle, views, finishing⟩ := exists_of_alignChildren aligned
    exact holds_finishChildren kept.remove kept.permute
      (holds_alignViews kept view.children (kept.adopt before adopting) views) finishing

theorem wellFormed_planted (formed : styled.WellFormed) (identity : Identity) :
    { styled.clearTree with tree := (styled.clearTree.tree.plantRoot identity).2 }.WellFormed := by
  have cleared := wellFormed_clearTree formed
  exact cleared.withTree (cleared.tree.plantRoot identity)

theorem wellFormed_buildAnew (formed : styled.WellFormed) {view : View} {root : NodeId}
    (done : styled.buildAnew view = .ok (root, built)) : built.WellFormed :=
  holds_buildAnew keptByRebuild_wellFormed.append (wellFormed_planted formed _) done

theorem wellFormed_rebuild (formed : styled.WellFormed) {view : View} {root : NodeId}
    (done : styled.rebuild view = .ok (root, built)) : built.WellFormed :=
  holds_rebuild keptByRebuild_wellFormed formed (wellFormed_planted formed _) done

/-- The sheet and the choices that go with it are no matter of building. -/
def Alike (styled other : StyledTree) : Prop :=
  other.config = styled.config ∧ other.sheet = styled.sheet ∧ other.selectors = styled.selectors

theorem keptByRebuild_alike (styled : StyledTree) : KeptByRebuild (Alike styled) where
  append := by
    intro before grown parent identity id alike added
    obtain ⟨tree, -, rfl⟩ := appendChild_eq_ok added
    exact alike
  adopt := by
    intro before adopted id identity alike done
    rcases adopt?_eq_some done with rfl | ⟨tree, -, rfl⟩
    · exact alike
    · exact alike
  remove := by
    intro before id alike
    exact alike
  permute := by
    intro before parent order tree alike _
    exact alike

theorem alike_rebuild {view : View} {root : NodeId}
    (done : styled.rebuild view = .ok (root, built)) : styled.Alike built :=
  holds_rebuild (keptByRebuild_alike styled) ⟨rfl, rfl, rfl⟩ ⟨rfl, rfl, rfl⟩ done

theorem alike_buildAnew {view : View} {root : NodeId}
    (done : styled.buildAnew view = .ok (root, built)) : styled.Alike built :=
  holds_buildAnew (keptByRebuild_alike styled).append ⟨rfl, rfl, rfl⟩ done

/-! ## Any run -/

/-- Every request keeps a styled tree well-formed. -/
theorem wellFormed_perform (formed : styled.WellFormed) (request : Request) :
    (styled.perform request).WellFormed := by
  cases request with
  | change change => exact formed.withTree (change.wellFormed_apply formed.tree)
  | replaceSheet sheet => exact @wellFormed_forget { styled with sheet } formed.tree sheet
  | editSheet edit => exact wellFormed_forget formed.tree _
  | dirtyAll => exact wellFormed_dirtyAll formed
  | dirtySubtree id => exact (follows_dirtySubtree formed.tree id).wellFormed formed
  | focusElement elementId => exact (follows_focusElement formed.tree elementId).wellFormed formed
  | hoverElement elementId => exact (follows_hoverElement formed.tree elementId).wellFormed formed
  | removeSubtree id => exact (follows_removeSubtree formed.tree id).wellFormed formed
  | clearTree => exact wellFormed_clearTree formed
  | buildFlat identity children =>
      rw [perform]
      split
      · rename_i done
        exact wellFormed_buildAnew formed done
      · exact formed
  | rebuild view =>
      rw [perform]
      split
      · rename_i done
        exact wellFormed_rebuild formed done
      · exact formed
  | ownStyle id => exact (sameContent_ownStyle styled id).wellFormed formed
  | inheritedStyle id => exact (sameContent_inheritedStyle styled id).wellFormed formed
  | refresh => exact (sameContent_refresh styled).wellFormed formed
  | refreshDown => exact (sameContent_refreshDown styled).wellFormed formed

theorem Run.wellFormed {allowed : StyledTree → Request → Prop} {sheet : Sheet} {config : Config}
    {first : NodeId} (run : Run allowed (blank sheet config first) styled) : styled.WellFormed :=
  run.invariant (wellFormed_blank sheet config first) fun formed _ =>
    wellFormed_perform formed _

/-! ## Runs in the inheriting mode -/

/-- The requests of the inheriting mode.  Nodes are not styled by themselves, marks
are not cleared, children are not reordered, and a view is built on an empty tree
only. -/
def Inheriting (styled : StyledTree) : Request → Prop
  | .change change => change.marksAll = true
  | .rebuild _ => styled.tree.root = none
  | .ownStyle _ => False
  | .replaceSheet _ | .editSheet _ | .dirtyAll | .dirtySubtree _ | .focusElement _
  | .hoverElement _ | .removeSubtree _ | .clearTree | .buildFlat _ _ | .inheritedStyle _
  | .refresh | .refreshDown => True

theorem keptByAppend_uncached : KeptByAppend Uncached := by
  intro styled grown parent identity id uncached added
  obtain ⟨tree, -, rfl⟩ := appendChild_eq_ok added
  exact uncached

theorem uncached_buildAnew {view : View} {root : NodeId}
    (done : styled.buildAnew view = .ok (root, built)) : built.Uncached :=
  holds_buildAnew keptByAppend_uncached (fun _ => rfl) done

/-- Requests of the inheriting mode keep a styled tree coherent. -/
theorem coherent_perform (formed : styled.WellFormed) (coherent : styled.Coherent)
    (inheritance : styled.config.inheritance = true) {request : Request}
    (permitted : Inheriting styled request) : (styled.perform request).Coherent := by
  cases request with
  | change change =>
      exact (Follows.of_retains styled (change.retains_apply formed.tree permitted)).coherent
        coherent
  | replaceSheet sheet => exact Uncached.coherent fun _ => rfl
  | editSheet edit => exact Uncached.coherent fun _ => rfl
  | dirtyAll => exact Uncached.coherent fun _ => rfl
  | dirtySubtree id => exact (follows_dirtySubtree formed.tree id).coherent coherent
  | focusElement elementId => exact (follows_focusElement formed.tree elementId).coherent coherent
  | hoverElement elementId => exact (follows_hoverElement formed.tree elementId).coherent coherent
  | removeSubtree id => exact (follows_removeSubtree formed.tree id).coherent coherent
  | clearTree => exact Uncached.coherent fun _ => rfl
  | buildFlat identity children =>
      rw [perform]
      split
      · rename_i done
        exact (uncached_buildAnew done).coherent
      · exact coherent
  | rebuild view =>
      have empty : styled.tree.root = none := permitted
      rw [perform, rebuild, empty]
      split
      · rename_i done
        exact (uncached_buildAnew done).coherent
      · exact coherent
  | ownStyle id => exact permitted.elim
  | inheritedStyle id => exact (answered_inheritedStyle formed coherent id).coherent
  | refresh =>
      rw [perform, refresh, if_pos inheritance]
      exact coherent_refreshDown formed coherent
  | refreshDown => exact coherent_refreshDown formed coherent

theorem config_perform (formed : styled.WellFormed) (request : Request) :
    (styled.perform request).config = styled.config := by
  cases request with
  | change change => rfl
  | replaceSheet sheet => rfl
  | editSheet edit => rfl
  | dirtyAll => rfl
  | dirtySubtree id => exact (follows_dirtySubtree formed.tree id).config
  | focusElement elementId => exact (follows_focusElement formed.tree elementId).config
  | hoverElement elementId => exact (follows_hoverElement formed.tree elementId).config
  | removeSubtree id => rfl
  | clearTree => rfl
  | buildFlat identity children =>
      rw [perform]
      split
      · rename_i done
        exact (alike_buildAnew done).1
      · rfl
  | rebuild view =>
      rw [perform]
      split
      · rename_i done
        exact (alike_rebuild done).1
      · rfl
  | ownStyle id => exact (sameContent_ownStyle styled id).config
  | inheritedStyle id => exact (sameContent_inheritedStyle styled id).config
  | refresh => exact (sameContent_refresh styled).config
  | refreshDown => exact (sameContent_refreshDown styled).config

/-- Where every node has a state of its own, a clean node's cached style is its style computed
from the root down without any cache, in every state that a run of the inheriting mode reaches,
and so is every style that is asked for with inheritance. -/
theorem cache_coherent_of_inheriting_run {sheet : Sheet} {config : Config} {first : NodeId}
    (inheritance : config.inheritance = true)
    (run : Run Inheriting (blank sheet config first) styled) :
    (∀ id node style, styled.tree.get? id = some node → node.flags.dirty = false →
      styled.styles.get? id = some style → styled.freshStyle id = .ok (some style)) ∧
    ∀ id, (styled.inheritedStyle id).1 = styled.freshStyle id := by
  have invariant : styled.WellFormed ∧ styled.Coherent ∧ styled.config.inheritance = true := by
    refine @Run.invariant _ _ _ (fun styled =>
      styled.WellFormed ∧ styled.Coherent ∧ styled.config.inheritance = true) run ?_ ?_
    · exact ⟨wellFormed_blank sheet config first, Uncached.coherent fun _ => rfl, inheritance⟩
    · intro before request kept permitted
      refine ⟨wellFormed_perform kept.1 request,
        coherent_perform kept.1 kept.2.1 kept.2.2 permitted, ?_⟩
      rw [config_perform kept.1 request]
      exact kept.2.2
  constructor
  · intro id node style found clear cached
    exact invariant.2.1 id style (trustedAt?_eq_some_iff.mpr ⟨⟨node, found, clear⟩, cached⟩)
  · intro id
    exact (answered_inheritedStyle invariant.1 invariant.2.1 id).answer_eq

/-- A button that is styled, gets a class that turns it red, and is asked for its
style again. -/
def reddened : StyledTree :=
  ((((blank (.ofRule "Button.hot" "color" "red") {} ⟨1⟩).perform
    (.rebuild (.widget { widgetType := "App" } [.widget { widgetType := "Button" } []]))).perform
    .refresh).perform
    (.change (.insertClass ⟨2⟩ "hot"))).perform
    (.inheritedStyle ⟨2⟩)

theorem reddened_coherent :
    ∃ style, reddened.styles.get? ⟨2⟩ = some style ∧ style.color.red = 255 ∧
      reddened.freshStyle ⟨2⟩ = .ok (some style) := by
  have run : Run Inheriting (blank (.ofRule "Button.hot" "color" "red") {} ⟨1⟩) reddened :=
    .next (.next (.next (.next .start rfl) trivial) rfl) trivial
  have red : (reddened.styles.get? ⟨2⟩).map (·.color.red) = some 255 := by decide +kernel
  have clean : (reddened.tree.get? ⟨2⟩).map (·.flags.dirty) = some false := by decide +kernel
  obtain ⟨style, cached, color⟩ := Option.map_eq_some_iff.mp red
  obtain ⟨node, found, clear⟩ := Option.map_eq_some_iff.mp clean
  exact ⟨style, cached, color,
    (cache_coherent_of_inheriting_run rfl run).1 ⟨2⟩ node style found clear cached⟩

/-- Two buttons that are given one state and styled.  Then both are disabled, since one of them
is, and the style of the first one is asked for. -/
def twinButtons : SharedStyledTree :=
  ((((SharedStyledTree.perform { styled := blank (.ofRule ":disabled" "color" "red") {} ⟨1⟩ }
    (.rebuild (.widget { widgetType := "App" }
      [.widget { widgetType := "Button" } [], .widget { widgetType := "Button" } []]))).shareState
    ⟨3⟩ ⟨2⟩).perform .refresh).perform
    (.change (.writeFlags ⟨2⟩ [("disabled", true)]))).perform
    (.inheritedStyle ⟨2⟩)

/-- The second button is clean then, with the style that it had before. -/
theorem twinButtons_stale :
    ∃ node style, twinButtons.styled.tree.get? ⟨3⟩ = some node ∧ node.flags.dirty = false ∧
      twinButtons.styled.styles.get? ⟨3⟩ = some style ∧
      twinButtons.styled.snapshot.freshStyle ⟨3⟩ ≠ .ok (some style) := by
  have clean : (twinButtons.styled.tree.get? ⟨3⟩).map (·.flags.dirty) = some false := by
    decide +kernel
  have black : (twinButtons.styled.styles.get? ⟨3⟩).map (·.color.red) = some 0 := by decide +kernel
  have red : (twinButtons.styled.snapshot.freshStyle ⟨3⟩).map (·.map (·.color.red)) =
      .ok (some 255) := by
    decide +kernel
  obtain ⟨node, found, clear⟩ := Option.map_eq_some_iff.mp clean
  obtain ⟨style, cached, color⟩ := Option.map_eq_some_iff.mp black
  refine ⟨node, style, found, clear, cached, ?_⟩
  intro fresh
  rw [fresh, Except.map, Option.map_some, color] at red
  cases red

end StyledTree

end WidgetStyle
