import WidgetStyle.Proofs.Cascade.Changes
import WidgetStyle.Proofs.StyledTree.Requests

/-!
# Coherence of the cache

A styled tree is coherent when every style that it would hand out without
computing it, the cached style of a clean node, is the style of that node from
scratch.  Dropping styles and marking nodes can only make this easier, and what a
change of the tree leaves clean keeps its style from scratch.
-/

namespace WidgetStyle.StyledTree

/-- The style of a node that is handed out without being computed. -/
def trustedAt? (styled : StyledTree) (id : NodeId) : Option Style :=
  (styled.tree.get? id).bind styled.trusted?

/-- The style of a node computed from the root down against the sheet as it is. -/
def freshStyle (styled : StyledTree) (id : NodeId) : Except StyleError (Option Style) :=
  (Cascade.ofSheet styled.sheet styled.config).freshStyle styled.tree id

/-- The tree is well-formed, and the selectors in use are those of the sheet. -/
structure WellFormed (styled : StyledTree) : Prop where
  tree : styled.tree.WellFormed
  selectors : styled.selectorSet = SelectorSet.ofSheet styled.sheet

/-- What is handed out without being computed is the style from scratch. -/
def Coherent (styled : StyledTree) : Prop :=
  ∀ id style, styled.trustedAt? id = some style → styled.freshStyle id = .ok (some style)

theorem trustedAt?_eq_some_iff {styled : StyledTree} {id : NodeId} {style : Style} :
    styled.trustedAt? id = some style ↔
      styled.tree.IsClean id ∧ styled.styles.get? id = some style := by
  rw [trustedAt?]
  cases found : styled.tree.get? id with
  | none =>
      constructor
      · intro absurdity
        cases absurdity
      · intro parts
        obtain ⟨node, lookup, -⟩ := parts.1
        rw [found] at lookup
        cases lookup
  | some node =>
      rw [Option.bind_some, trusted?, Tree.id_of_get? found]
      constructor
      · intro trusted
        split at trusted
        · cases trusted
        · rename_i clear
          exact ⟨⟨node, found, by simpa using clear⟩, trusted⟩
      · intro parts
        obtain ⟨other, lookup, clear⟩ := parts.1
        rw [found] at lookup
        cases lookup
        rw [if_neg (by simp [clear])]
        exact parts.2

/-- Nothing is cached at all. -/
def Uncached (styled : StyledTree) : Prop :=
  ∀ id, styled.styles.get? id = none

theorem Uncached.trustedAt? {styled : StyledTree} (uncached : styled.Uncached) (id : NodeId) :
    styled.trustedAt? id = none := by
  apply Option.eq_none_iff_forall_ne_some.mpr
  intro style trusted
  have cached := (trustedAt?_eq_some_iff.mp trusted).2
  rw [uncached] at cached
  cases cached

theorem Uncached.coherent {styled : StyledTree} (uncached : styled.Uncached) :
    styled.Coherent := by
  intro id style trusted
  rw [uncached.trustedAt?] at trusted
  cases trusted

/-- The selectors in use are the same before and after they are read. -/
@[simp] theorem selectorSet_prepare (styled : StyledTree) :
    styled.prepare.selectorSet = styled.selectorSet := by
  rw [selectorSet, prepare]
  cases used : styled.selectorSet with
  | error excess =>
      rw [selectorSet] at used
      split at used
      · cases used
      · exact used
  | ok set => rfl

@[simp] theorem cascade_prepare (styled : StyledTree) : styled.prepare.cascade = styled.cascade := by
  rw [cascade, selectorSet_prepare]
  rfl

namespace WellFormed

variable {styled : StyledTree}

theorem cascade_eq (wellFormed : styled.WellFormed) :
    styled.cascade = .ofSheet styled.sheet styled.config := by
  rw [cascade, wellFormed.selectors, Cascade.ofSheet]

theorem prepare (wellFormed : styled.WellFormed) : styled.prepare.WellFormed where
  tree := wellFormed.tree
  selectors := (selectorSet_prepare styled).trans wellFormed.selectors

theorem withTree (wellFormed : styled.WellFormed) {tree : Tree} (formed : tree.WellFormed) :
    { styled with tree }.WellFormed where
  tree := formed
  selectors := wellFormed.selectors

end WellFormed

/-! ## Changes that keep coherence -/

/-- The styled tree after a change has the sheet and selectors that it had, its tree
retains what is left clean, and it has cached no further style. -/
structure Follows (before after : StyledTree) : Prop where
  sheet : after.sheet = before.sheet
  config : after.config = before.config
  selectors : after.selectors = before.selectors
  retains : Tree.Retains before.tree after.tree
  styles : ∀ {id style}, after.styles.get? id = some style → before.styles.get? id = some style

namespace Follows

variable {before middle after : StyledTree}

theorem refl (formed : before.tree.WellFormed) : Follows before before where
  sheet := rfl
  config := rfl
  selectors := rfl
  retains := .refl formed
  styles cached := cached

theorem trans (first : Follows before middle) (second : Follows middle after) :
    Follows before after where
  sheet := second.sheet.trans first.sheet
  config := second.config.trans first.config
  selectors := second.selectors.trans first.selectors
  retains := first.retains.trans second.retains
  styles cached := first.styles (second.styles cached)

theorem wellFormed (follows : Follows before after) (formed : before.WellFormed) :
    after.WellFormed where
  tree := follows.retains.wellFormed
  selectors := by
    rw [selectorSet, follows.selectors, follows.sheet]
    exact formed.selectors

theorem freshStyle_eq (follows : Follows before after) {id : NodeId}
    (clean : after.tree.IsClean id) : after.freshStyle id = before.freshStyle id := by
  rw [freshStyle, freshStyle, follows.sheet, follows.config]
  exact follows.retains.fresh _ clean

theorem coherent (follows : Follows before after) (coherent : before.Coherent) :
    after.Coherent := by
  intro id style trusted
  have parts := trustedAt?_eq_some_iff.mp trusted
  rw [follows.freshStyle_eq parts.1]
  apply coherent
  exact trustedAt?_eq_some_iff.mpr ⟨follows.retains.clean parts.1, follows.styles parts.2⟩

theorem of_retains (styled : StyledTree) {tree : Tree} (retains : styled.tree.Retains tree) :
    Follows styled { styled with tree } where
  sheet := rfl
  config := rfl
  selectors := rfl
  retains := retains
  styles cached := cached

end Follows

/-! ## Single operations -/

theorem sameOutline_dropStyle (styled : StyledTree) (id : NodeId) :
    Tree.SameOutline styled.tree (styled.dropStyle id).tree :=
  Tree.sameOutline_modify styled.tree id _ fun _ => rfl

theorem isClean_dropStyle_iff (styled : StyledTree) (id other : NodeId) :
    (styled.dropStyle id).tree.IsClean other ↔ styled.tree.IsClean other := by
  have lookup := Tree.get?_modify styled.tree id other
    (fun node => { node with computed := none }) fun _ => rfl
  unfold Tree.IsClean dropStyle
  rw [lookup]
  split
  · rename_i same
    rw [same]
    cases styled.tree.get? id with
    | none => simp
    | some node => simp
  · rfl

theorem follows_dropStyle {styled : StyledTree} (formed : styled.tree.WellFormed) (id : NodeId) :
    Follows styled (styled.dropStyle id) where
  sheet := rfl
  config := rfl
  selectors := rfl
  retains := .of_sameOutline (sameOutline_dropStyle styled id) formed
    (isClean_dropStyle_iff styled id _).mp
  styles := by
    intro other style cached
    have erased := Table.get?_erase styled.styles id other
    rw [dropStyle] at cached
    rw [erased] at cached
    split at cached
    · cases cached
    · exact cached

theorem follows_foldl_dropStyle {styled : StyledTree} (formed : styled.tree.WellFormed)
    (ids : List NodeId) : Follows styled (ids.foldl dropStyle styled) := by
  induction ids generalizing styled with
  | nil => exact .refl formed
  | cons id rest ih =>
      have first := follows_dropStyle formed id
      exact first.trans (ih first.retains.wellFormed)

theorem follows_dirtySubtree {styled : StyledTree} (formed : styled.tree.WellFormed)
    (id : NodeId) : Follows styled (styled.dirtySubtree id) := by
  rw [dirtySubtree]
  split
  · have stripped := follows_foldl_dropStyle formed (styled.tree.subtree id)
    exact stripped.trans (.of_retains _ (stripped.retains.wellFormed.retains_dirtySubtree id))
  · exact .refl formed

theorem follows_giveFlag {styled : StyledTree} (formed : styled.tree.WellFormed) (flag : Flag)
    (current : Option NodeId) (elementId : Option String) :
    Follows styled (styled.giveFlag flag current elementId).2 := by
  have moved : Follows styled
      { styled with
        tree := styled.tree.giveFlag flag (elementId.bind styled.tree.idOfElement?) } :=
    .of_retains _ (formed.retains_giveFlag flag _)
  rw [giveFlag]
  simp only
  split
  · exact moved
  · exact moved.trans (follows_foldl_dropStyle moved.retains.wellFormed _)

theorem follows_focusElement {styled : StyledTree} (formed : styled.tree.WellFormed)
    (elementId : Option String) : Follows styled (styled.focusElement elementId) := by
  have given := follows_giveFlag formed .focused styled.focused elementId
  exact ⟨given.sheet, given.config, given.selectors, given.retains, given.styles⟩

theorem follows_hoverElement {styled : StyledTree} (formed : styled.tree.WellFormed)
    (elementId : Option String) : Follows styled (styled.hoverElement elementId) := by
  have given := follows_giveFlag formed .hovered styled.hovered elementId
  exact ⟨given.sheet, given.config, given.selectors, given.retains, given.styles⟩

theorem get?_foldl_erase (styles : Table NodeId Style) (ids : List NodeId) (id : NodeId) :
    (ids.foldl (fun styles id => styles.erase id) styles).get? id =
      if id ∈ ids then none else styles.get? id := by
  induction ids generalizing styles with
  | nil => rw [List.foldl_nil, if_neg List.not_mem_nil]
  | cons first rest ih =>
      rw [List.foldl_cons, ih, Table.get?_erase]
      by_cases later : id ∈ rest
      · rw [if_pos later, if_pos (List.mem_cons_of_mem _ later)]
      · simp only [later, if_false, List.mem_cons, or_false]

/-- With a subtree go the cached styles of its nodes. -/
theorem get?_styles_removeSubtree {styled : StyledTree} (formed : styled.tree.WellFormed)
    {top : NodeId} (known : styled.tree.contains top = true) (id : NodeId) :
    (styled.removeSubtree top).2.styles.get? id =
      if id ∈ styled.tree.subtree top then none else styled.styles.get? id := by
  obtain ⟨node, found⟩ := Tree.contains_iff.mp known
  have erased := get?_foldl_erase styled.styles (styled.tree.removeSubtree top).1 id
  rw [removeSubtree]
  rw [erased, formed.removeSubtree_of_get? found]

theorem follows_removeSubtree {styled : StyledTree} (formed : styled.tree.WellFormed)
    (id : NodeId) : Follows styled (styled.removeSubtree id).2 where
  sheet := rfl
  config := rfl
  selectors := rfl
  retains := formed.retains_removeSubtree id
  styles := by
    intro other style cached
    have erased := get?_foldl_erase styled.styles (styled.tree.removeSubtree id).1 other
    rw [removeSubtree] at cached
    rw [erased] at cached
    split at cached
    · cases cached
    · exact cached

end WidgetStyle.StyledTree
