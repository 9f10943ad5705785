import WidgetStyle.Proofs.Cascade.Retention

/-!
# What each change of a tree retains

Every operation on a tree that does not reorder children retains the styles from
scratch of all nodes that it leaves clean.  A change of identity or state reaches
what is affected by the node, a change of inheritance only what is below it, and
a change of a node's children everything that is strictly below that node.
-/

namespace WidgetStyle.Tree

variable {tree after : Tree}

/-! ## Identity and state -/

/-- What a change of one node's looks leaves clean is not affected by the node. -/
theorem WellFormed.isClean_of_modify (wellFormed : tree.WellFormed) (id : NodeId)
    (change : Node → Node) (registry : Registry)
    (keepsId : ∀ node, (change node).id = node.id)
    (keepsParent : ∀ node, (change node).parent = node.parent)
    (keepsChildren : ∀ node, (change node).children = node.children) {other : NodeId}
    (cleaned : (dirtyDependents { tree.modify id change with registry } id).IsClean other) :
    tree.IsClean other ∧ ¬tree.Affects id other := by
  have registered : SameOutline (tree.modify id change)
      { tree.modify id change with registry } := ⟨rfl, rfl, rfl⟩
  have links := (sameLinks_modify tree id change keepsId keepsParent keepsChildren).trans
    registered.sameLinks
  have linked := links.linked wellFormed.toLinked
  have parts := (linked.isClean_dirtyDependents_iff id other).mp cleaned
  have unaffected : ¬tree.Affects id other := fun affects =>
    parts.2 (links.affects wellFormed.toLinked affects)
  have different : other ≠ id := fun equal => unaffected (equal ▸ affects_self tree id)
  obtain ⟨node, found, clear⟩ := parts.1
  have lookup : (tree.modify id change).get? other = some node := found
  rw [get?_modify _ _ _ _ keepsId, if_neg different] at lookup
  exact ⟨⟨node, lookup, clear⟩, unaffected⟩

/-- A change of one node's looks retains all that it leaves clean. -/
theorem WellFormed.retains_modify (wellFormed : tree.WellFormed) (id : NodeId)
    (change : Node → Node) (registry : Registry)
    (keepsId : ∀ node, (change node).id = node.id)
    (keepsParent : ∀ node, (change node).parent = node.parent)
    (keepsChildren : ∀ node, (change node).children = node.children)
    (keepsPlace : ∀ node parent, tree.get? id = some node → node.parent = some parent →
      (change node).placement = node.placement) :
    Retains tree (dirtyDependents { tree.modify id change with registry } id) := by
  have modified := wellFormed.modify id change keepsId keepsParent keepsChildren keepsPlace
  have registered : SameOutline (tree.modify id change)
      { tree.modify id change with registry } := ⟨rfl, rfl, rfl⟩
  have marked := sameOutline_dirtyDependents { tree.modify id change with registry } id
  have same := registered.trans marked
  have undisturbed :=
    wellFormed.undisturbed_modify id change keepsId keepsParent keepsChildren modified
  have clean : ∀ {other}, (dirtyDependents { tree.modify id change with registry } id).IsClean
      other → tree.IsClean other ∧ ¬tree.Affects id other :=
    wellFormed.isClean_of_modify id change registry keepsId keepsParent keepsChildren
  constructor
  · exact same.wellFormed modified
  · exact fun cleaned => (clean cleaned).1
  · intro cascade other cleaned
    have parts := clean cleaned
    rw [same.freshStyle_eq modified.toFormedBy]
    exact undisturbed.freshStyle_eq wellFormed.toFormedBy modified.toFormedBy cascade
      ⟨parts.1.contains, parts.2⟩

theorem WellFormed.retains_setIdentity (wellFormed : tree.WellFormed) {id : NodeId} {node : Node}
    (found : tree.get? id = some node) (identity : Identity) :
    Retains tree (tree.setIdentity node identity) := by
  rw [setIdentity, id_of_get? found]
  exact wellFormed.retains_modify id _ _ (fun _ => rfl) (fun _ => rfl) (fun _ => rfl)
    fun _ _ _ _ => rfl

/-- Whatever requires a node and then succeeds has found that node. -/
theorem require_map_eq_ok {sharing : Sharing} {tree : Tree sharing} {Result : Type} {id : NodeId}
    {result : Result} {next : Node → Result}
    (done : (tree.require id).map next = .ok result) :
    ∃ node, tree.get? id = some node ∧ result = next node := by
  rw [require] at done
  cases found : tree.get? id with
  | none => rw [found] at done; cases done
  | some node =>
      rw [found] at done
      cases done
      exact ⟨node, rfl, rfl⟩

theorem WellFormed.retains_replaceClasses (wellFormed : tree.WellFormed) {id : NodeId}
    {classes : List String} (done : tree.replaceClasses id classes = .ok after) :
    Retains tree after := by
  obtain ⟨node, found, rfl⟩ := require_map_eq_ok done
  exact wellFormed.retains_setIdentity found _

theorem WellFormed.retains_insertClass (wellFormed : tree.WellFormed) {id : NodeId}
    {name : String} (done : tree.insertClass id name = .ok after) : Retains tree after := by
  obtain ⟨node, found, rfl⟩ := require_map_eq_ok done
  split
  · exact .refl wellFormed
  · exact wellFormed.retains_setIdentity found _

theorem WellFormed.retains_eraseClass (wellFormed : tree.WellFormed) {id : NodeId}
    {name : String} (done : tree.eraseClass id name = .ok after) : Retains tree after := by
  obtain ⟨node, found, rfl⟩ := require_map_eq_ok done
  split
  · exact wellFormed.retains_setIdentity found _
  · exact .refl wellFormed

theorem WellFormed.retains_replaceElementId (wellFormed : tree.WellFormed) {id : NodeId}
    {elementId : Option String} (done : tree.replaceElementId id elementId = .ok after) :
    Retains tree after := by
  obtain ⟨node, found, rfl⟩ := require_map_eq_ok done
  exact wellFormed.retains_setIdentity found _

theorem WellFormed.retains_writeFlags (wellFormed : tree.WellFormed) {id : NodeId}
    {changes : List (String × Bool)} (done : tree.writeFlags id changes = .ok after) :
    Retains tree after := by
  rw [writeFlags] at done
  cases named : flagChanges changes with
  | error error => rw [named] at done; cases done
  | ok known =>
      rw [named] at done
      obtain ⟨node, -, rfl⟩ := require_map_eq_ok done
      exact wellFormed.retains_modify id _ tree.registry (fun _ => rfl) (fun _ => rfl)
        (fun _ => rfl) fun _ _ _ _ => rfl

/-- A node below the root is where its index says already, so that replacing its
flags does not move it. -/
theorem WellFormed.retains_replaceFlags (wellFormed : tree.WellFormed) {id : NodeId}
    {flags : Flags} (done : tree.replaceFlags id flags = .ok after) : Retains tree after := by
  obtain ⟨node, lookup, rfl⟩ := require_map_eq_ok done
  refine wellFormed.retains_modify id _ tree.registry (fun _ => rfl) (fun _ => rfl)
    (fun _ => rfl) ?_
  intro former parent found link
  rw [lookup] at found
  cases found
  obtain ⟨place, listed⟩ := wellFormed.exists_place ((parentId?_of_get? lookup).trans link)
  rw [wellFormed.placed listed lookup]
  rfl

theorem WellFormed.retains_turnFlag (wellFormed : tree.WellFormed) (flag : Flag) (value : Bool)
    (id : NodeId) : Retains tree (tree.turnFlag flag value id) := by
  rw [turnFlag]
  cases tree.get? id with
  | none => exact .refl wellFormed
  | some node =>
      simp only
      split
      · exact .refl wellFormed
      · exact wellFormed.retains_modify id _ tree.registry (fun _ => rfl) (fun _ => rfl)
          (fun _ => rfl) fun _ _ _ _ => rfl

theorem WellFormed.retains_foldl_turnFlag (wellFormed : tree.WellFormed) (flag : Flag)
    (value : Bool) (ids : List NodeId) :
    Retains tree (ids.foldl (fun result id => result.turnFlag flag value id) tree) := by
  induction ids generalizing tree with
  | nil => exact .refl wellFormed
  | cons id rest ih =>
      have first := wellFormed.retains_turnFlag flag value id
      exact first.trans (ih first.wellFormed)

theorem WellFormed.retains_giveFlag (wellFormed : tree.WellFormed) (flag : Flag)
    (owner : Option NodeId) : Retains tree (tree.giveFlag flag owner) := by
  have cleared := wellFormed.retains_foldl_turnFlag flag false
    ((tree.nodes.map (·.id)).filter fun id => decide (some id ≠ owner))
  cases owner with
  | none => exact cleared
  | some id => exact cleared.trans (cleared.wellFormed.retains_turnFlag flag true id)

/-- A change that keeps the flags of the node makes nothing clean. -/
theorem isClean_of_keepsFlags {id other : NodeId} {change : Node → Node}
    (cleaned : (tree.modify id change).IsClean other)
    (keepsId : ∀ node, (change node).id = node.id)
    (keepsFlags : ∀ node, (change node).flags = node.flags) : tree.IsClean other := by
  rcases cleaned with ⟨node, found, clear⟩
  rw [get?_modify tree id other change keepsId] at found
  split at found
  · rename_i same
    obtain ⟨former, formerFound, changed⟩ := Option.map_eq_some_iff.mp found
    rw [← changed, keepsFlags] at clear
    exact ⟨former, same ▸ formerFound, clear⟩
  · exact ⟨node, found, clear⟩

/-! ## Inline styles -/

/-- The tree with the inline style of a node replaced and nothing marked. -/
def inlined (tree : Tree) (id : NodeId) (style : Option Style) : Tree :=
  tree.modify id fun node => { node with inlineStyle := style }

theorem get?_inlined (tree : Tree) (id : NodeId) (style : Option Style) (other : NodeId) :
    (tree.inlined id style).get? other =
      if other = id then (tree.get? id).map fun node => { node with inlineStyle := style }
      else tree.get? other :=
  get?_modify tree id other _ fun _ => rfl

theorem sameLinks_inlined (tree : Tree) (id : NodeId) (style : Option Style) :
    SameLinks tree (tree.inlined id style) :=
  sameLinks_modify tree id _ (fun _ => rfl) (fun _ => rfl) fun _ => rfl

namespace WellFormed

variable {id : NodeId} {style : Option Style}

theorem inlined (wellFormed : tree.WellFormed) (id : NodeId) (style : Option Style) :
    (tree.inlined id style).WellFormed :=
  wellFormed.modify id _ (fun _ => rfl) (fun _ => rfl) (fun _ => rfl) fun _ _ _ _ => rfl

/-- Matching does not look at inline styles. -/
theorem resemble_inlined (wellFormed : tree.WellFormed) (id : NodeId) (style : Option Style) :
    Resemble tree (tree.inlined id style)
      fun first second => first = second ∧ tree.contains first = true where
  like := by
    rintro first _ ⟨rfl, known⟩
    obtain ⟨one, found⟩ := contains_iff.mp known
    rw [get?_inlined]
    split
    · rename_i same
      rw [← same, found]
      exact ⟨one, _, rfl, rfl, ⟨rfl, rfl, .refl _, fun _ _ => rfl, rfl⟩⟩
    · exact ⟨one, one, found, found, .of_face rfl⟩
  parent := by
    rintro first _ ⟨rfl, -⟩
    rw [← (sameLinks_inlined tree id style).parents]
    exact Undisturbed.related_of_kept fun _ link => wellFormed.toLinked.contains_parent link
  previous := by
    rintro first _ ⟨rfl, -⟩
    have links := sameLinks_inlined tree id style
    have formed := (wellFormed.inlined id style).toFormedBy
    rw [wellFormed.previousId?_eq formed (links.parents first).symm
      fun parent _ => (links.children parent).symm]
    refine Undisturbed.related_of_kept ?_
    intro other found
    obtain ⟨parent, place, listed, -⟩ := wellFormed.listed_of_previousId? found
    exact wellFormed.toLinked.contains_child (List.mem_of_getElem? listed)

/-- What is not below the node inherits nothing of its inline style. -/
theorem inherits_inlined (wellFormed : tree.WellFormed) (id : NodeId) (style : Option Style) :
    Inherits tree (tree.inlined id style)
      (fun first second => first = second ∧ tree.contains first = true)
      fun first second => first = second ∧ tree.contains first = true ∧ ¬tree.Below id first where
  resemble := wellFormed.resemble_inlined id style
  seen paired := ⟨paired.1, paired.2.1⟩
  inlineStyle := by
    rintro first _ one other ⟨rfl, -, outside⟩ found otherFound
    have different : first ≠ id := fun same => outside (same ▸ .top)
    rw [get?_inlined, if_neg different, found] at otherFound
    cases otherFound
    rfl
  parent := by
    rintro first _ ⟨rfl, -, outside⟩
    rw [← (sameLinks_inlined tree id style).parents]
    exact Undisturbed.related_of_kept fun parent link =>
      ⟨wellFormed.toLinked.contains_parent link, fun below => outside (.child link below)⟩

/-- An inline style is inherited from, but never matched. -/
theorem retains_replaceInlineStyle (wellFormed : tree.WellFormed)
    (done : tree.replaceInlineStyle id style = .ok after) : Retains tree after := by
  obtain ⟨node, -, rfl⟩ := require_map_eq_ok done
  have formed := wellFormed.inlined id style
  have links := sameLinks_inlined tree id style
  have marked := sameOutline_dirtySubtree (tree.inlined id style) id
  have clean : ∀ {other}, ((tree.inlined id style).dirtySubtree id).IsClean other →
      tree.IsClean other ∧ ¬tree.Below id other := by
    intro other cleaned
    have parts := (isClean_dirtySubtree_iff (tree.inlined id style) id other).mp cleaned
    exact ⟨isClean_of_keepsFlags parts.1 (fun _ => rfl) fun _ => rfl, fun below =>
      parts.2 (formed.toLinked.mem_subtree_iff.mpr (links.below below))⟩
  change Retains tree ((tree.inlined id style).dirtySubtree id)
  constructor
  · exact marked.wellFormed formed
  · exact fun cleaned => (clean cleaned).1
  · intro cascade other cleaned
    have parts := clean cleaned
    rw [marked.freshStyle_eq formed.toFormedBy]
    exact ((wellFormed.inherits_inlined id style).freshStyle_eq wellFormed.toFormedBy
      formed.toFormedBy cascade ⟨rfl, parts.1.contains, parts.2⟩).symm

end WellFormed

/-! ## Structure -/

/-- When only the children of one node change, and what is strictly below it, the
rest of the tree is left undisturbed. -/
theorem WellFormed.undisturbed_outside (wellFormed : tree.WellFormed)
    (afterFormed : after.WellFormed) (parent : NodeId)
    (face : ∀ id, tree.contains id = true → ¬tree.StrictlyBelow parent id →
      (after.get? id).map Node.face = (tree.get? id).map Node.face)
    (children : ∀ id, tree.contains id = true → ¬tree.StrictlyBelow parent id → id ≠ parent →
      after.childrenOf id = tree.childrenOf id) :
    Undisturbed tree after fun id => tree.contains id = true ∧ ¬tree.StrictlyBelow parent id where
  alive kept := kept.1
  face kept := face _ kept.1 kept.2
  parent := by
    intro id above kept link
    refine ⟨wellFormed.toLinked.contains_parent link, ?_⟩
    intro strict
    exact kept.2 ⟨above, link, strict.below⟩
  previous := by
    intro id other kept found
    have sameParent := wellFormed.parentId?_previous found
    obtain ⟨above, place, listed, -⟩ := wellFormed.listed_of_previousId? found
    refine ⟨wellFormed.toLinked.contains_child (List.mem_of_getElem? listed), ?_⟩
    intro strict
    rcases strict with ⟨upper, link, below⟩
    exact kept.2 ⟨upper, sameParent.symm.trans link, below⟩
  listed := by
    intro id kept
    apply wellFormed.previousId?_eq afterFormed.toFormedBy
      (parentId?_of_face (face id kept.1 kept.2))
    intro above link
    apply children above (wellFormed.toLinked.contains_parent link)
    · intro strict
      exact kept.2 ⟨above, link, strict.below⟩
    · intro same
      exact kept.2 ⟨above, link, same ▸ .top⟩

/-- A change of the children of a parent leaves nothing clean that is strictly below
the parent, and disturbs nothing else. -/
structure Sheltered (before after : Tree) (parent : NodeId) : Prop where
  undisturbed : Undisturbed before after fun id =>
    before.contains id = true ∧ ¬before.StrictlyBelow parent id
  clean : ∀ {id}, after.IsClean id → before.IsClean id ∧ ¬before.StrictlyBelow parent id

theorem Sheltered.retains {parent : NodeId} (sheltered : Sheltered tree after parent)
    (wellFormed : tree.WellFormed) (afterFormed : after.WellFormed) : Retains tree after := by
  apply Retains.of_undisturbed sheltered.undisturbed wellFormed afterFormed
  intro id cleaned
  have parts := sheltered.clean cleaned
  exact ⟨parts.1, parts.1.contains, parts.2⟩

/-- A change that shows in no face of the node shows in none. -/
theorem face_modify (tree : Tree) (id other : NodeId) (change : Node → Node)
    (keepsId : ∀ node, (change node).id = node.id)
    (keepsFace : ∀ node, (change node).face = node.face) :
    ((tree.modify id change).get? other).map Node.face = (tree.get? other).map Node.face := by
  rw [get?_modify tree id other change keepsId]
  split
  · rename_i same
    rw [same, Option.map_map]
    apply congrArg (Option.map · (tree.get? id))
    funext node
    exact keepsFace node
  · rfl

/-! ## A new child -/

section Append

variable {parent new : NodeId} {identity : Identity}

theorem face_grown (linked : tree.Linked) (known : tree.contains parent = true) {id : NodeId}
    (old : id ≠ tree.nextId) :
    ((tree.grown parent identity).get? id).map Node.face = (tree.get? id).map Node.face := by
  rw [linked.get?_grown known, if_neg old]
  split
  · rename_i same
    rw [same, Option.map_map]
    rfl
  · rfl

theorem isClean_of_grown (linked : tree.Linked) (known : tree.contains parent = true) {id : NodeId}
    (cleaned : (tree.grown parent identity).IsClean id) : tree.IsClean id := by
  rcases cleaned with ⟨node, lookup, clear⟩
  rw [linked.get?_grown known] at lookup
  split at lookup
  · cases lookup
    cases clear
  · split at lookup
    · rename_i same
      obtain ⟨former, formerFound, rfl⟩ := Option.map_eq_some_iff.mp lookup
      exact ⟨former, same ▸ formerFound, clear⟩
    · exact ⟨node, lookup, clear⟩

/-- A new child changes how many siblings the other children have. -/
theorem WellFormed.not_isClean_grown (wellFormed : tree.WellFormed)
    (known : tree.contains parent = true) (identity : Identity) {id : NodeId}
    (strict : tree.StrictlyBelow parent id) :
    ¬((tree.grown parent identity).placeChildren parent).IsClean id := by
  have linked := wellFormed.toLinked
  have grownLinked := linked.grown_linked known identity
  obtain ⟨child, link, below⟩ := Below.exists_child strict
  refine wellFormed.not_isClean_of_resized (grownLinked.childrenDistinct parent) ?_ ?_ ?_ ?_
    link ?_ below
  · rw [linked.childrenOf_grown known, if_pos rfl, List.length_append]
    exact Nat.succ_ne_self _
  · have ids := congrArg List.length (Linked.ids_grown tree parent identity)
    rw [List.length_map, List.length_append, List.length_map] at ids
    change tree.nodes.length ≤ (tree.grown parent identity).nodes.length
    rw [ids]
    exact Nat.le_add_right _ _
  · intro other _ apart
    rw [linked.childrenOf_grown known, if_neg apart]
  · rw [linked.childrenOf_grown known, if_pos rfl]
    exact List.mem_append_left _ (linked.childOf.mpr link)
  · rw [linked.get?_grown known, if_neg (linked.parent_ne_nextId (contains_of_parentId? link)),
      if_neg (linked.ne_parent link)]

/-- Nothing below the parent of a new child stays clean. -/
theorem WellFormed.sheltered_appendChild (wellFormed : tree.WellFormed)
    (added : tree.appendChild parent identity = .ok (new, after)) :
    Sheltered tree after parent := by
  have afterFormed := wellFormed.appendChild added
  cases found : tree.get? parent with
  | none => rw [appendChild_unknown found] at added; cases added
  | some parentNode =>
      have known := contains_of_get? found
      rw [appendChild_of_get? found] at added
      cases added
      have linked := wellFormed.toLinked
      have links := sameLinks_placeChildren (tree.grown parent identity) parent
      constructor
      · apply wellFormed.undisturbed_outside afterFormed parent
        · intro id alive apart
          rw [face_placeChildren_of_not_mem]
          · exact face_grown linked known (linked.parent_ne_nextId alive)
          · intro member
            rw [linked.childrenOf_grown known, if_pos rfl, List.mem_append,
              List.mem_singleton] at member
            rcases member with old | new
            · exact apart ⟨parent, linked.childOf.mp old, .top⟩
            · exact linked.parent_ne_nextId alive new
        · intro id alive apart different
          rw [← links.children, linked.childrenOf_grown known, if_neg different]
      · intro id cleaned
        exact ⟨isClean_of_grown linked known (isClean_of_placeChildren cleaned),
          fun strict => wellFormed.not_isClean_grown known identity strict cleaned⟩

theorem WellFormed.retains_appendChild (wellFormed : tree.WellFormed)
    (added : tree.appendChild parent identity = .ok (new, after)) : Retains tree after :=
  (wellFormed.sheltered_appendChild added).retains wellFormed (wellFormed.appendChild added)

end Append

/-! ## A child that is gone -/

section Remove

variable {parent id other : NodeId}

/-- What is not strictly below the parent is not below its child. -/
theorem not_below_child (link : tree.parentId? id = some parent)
    (apart : ¬tree.StrictlyBelow parent other) : ¬tree.Below id other := by
  intro below
  rcases below.cases_top with rfl | strict
  · exact apart ⟨parent, link, .top⟩
  · rcases strict with ⟨above, aboveLink, under⟩
    exact apart ⟨above, aboveLink, .trans (.child link .top) under⟩

theorem WellFormed.get?_removeSubtree_child (wellFormed : tree.WellFormed)
    (link : tree.parentId? id = some parent) (apart : ¬tree.Below id other) :
    (tree.removeSubtree id).2.get? other =
      ((tree.struck parent id).placeChildren parent).get? other := by
  obtain ⟨node, found⟩ := contains_iff.mp (contains_of_parentId? link)
  have nodeLink : node.parent = some parent := (parentId?_of_get? found).symm.trans link
  rw [wellFormed.get?_removeSubtree found, detach_child wellFormed.toLinkedBy found nodeLink,
    if_neg fun member => apart (wellFormed.toLinked.mem_subtree_iff.mp member)]

/-- Nothing below the parent of a child that is removed stays clean. -/
theorem WellFormed.sheltered_removeSubtree (wellFormed : tree.WellFormed)
    (link : tree.parentId? id = some parent) :
    Sheltered tree (tree.removeSubtree id).2 parent := by
  have linked := wellFormed.toLinked
  have removed := wellFormed.removed (contains_of_parentId? link)
  constructor
  · apply wellFormed.undisturbed_outside (wellFormed.removeSubtree id) parent
    · intro other _ apart
      rw [wellFormed.get?_removeSubtree_child link (not_below_child link apart),
        face_placeChildren_of_not_mem]
      · exact face_modify tree parent other _ (fun _ => rfl) fun _ => rfl
      · rw [linked.childrenOf_struck link]
        intro member
        exact apart ⟨parent, linked.childOf.mp (List.mem_of_mem_erase member), .top⟩
    · intro other _ apart different
      rw [removed.children (not_below_child link apart), linked.erase_childrenOf]
      rw [link]
      exact fun same => different (Option.some.inj same).symm
  · intro other cleaned
    have kept := ((removed.contains_iff linked.toLinkedBy).mp cleaned.contains).2
    have placed : ((tree.struck parent id).placeChildren parent).IsClean other := by
      rcases cleaned with ⟨node, found, clear⟩
      rw [wellFormed.get?_removeSubtree_child link kept] at found
      exact ⟨node, found, clear⟩
    have struck : (tree.struck parent id).IsClean other := isClean_of_placeChildren placed
    exact ⟨isClean_of_keepsFlags struck (fun _ => rfl) fun _ => rfl,
      fun strict => wellFormed.not_isClean_struck link strict kept placed⟩

end Remove

theorem WellFormed.retains_removeSubtree (wellFormed : tree.WellFormed) (id : NodeId) :
    Retains tree (tree.removeSubtree id).2 := by
  have afterFormed := wellFormed.removeSubtree id
  cases found : tree.get? id with
  | none =>
      rw [removeSubtree_unknown found]
      exact .refl wellFormed
  | some node =>
      cases link : tree.parentId? id with
      | none =>
          apply Retains.of_nothing_clean afterFormed
          intro other cleaned
          have rooted := wellFormed.rootOnly (contains_of_get? found) link
          have member := contains_iff_mem.mp cleaned.contains
          rw [wellFormed.nodes_removeSubtree_root rooted] at member
          cases member
      | some parent =>
          exact (wellFormed.sheltered_removeSubtree link).retains wellFormed afterFormed

/-- A tree with a new root has only that root, which is dirty. -/
theorem WellFormed.not_isClean_plantRoot (wellFormed : tree.WellFormed) (identity : Identity)
    (id : NodeId) : ¬(tree.plantRoot identity).2.IsClean id := by
  intro cleaned
  rcases cleaned with ⟨node, found, clear⟩
  have member := mem_of_get? found
  rw [wellFormed.nodes_plantRoot, List.mem_singleton] at member
  rw [member] at clear
  cases clear

theorem WellFormed.retains_plantRoot (wellFormed : tree.WellFormed) (identity : Identity) :
    Retains tree (tree.plantRoot identity).2 :=
  .of_nothing_clean (wellFormed.plantRoot identity) (wellFormed.not_isClean_plantRoot identity)

end WidgetStyle.Tree
