import WidgetStyle.Proofs.StyledTree.Alignment

/-!
# Rebuilding brings the tree in line

The ways in which a view gets its node, one equation for each, and what follows by
induction on the view: a rebuild of a well-formed tree never fails, and the tree
mirrors the view afterwards, whatever it was before.  Element ids may be repeated, in
the view as in the tree, and former children may clash with the views that would take
them.
-/

namespace WidgetStyle.StyledTree

variable {styled before middle after built : StyledTree} {parent id child : NodeId}
  {identity : Identity} {children views : List View}

/-! ## Taking over classes -/

/-- What a styled tree is after a node took over the classes of an identity. -/
structure Adopted (before after : StyledTree) (id : NodeId) (identity : Identity) : Prop where
  wellFormed : after.tree.WellFormed
  plain : before.tree.Plain → identity.classes.Nodup → after.tree.Plain
  links : before.tree.SameLinks after.tree
  confined : before.tree.Confined after.tree (· = id)
  agrees : ∃ node, after.tree.core? id = some node ∧ node.identity.Agrees identity

theorem adopted_adopt? (wellFormed : before.tree.WellFormed)
    (done : before.adopt? id identity = some after) : Adopted before after id identity := by
  rw [adopt?] at done
  split at done
  · cases done
  · rename_i node found
    have core := Tree.core?_of_get? found
    split at done
    · rename_i same
      split at done
      · rename_i names
        cases done
        exact ⟨wellFormed, fun plain _ => plain, .refl _, .refl _, node.core, core, same.1, same.2,
          Identity.mem_iff_of_sameNames names⟩
      · split at done
        · rename_i tree replaced
          cases done
          have reclassed := Tree.reclassed replaced
          have renamed := reclassed.core id
          rw [if_pos rfl, core] at renamed
          refine ⟨(wellFormed.retains_replaceClasses replaced).wellFormed,
            fun plain distinct => plain.reclass distinct replaced, reclassed.links,
            Tree.WellFormed.confined_reclass replaced, _, renamed, same.1, same.2, ?_⟩
          intro name
          rw [Identity.mem_foldl_insertName_iff]
          exact or_iff_right List.not_mem_nil
        · cases done
    · cases done

/-! ## Finishing -/

/-- What a styled tree is after the children of a node were brought in line. -/
structure Realigned (before after : StyledTree) (parent : NodeId) (views : List View) : Prop where
  wellFormed : after.tree.WellFormed
  plain : before.tree.Plain → View.AllProper views → after.tree.Plain
  confined : before.tree.Confined after.tree (before.tree.Below parent)
  hub : after.tree.core? parent = before.tree.core? parent
  mirrors : after.tree.MirrorsAll (after.tree.childrenOf parent) views

theorem dropUntaken_cons (styled : StyledTree) (taken rest : List NodeId) (id : NodeId) :
    styled.dropUntaken taken (id :: rest) =
      (if !taken.contains id && styled.tree.contains id then (styled.removeSubtree id).2
        else styled).dropUntaken taken rest :=
  rfl

/-- Dropping what is not taken removes the free children one by one, so what each removal keeps
is kept. -/
theorem dropUntaken_induction {motive : StyledTree → List NodeId → Prop} {old : FormerChildren}
    {taken order rest : List NodeId}
    (aligning : ∀ {after gone}, motive after gone → Aligning after parent old gone order)
    (remove : ∀ {after gone child}, motive after gone → child ∈ old.free gone →
      motive (after.removeSubtree child).2 (child :: gone))
    (distinct : rest.Nodup) (former : ∀ id, id ∈ rest → id ∈ old.ids) {gone : List NodeId}
    (waiting : ∀ id, id ∈ rest → (id ∈ gone ↔ id ∈ taken)) (start : motive styled gone) :
    ∃ goneLast, motive (styled.dropUntaken taken rest) goneLast ∧
      (∀ id, id ∈ gone → id ∈ goneLast) ∧ ∀ id, id ∈ rest → id ∈ goneLast := by
  induction rest generalizing styled gone with
  | nil => exact ⟨gone, start, fun _ member => member, fun _ member => by cases member⟩
  | cons id rest ih =>
      have split := List.nodup_cons.mp distinct
      have within : ∀ other, other ∈ rest → other ∈ old.ids := by
        intro other member
        exact former other (List.mem_cons_of_mem _ member)
      rw [dropUntaken_cons]
      by_cases kept : id ∈ taken
      · rw [List.contains_iff_mem.mpr kept]
        obtain ⟨goneLast, last, grows, covered⟩ := ih split.2 within
          (fun other member => waiting other (List.mem_cons_of_mem _ member)) start
        refine ⟨goneLast, last, grows, ?_⟩
        intro other member
        rcases List.mem_cons.mp member with rfl | later
        · exact grows other ((waiting other List.mem_cons_self).mpr kept)
        · exact covered other later
      · have free : id ∈ old.free gone := FormerChildren.mem_free_iff.mpr
          ⟨former id List.mem_cons_self, fun member =>
            kept ((waiting id List.mem_cons_self).mp member)⟩
        have known := Tree.contains_of_parentId? ((aligning start).parentId?_free free)
        have dropped : (!taken.contains id && styled.tree.contains id) = true := by
          rw [known, Bool.and_true, Bool.not_eq_true', Bool.eq_false_iff, ne_eq,
            List.contains_iff_mem]
          exact kept
        rw [if_pos dropped]
        obtain ⟨goneLast, last, grows, covered⟩ := ih split.2 within
          (by
            intro other member
            rw [← waiting other (List.mem_cons_of_mem _ member), List.mem_cons]
            apply or_iff_right
            intro same
            exact split.1 (same ▸ member)) (remove start free)
        refine ⟨goneLast, last, fun other member => grows other (List.mem_cons_of_mem _ member), ?_⟩
        intro other member
        rcases List.mem_cons.mp member with rfl | later
        · exact grows other List.mem_cons_self
        · exact covered other later

theorem aligned_dropUntaken {old : FormerChildren} {taken order rest gone : List NodeId}
    (distinct : rest.Nodup) (former : ∀ id, id ∈ rest → id ∈ old.ids)
    (waiting : ∀ id, id ∈ rest → (id ∈ gone ↔ id ∈ taken))
    (state : Aligning styled parent old gone order) :
    ∃ goneLast,
      Aligned styled (styled.dropUntaken taken rest) parent old gone goneLast order [] [] ∧
      ∀ id, id ∈ rest → id ∈ goneLast := by
  obtain ⟨goneLast, aligned, -, covered⟩ := dropUntaken_induction
    (motive := fun after last => Aligned styled after parent old gone last order [] [])
    (fun aligned => by simpa using aligned.state)
    (fun aligned free => .trans state aligned (.removed aligned.state free))
    distinct former waiting (.none state)
  exact ⟨goneLast, aligned, covered⟩

/-- What a styled tree is after the children of a node were finished: only the parent's list and
what is below the children that are still free was touched. -/
structure Finished (before after : StyledTree) (parent : NodeId) (old : FormerChildren)
    (taken ids : List NodeId) : Prop where
  wellFormed : after.tree.WellFormed
  plain : before.tree.Plain → after.tree.Plain
  confined : before.tree.Confined after.tree fun other =>
    other = parent ∨ ∃ child, child ∈ old.free taken ∧ before.tree.Below child other
  hub : after.tree.core? parent = before.tree.core? parent
  children : after.tree.childrenOf parent = ids

/-- Once all views have their nodes, dropping the rest and putting the children in
order cannot fail. -/
theorem exists_finishChildren {old : FormerChildren} {taken ids : List NodeId}
    (state : Aligning before parent old taken ids) :
    ∃ built, before.finishChildren parent old.ids taken ids = .ok built ∧
      Finished before built parent old taken ids := by
  obtain ⟨goneLast, dropped, covered⟩ := aligned_dropUntaken state.sound.distinct
    (fun _ member => member) (fun _ _ => Iff.rfl) state
  have empty : old.free goneLast = [] := by
    rw [List.eq_nil_iff_forall_not_mem]
    intro child free
    have parts := FormerChildren.mem_free_iff.mp free
    exact parts.2 (covered child parts.1)
  have perm := dropped.state.children
  rw [empty, List.nil_append, List.append_nil] at perm
  have wellFormed := dropped.state.wellFormed
  obtain ⟨tree, done⟩ : ∃ tree,
      (before.dropUntaken taken old.ids).tree.permuteChildren parent ids = .ok tree :=
    ⟨_, Tree.permuteChildren_eq_ok_iff.mpr ⟨dropped.state.known, perm.symm, rfl⟩⟩
  have permuted := wellFormed.permuted done
  refine ⟨{ before.dropUntaken taken old.ids with tree }, ?_, ?_⟩
  · rw [finishChildren, done]
    rfl
  · constructor
    · exact wellFormed.permuteChildren done
    · intro plain
      exact (dropped.plain plain trivial).permute wellFormed done
    · refine (dropped.confined_free.trans (wellFormed.confined_permute done)).mono ?_
      rintro other - (touched | same)
      · exact touched
      · exact .inl same
    · exact (permuted.core parent).trans dropped.hub
    · rw [permuted.children, if_pos rfl]

theorem realigned_finishChildren {old : FormerChildren} {taken ids : List NodeId}
    (start : Aligning before parent old [] [])
    (aligned : Aligned before middle parent old [] taken [] ids views) :
    ∃ built, middle.finishChildren parent old.ids taken ids = .ok built ∧
      Realigned before built parent views := by
  have state := aligned.state
  obtain ⟨built, done, finished⟩ := exists_finishChildren state
  refine ⟨built, done, finished.wellFormed, ?_, ?_, finished.hub.trans aligned.hub, ?_⟩
  · intro plain proper
    exact finished.plain (aligned.plain plain proper)
  · refine (aligned.confined.trans finished.confined).mono ?_
    intro other known touched
    rcases touched with (same | ⟨child, free, -, below⟩) | same | ⟨child, free, below⟩
    · exact same ▸ .top
    · exact .trans (.child (start.parentId?_free free) .top) below
    · exact same ▸ .top
    · exact .trans (.child (start.parentId?_free (aligned.free_before free)) .top)
        (aligned.confined.below start.wellFormed.toLinked known below)
  · rw [finished.children]
    apply aligned.mirrors.outside finished.confined state.wellFormed.toLinked
    intro top member other below
    exact state.untouched_order (List.mem_append_right _ member) below

/-! ## The node of a view -/

section Views

variable {old : FormerChildren} {taken order : List NodeId} {place : Nat}

/-- A free child that is kept with its subtree brought in line. -/
theorem Aligned.kept (state : Aligning before parent old taken order)
    (free : child ∈ old.free taken) (adopted : Adopted before middle child identity)
    (realigned : Realigned middle after child children) :
    Aligned before after parent old taken (child :: taken) order [child]
      [.widget identity children] := by
  have outside : ¬middle.tree.Below child parent := fun below =>
    state.not_below_free free (adopted.links.symm.below below)
  have different : parent ≠ child := fun same => outside (same ▸ .top)
  have present : middle.tree.contains parent = true :=
    (adopted.links.contains_eq parent).symm.trans state.known
  have hub : after.tree.core? parent = before.tree.core? parent := by
    rw [realigned.confined.core present outside, adopted.confined.core state.known different]
  have kept : after.tree.childrenOf parent = before.tree.childrenOf parent := by
    rw [realigned.confined.children present outside, ← adopted.links.children]
  obtain ⟨node, found, agrees⟩ := adopted.agrees
  constructor
  · constructor
    · exact realigned.wellFormed
    · exact (Tree.contains_eq_of_core?_eq hub).trans state.known
    · exact state.sound
    · rw [kept]
      exact state.children.trans (state.perm_take free)
  · intro plain proper
    exact realigned.plain (adopted.plain plain proper.1.1) proper.1.2
  · refine (adopted.confined.trans realigned.confined).mono ?_
    intro other _ touched
    refine .inr ⟨child, free, List.mem_cons_self, ?_⟩
    rcases touched with same | below
    · exact same ▸ .top
    · exact adopted.links.symm.below below
  · exact hub
  · intro other member
    exact List.mem_cons_of_mem _ member
  · rw [kept]
    exact List.filter_sublist
  · exact .cons (.widget (realigned.hub.trans found) agrees realigned.mirrors) .nil

theorem mem_free_of_chosen (state : Aligning styled parent old taken order)
    (chosen : styled.candidate? old taken place identity = some child) :
    child ∈ old.free taken := by
  obtain ⟨kept, untaken⟩ := Option.filter_eq_some_iff.mp chosen
  rw [Bool.not_eq_true', Bool.eq_false_iff, ne_eq, List.contains_iff_mem] at untaken
  exact FormerChildren.mem_free_iff.mpr ⟨mem_of_keepable? state.sound kept, untaken⟩

end Views

theorem alignChildren_of_alignViews {ids taken : List NodeId}
    (done : styled.alignViews parent (styled.formerChildren parent) [] 0 views =
      .ok (ids, taken, middle)) :
    styled.alignChildren parent views =
      middle.finishChildren parent (styled.formerChildren parent).ids taken ids := by
  rw [alignChildren]
  simp only [done]

mutual

theorem aligned_alignView {styled : StyledTree} {parent : NodeId} {old : FormerChildren}
    {taken order : List NodeId} (place : Nat) :
    (view : View) → Aligning styled parent old taken order →
      ∃ id takenLast built,
        styled.alignView parent old taken place view = .ok (id, takenLast, built) ∧
          Aligned styled built parent old taken takenLast order [id] [view]
  | .widget identity children => by
      intro state
      cases chosen : styled.candidate? old taken place identity with
      | none =>
          obtain ⟨id, built, done, extended⟩ := extended_appendView (.widget identity children)
            state.wellFormed state.known
          exact ⟨id, taken, built, (Obtained.made chosen done).alignView_eq,
            .made state extended⟩
      | some child =>
          have free := mem_free_of_chosen state chosen
          cases adopting : styled.adopt? child identity with
          | none =>
              have removed := Aligned.removed state free
              obtain ⟨id, built, done, extended⟩ := extended_appendView (.widget identity children)
                removed.state.wellFormed removed.state.known
              exact ⟨id, child :: taken, built,
                (Obtained.replaced chosen adopting done).alignView_eq,
                .trans state removed (.made removed.state extended)⟩
          | some middle =>
              have adopted := adopted_adopt? state.wellFormed adopting
              have link := state.parentId?_free free
              have known := (adopted.links.contains_eq child).symm.trans
                (Tree.contains_of_parentId? link)
              have start := Aligning.start adopted.wellFormed known
              obtain ⟨ids, takenLast, aligned, inner, steps⟩ :=
                aligned_alignViews 0 children start
              obtain ⟨built, done, realigned⟩ := realigned_finishChildren start steps
              rw [← alignChildren_of_alignViews inner] at done
              exact ⟨child, child :: taken, built,
                (Obtained.kept chosen adopting done).alignView_eq,
                .kept state free adopted realigned⟩

theorem aligned_alignViews {styled : StyledTree} {parent : NodeId} {old : FormerChildren}
    {taken order : List NodeId} (place : Nat) :
    (views : List View) → Aligning styled parent old taken order →
      ∃ ids takenLast built,
        styled.alignViews parent old taken place views = .ok (ids, takenLast, built) ∧
          Aligned styled built parent old taken takenLast order ids views
  | [] => by
      intro state
      refine ⟨[], taken, styled, ?_, .none state⟩
      rw [alignViews]
  | view :: rest => by
      intro state
      obtain ⟨id, takenMiddle, middle, first, aligned⟩ := aligned_alignView place view state
      obtain ⟨ids, takenLast, built, later, further⟩ :=
        aligned_alignViews (place + 1) rest aligned.state
      refine ⟨id :: ids, takenLast, built, ?_, .trans state aligned further⟩
      rw [alignViews, first]
      simp only [later]
      rfl

end

theorem exists_alignChildren (wellFormed : styled.tree.WellFormed)
    (known : styled.tree.contains parent = true) (views : List View) :
    ∃ built, styled.alignChildren parent views = .ok built ∧
      Realigned styled built parent views := by
  have start := Aligning.start wellFormed known
  obtain ⟨ids, taken, aligned, inner, steps⟩ := aligned_alignViews 0 views start
  rw [alignChildren_of_alignViews inner]
  exact realigned_finishChildren start steps

/-! ## Whole builds -/

/-- What a styled tree is after it was brought in line with a view. -/
structure Rebuilt (before after : StyledTree) (root : NodeId) (view : View) : Prop where
  wellFormed : after.tree.WellFormed
  plain : before.tree.Plain → view.Proper → after.tree.Plain
  rooted : after.tree.root = some root
  mirrors : after.tree.Mirrors root view

theorem exists_buildAnew (styled : StyledTree) (view : View) :
    ∃ root built, styled.buildAnew view = .ok (root, built) ∧ Rebuilt styled built root view := by
  rcases view with ⟨identity, children⟩
  have empty := Tree.wellFormed_empty styled.tree.nextId
  obtain ⟨registry, planted⟩ := empty.plantRoot_eq identity
  let node := Tree.newNode { nextId := styled.tree.nextId } identity none
  let tree : Tree :=
    { nodes := [node], root := some styled.tree.nextId, registry
      nextId := styled.tree.nextId.next }
  have found : tree.get? styled.tree.nextId = some node := by
    rw [Tree.get?, List.find?_cons]
    simp only [node, Tree.newNode, decide_true]
  have wellFormed : tree.WellFormed := by
    have formed := empty.plantRoot identity
    rwa [planted] at formed
  have plain (distinct : identity.classes.Nodup) : tree.Plain := by
    intro id core lookup
    obtain ⟨other, met, same⟩ := Option.map_eq_some_iff.mp lookup
    have only := List.mem_singleton.mp (Tree.mem_of_get? met)
    rw [← same, only]
    exact Tree.plain_newNode _ distinct none
  obtain ⟨made, built, done, extended⟩ := @extended_appendViews { styled.clearTree with tree }
    styled.tree.nextId children wellFormed (Tree.contains_of_get? found)
  refine ⟨styled.tree.nextId, built, ?_, extended.wellFormed, ?_, ?_, ?_⟩
  · rw [buildAnew]
    simp only [View.identity, View.children, clearTree, planted]
    simp only [clearTree, tree, node] at done
    rw [done]
    rfl
  · intro _ proper
    exact extended.plain (plain proper.1) proper.2
  · apply extended.wellFormed.rootOnly (extended.known (Tree.contains_of_get? found))
    rw [Tree.parentId?_eq_of_core?_eq extended.hub, Tree.parentId?_of_get? found]
    rfl
  · have core := extended.hub.trans (Tree.core?_of_get? found)
    refine .widget core ⟨rfl, rfl, fun _ => Iff.rfl⟩ ?_
    rw [extended.children, Tree.childrenOf_of_get? found]
    exact extended.mirrors

/-- A rebuild never fails, and the tree mirrors the view afterwards. -/
theorem exists_rebuild (wellFormed : styled.tree.WellFormed) (view : View) :
    ∃ root built, styled.rebuild view = .ok (root, built) ∧ Rebuilt styled built root view := by
  rw [rebuild]
  cases rooted : styled.tree.root with
  | none => exact exists_buildAnew styled view
  | some root =>
      simp only
      cases adopting : styled.adopt? root view.identity with
      | none => exact exists_buildAnew styled view
      | some middle =>
          rcases view with ⟨identity, children⟩
          have adopted := adopted_adopt? wellFormed adopting
          have known := (adopted.links.contains_eq root).symm.trans
            (wellFormed.rootFound rooted).1
          obtain ⟨built, done, realigned⟩ := exists_alignChildren adopted.wellFormed known children
          obtain ⟨node, found, agrees⟩ := adopted.agrees
          have parentless : built.tree.parentId? root = none := by
            rw [Tree.parentId?_eq_of_core?_eq realigned.hub, ← adopted.links.parents]
            exact (wellFormed.rootFound rooted).2
          have present := (Tree.contains_eq_of_core?_eq realigned.hub).trans known
          refine ⟨root, built, ?_, realigned.wellFormed, ?_,
            realigned.wellFormed.rootOnly present parentless,
            .widget (realigned.hub.trans found) agrees realigned.mirrors⟩
          · simp only [View.children]
            rw [done]
            rfl
          · intro plain proper
            exact realigned.plain (adopted.plain plain proper.1) proper.2

/-- The tree is just what builds make of the view. -/
structure Depicts (styled : StyledTree) (view : View) : Prop where
  wellFormed : styled.tree.WellFormed
  plain : styled.tree.Plain
  mirrors : ∃ root, styled.tree.root = some root ∧ styled.tree.Mirrors root view

theorem Rebuilt.depicts {root : NodeId} {view : View} (rebuilt : Rebuilt before after root view)
    (plain : before.tree.Plain) (proper : view.Proper) : Depicts after view :=
  ⟨rebuilt.wellFormed, rebuilt.plain plain proper, root, rebuilt.rooted, rebuilt.mirrors⟩

/-! ## Runs -/

/-- In every state that requests can lead to, a rebuild from any view succeeds; the id
that it gives is the root's, the tree mirrors the view from the root on, and the walk
from the root meets every node that there is. -/
theorem exists_rebuild_of_run {allowed : StyledTree → Request → Prop} {sheet : Sheet}
    {config : Config} {first : NodeId} (run : Run allowed (blank sheet config first) styled)
    (view : View) :
    ∃ root built, styled.rebuild view = .ok (root, built) ∧ built.tree.root = some root ∧
      built.tree.Mirrors root view ∧
      ∀ id, built.tree.contains id = true ↔ id ∈ built.tree.preorder := by
  obtain ⟨root, built, done, rebuilt⟩ := exists_rebuild run.wellFormed.tree view
  refine ⟨root, built, done, rebuilt.rooted, rebuilt.mirrors, ?_⟩
  intro id
  exact rebuilt.wellFormed.toLinked.mem_preorder_iff.symm

/-- A widget without widgets inside it. -/
def leaf (widgetType : String) (elementId : Option String) (classes : List String) : View :=
  .widget { widgetType, elementId, classes } []

/-- A tree with two buttons of one element id around a label. -/
def doubled : StyledTree :=
  ((blank {} {} ⟨1⟩).perform
    (.rebuild (.widget { widgetType := "App" }
      [leaf "Button" (some "a") [], leaf "Label" none [], leaf "Button" (some "a") []]))).perform
    (.change (.insertClass ⟨3⟩ "old"))

/-- A view in which a label claims the element id of the buttons before a button does. -/
def claimed : View :=
  .widget { widgetType := "App" }
    [leaf "Label" (some "a") [], leaf "Label" none ["new"], leaf "Button" (some "a") []]

/-- The label in the middle is kept, with other classes, and the rest is made anew. -/
theorem doubled_claimed :
    ∃ built, doubled.rebuild claimed = .ok (⟨1⟩, built) ∧ built.tree.Mirrors ⟨1⟩ claimed ∧
      built.tree.preorder = [⟨1⟩, ⟨5⟩, ⟨3⟩, ⟨6⟩] ∧ built.tree.contains ⟨2⟩ = false := by
  have run : Run (fun _ _ => True) (blank {} {} ⟨1⟩) doubled :=
    .next (.next .start trivial) trivial
  obtain ⟨root, built, done, rooted, mirrors, alive⟩ := exists_rebuild_of_run run claimed
  have outcome : (doubled.rebuild claimed).toOption.map
      (fun outcome => (outcome.1, outcome.2.tree.preorder)) =
        some (⟨1⟩, [⟨1⟩, ⟨5⟩, ⟨3⟩, ⟨6⟩]) := by
    decide +kernel
  rw [done] at outcome
  obtain ⟨rfl, walk⟩ := Prod.mk.inj (Option.some.inj outcome)
  refine ⟨built, done, mirrors, walk, ?_⟩
  rw [Bool.eq_false_iff, ne_eq, alive, walk]
  decide

end WidgetStyle.StyledTree
