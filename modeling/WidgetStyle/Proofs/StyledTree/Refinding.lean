import WidgetStyle.Proofs.History.Naming
import WidgetStyle.Proofs.StyledTree.Choice
import WidgetStyle.Proofs.StyledTree.Retention

/-!
# Element ids during a rebuild

While a rebuild is under way two nodes may have one element id: one that is still to be
removed, and one that was made for the widget that has it now.  The registry then leads to
the new one, and so it still does when the old one goes.  A kept node that takes over
classes is entered anew, but then no new node has its element id, since no other widget has
it.  So as long as any node has an element id, the registry leads from it to some node that
has it.  In the end this is the only one, since the tree mirrors a view in which no two
widgets share an element id.
-/

namespace WidgetStyle

namespace Tree

variable {tree before after : Tree} {id new : NodeId} {identity : Identity} {gone : List Node}
  {name : String}

/-- No two nodes share an element id, and every node that has one is found by it. -/
structure Unambiguous (tree : Tree) : Prop where
  unshared : Registry.Unshared tree.identityOf?
  finds : tree.registry.Finds tree.identityOf?

theorem exists_of_elementIdOf? (bears : tree.elementIdOf? id = some name) (inhabited : name ≠ "") :
    ∃ identity, tree.identityOf? id = some identity ∧
      Registry.elementKey? identity = some name :=
  Option.bind_eq_some_iff.mp ((elementKey?_bind_eq_some_iff inhabited).mpr bears)

theorem contains_of_elementIdOf? (bears : tree.elementIdOf? id = some name) :
    tree.contains id = true := by
  obtain ⟨identity, found, -⟩ := Option.bind_eq_some_iff.mp bears
  obtain ⟨node, lookup, -⟩ := identityOf?_eq_some_iff.mp found
  exact contains_of_get? lookup

theorem elementIdOf?_eq_some_iff :
    tree.elementIdOf? id = some name ↔
      ∃ node, tree.get? id = some node ∧ node.identity.elementId = some name := by
  rw [elementIdOf?, identityOf?, Option.bind_map, Option.bind_eq_some_iff]
  rfl

theorem Unambiguous.same_bearer (unambiguous : tree.Unambiguous) (inhabited : name ≠ "")
    {other : NodeId} (first : tree.elementIdOf? id = some name)
    (second : tree.elementIdOf? other = some name) : id = other := by
  obtain ⟨identity, found, key⟩ := exists_of_elementIdOf? first inhabited
  obtain ⟨another, otherFound, otherKey⟩ := exists_of_elementIdOf? second inhabited
  exact unambiguous.unshared id other identity another name found otherFound key otherKey

/-! ## Element ids after a change -/

theorem Renewed.elementIdOf?_new (renewed : Renewed before after gone new identity) :
    after.elementIdOf? new = identity.elementId := by
  rw [elementIdOf?, renewed.identities, Function.update_self, Option.bind_some]

theorem Renewed.elementIdOf?_of_ne (renewed : Renewed before after gone new identity)
    (within : ∀ node ∈ gone, node.id = new) (different : id ≠ new) :
    after.elementIdOf? id = before.elementIdOf? id := by
  rw [elementIdOf?, renewed.identities, Function.update_of_ne different, Registry.without_apply,
    if_neg, elementIdOf?]
  intro member
  obtain ⟨node, listed, same⟩ := List.mem_map.mp member
  exact different (same ▸ within node listed)

theorem WellFormed.elementIdOf?_removeSubtree_eq_some_iff {top : NodeId}
    (formed : tree.WellFormed) (known : tree.contains top = true) :
    (tree.removeSubtree top).2.elementIdOf? id = some name ↔
      ¬tree.Below top id ∧ tree.elementIdOf? id = some name := by
  by_cases below : tree.Below top id
  · have gone := (formed.removed known).dropped below
    simp [below, elementIdOf?, identityOf?, gone]
  · have same := identityOf?_of_core?_eq (formed.core?_removeSubtree known below)
    simp [below, elementIdOf?, same]

/-! ## A tree of one node -/

theorem finds_empty (first : NodeId) :
    ({ nextId := first } : Tree).registry.Finds ({ nextId := first } : Tree).identityOf? := by
  intro _ _ _ found
  cases found

theorem unambiguous_plantRoot (first : NodeId) (distinct : identity.classes.Nodup) :
    (plantRoot { nextId := first } identity).2.Unambiguous := by
  have empty := wellFormed_empty first
  have single : (plantRoot { nextId := first } identity).2.elementKeys.Nodup := by
    rw [elementKeys, empty.nodes_plantRoot, List.filterMap_cons]
    split
    · exact .nil
    · exact List.nodup_singleton _
  exact ⟨unshared_of_elementKeys_nodup single,
    (empty.rebooked_plantRoot distinct).finds (finds_empty first) single⟩

/-! ## Element ids of a view -/

theorem MirrorsAll.map_elementIdOf? {stack visited : List NodeId} {views : List View}
    (mirrors : tree.MirrorsAll stack views) (walk : tree.Walk stack visited) :
    visited.map tree.elementIdOf? = (View.allIdentities views).map (·.elementId) := by
  induction walk generalizing views with
  | done =>
      cases mirrors
      rfl
  | @visit top _ _ _ ih =>
      cases mirrors with
      | cons first rest =>
          cases first with
          | @widget _ _ identity children found agrees below =>
              have own : tree.elementIdOf? top = identity.elementId := by
                obtain ⟨node, lookup, rfl⟩ := Option.map_eq_some_iff.mp found
                rw [elementIdOf?_of_get? lookup]
                exact agrees.elementId
              rw [List.map_cons, ih (below.append rest), own, View.allIdentities,
                View.identities, View.allIdentities_append, List.cons_append, List.map_cons]

/-- In a tree that mirrors a view no two nodes share an element id if no two widgets do. -/
theorem Mirrors.same_bearer {root other : NodeId} {view : View} (linked : tree.Linked)
    (rooted : tree.root = some root) (mirrors : tree.Mirrors root view)
    (distinct : (view.identities.filterMap Registry.elementKey?).Nodup) (inhabited : name ≠ "")
    (first : tree.elementIdOf? id = some name) (second : tree.elementIdOf? other = some name) :
    id = other := by
  have walk := linked.walk_subtree root
  have names := MirrorsAll.map_elementIdOf? (.cons mirrors .nil) walk
  rw [View.allIdentities, View.allIdentities, List.append_nil] at names
  have keys : view.identities.filterMap Registry.elementKey? =
      (tree.subtree root).filterMap fun id =>
        (tree.elementIdOf? id).filter fun name => !name.isEmpty := by
    have filtered := congrArg (List.filterMap fun found : Option String =>
      found.filter fun name => !name.isEmpty) names
    rw [List.filterMap_map, List.filterMap_map] at filtered
    exact filtered.symm
  rw [keys] at distinct
  have met {bearer : NodeId} (bears : tree.elementIdOf? bearer = some name) :
      bearer ∈ tree.subtree root :=
    linked.mem_subtree_iff.mpr (linked.below_root rooted (contains_of_elementIdOf? bears))
  have key {bearer : NodeId} (bears : tree.elementIdOf? bearer = some name) :
      (tree.elementIdOf? bearer).filter (fun name => !name.isEmpty) = some name := by
    simpa [bears] using inhabited
  exact eq_of_nodup_filterMap distinct (met first) (met second) (key first) (key second)

end Tree

namespace StyledTree

variable {start styled before after built : StyledTree} {id new top : NodeId} {node : Node}
  {identity : Identity} {done : List Identity} {name : String} {last : Option NodeId}
  {view : View}

theorem Retained.elementIdOf?_eq (retained : Retained before after id) :
    after.tree.elementIdOf? id = before.tree.elementIdOf? id := by
  obtain ⟨former, kept, found, reached, lasts⟩ := retained.node
  rw [Tree.elementIdOf?_of_get? found, Tree.elementIdOf?_of_get? reached, lasts.elementId]

/-- The old nodes that are left have the element ids that they had. -/
theorem Passes.elementIdOf?_eq (passes : Passes before after)
    (former : before.tree.contains id = true) (left : after.tree.contains id = true) :
    after.tree.elementIdOf? id = before.tree.elementIdOf? id := by
  rcases passes.fate former with retained | ⟨gone, -⟩
  · exact retained.elementIdOf?_eq
  · rw [gone] at left
    cases left

/-! ## Leading to a node -/

/-- The registry leads from the element id to the given node, which has it if any node has, and
which is new if any new node has it.  Those are made for widgets that were gone through. -/
structure Leading (start styled : StyledTree) (done : List Identity) (name : String)
    (last : Option NodeId) : Prop where
  leads : styled.tree.LeadsTo name last
  bearer : ∀ {id}, styled.tree.elementIdOf? id = some name →
    ∃ other, last = some other ∧ styled.tree.elementIdOf? other = some name ∧
      (start.tree.contains other = true → start.tree.contains id = true)
  claimed : ∀ {id}, styled.tree.elementIdOf? id = some name → start.tree.contains id = false →
    ∃ identity ∈ done, identity.elementId = some name

namespace Leading

theorem initial (registered : styled.tree.Registered) (unambiguous : styled.tree.Unambiguous)
    (inhabited : name ≠ "") :
    Leading styled styled [] name (styled.tree.idOfElement? name) where
  leads := by
    intro id
    constructor
    · intro found
      obtain ⟨identity, kept, key⟩ := registered.keeps.elements name id found
      exact ⟨found, Option.bind_eq_some_iff.mpr ⟨identity, kept, key⟩⟩
    · exact And.left
  bearer := by
    intro id bears
    obtain ⟨identity, found, key⟩ := Tree.exists_of_elementIdOf? bears inhabited
    exact ⟨id, unambiguous.finds id identity name found key, bears, fun known => known⟩
  claimed := by
    intro id bears unknown
    rw [Tree.contains_of_elementIdOf? bears] at unknown
    cases unknown

theorem more (leading : Leading start styled done name last) (identity : Identity) :
    Leading start styled (done ++ [identity]) name last where
  leads := leading.leads
  bearer := leading.bearer
  claimed bears new := by
    obtain ⟨other, member, named⟩ := leading.claimed bears new
    exact ⟨other, List.mem_append_left _ member, named⟩

theorem same (leading : Leading start before done name last)
    (entries : before.tree.SameEntries after.tree) : Leading start after done name last := by
  have names : after.tree.elementIdOf? = before.tree.elementIdOf? := by
    funext id
    rw [Tree.elementIdOf?, entries.identities, Tree.elementIdOf?]
  refine ⟨?_, by rw [names]; exact leading.bearer, by rw [names]; exact leading.claimed⟩
  rw [Tree.LeadsTo, entries.registry, entries.identities]
  exact leading.leads

/-- A node that is entered is led to if it has the element id.  Either the node is new, or no new
node has the element id. -/
theorem renewed {gone : List Node} {entered : Identity}
    (leading : Leading start before done name last) (inhabited : name ≠ "")
    (renewed : before.tree.Renewed after.tree gone new entered)
    (within : ∀ node ∈ gone, node.id = new) (named : entered.elementId = identity.elementId)
    (keeps : before.tree.elementIdOf? new = some name → identity.elementId = some name)
    (unclaimed : start.tree.contains new = true → identity.elementId = some name →
      ∀ other ∈ done, other.elementId ≠ some name) :
    Leading start after (done ++ [identity]) name
      (if after.tree.elementIdOf? new = some name then some new else last) where
  leads := leading.leads.renewed inhabited renewed
  bearer := by
    have asks : after.tree.elementIdOf? new = some name ↔ identity.elementId = some name := by
      rw [renewed.elementIdOf?_new, named]
    intro id bears
    by_cases own : after.tree.elementIdOf? new = some name
    · refine ⟨new, if_pos own, own, fun former => ?_⟩
      by_cases same : id = new
      · rwa [same]
      · rw [renewed.elementIdOf?_of_ne within same] at bears
        by_contra unknown
        obtain ⟨other, member, claims⟩ := leading.claimed bears (Bool.eq_false_iff.mpr unknown)
        exact unclaimed former (asks.mp own) other member claims
    · rw [if_neg own]
      have different : id ≠ new := fun same => own (same ▸ bears)
      rw [renewed.elementIdOf?_of_ne within different] at bears
      obtain ⟨other, led, bore, older⟩ := leading.bearer bears
      have apart : other ≠ new := by
        intro same
        rw [same] at bore
        exact own (asks.mpr (keeps bore))
      refine ⟨other, led, ?_, older⟩
      rwa [renewed.elementIdOf?_of_ne within apart]
  claimed := by
    intro id bears unknown
    by_cases same : id = new
    · rw [same, renewed.elementIdOf?_new, named] at bears
      exact ⟨identity, List.mem_append_right _ (List.mem_singleton_self _), bears⟩
    · rw [renewed.elementIdOf?_of_ne within same] at bears
      exact (leading.more identity).claimed bears unknown

/-- Removing old nodes, of which no two share the element id. -/
theorem removed (leading : Leading start before done name last) (formed : before.tree.WellFormed)
    (known : before.tree.contains top = true)
    (former : ∀ id, before.tree.Below top id → start.tree.contains id = true)
    (alone : ∀ {id other}, start.tree.contains id = true → start.tree.contains other = true →
      before.tree.elementIdOf? id = some name → before.tree.elementIdOf? other = some name →
        id = other) :
    Leading start (before.removeSubtree top).2 done name last where
  leads := by
    obtain ⟨gone, withdrawn⟩ := Tree.withdrawn_removeSubtree before.tree top
    exact leading.leads.withdrawn withdrawn
  bearer := by
    intro id bears
    obtain ⟨apart, bore⟩ := (formed.elementIdOf?_removeSubtree_eq_some_iff known).mp bears
    obtain ⟨other, led, named, older⟩ := leading.bearer bore
    refine ⟨other, led, ?_, older⟩
    refine (formed.elementIdOf?_removeSubtree_eq_some_iff known).mpr ⟨fun below => ?_, named⟩
    -- If that node went, it would be old, and so would this one, which then is the same node.
    have old := former other below
    exact apart (alone (older old) old bore named ▸ below)
  claimed bears :=
    leading.claimed ((formed.elementIdOf?_removeSubtree_eq_some_iff known).mp bears).2

/-- When no two nodes share the element id, it leads exactly to the node that has it. -/
theorem idOfElement?_eq_some_iff (leading : Leading start styled done name last)
    (inhabited : name ≠ "")
    (alone : ∀ {id other}, styled.tree.elementIdOf? id = some name →
      styled.tree.elementIdOf? other = some name → id = other) :
    styled.tree.idOfElement? name = some id ↔ styled.tree.elementIdOf? id = some name := by
  rw [Tree.idOfElement?, leading.leads id, Tree.elementKey?_bind_eq_some_iff inhabited]
  constructor
  · exact And.right
  · intro bears
    obtain ⟨other, led, named, -⟩ := leading.bearer bears
    exact ⟨led.trans (congrArg some (alone named bears)), bears⟩

end Leading

/-! ## Rebuilds -/

/-- The element id that the last of some widgets has is none of the others'. -/
theorem elementId_ne_of_nodup
    (distinct : ((done ++ [identity]).filterMap Registry.elementKey?).Nodup)
    (inhabited : name ≠ "") (asks : identity.elementId = some name) :
    ∀ other ∈ done, other.elementId ≠ some name := by
  intro other member named
  rw [List.filterMap_append, List.nodup_append] at distinct
  refine distinct.2.2 name (List.mem_filterMap.mpr ⟨other, member, ?_⟩) name
    (List.mem_filterMap.mpr ⟨identity, List.mem_singleton_self _, ?_⟩) rfl
  · exact Registry.elementKey?_eq_some_iff.mpr ⟨named, inhabited⟩
  · exact Registry.elementKey?_eq_some_iff.mpr ⟨asks, inhabited⟩

/-- At every step of a rebuild an element id leads to a node that has it, if any node has. -/
theorem Steps.leading (steps : Steps start done styled) (formed : start.tree.WellFormed)
    (registered : start.tree.Registered) (unambiguous : start.tree.Unambiguous)
    (inhabited : name ≠ "") (distinct : (done.filterMap Registry.elementKey?).Nodup) :
    ∃ last, Leading start styled done name last := by
  have earlier {done : List Identity} {identity : Identity}
      (distinct : ((done ++ [identity]).filterMap Registry.elementKey?).Nodup) :
      (done.filterMap Registry.elementKey?).Nodup := by
    rw [List.filterMap_append, List.nodup_append] at distinct
    exact distinct.1
  induction steps with
  | none => exact ⟨_, .initial registered unambiguous inhabited⟩
  | @append _ _ _ _ id identity steps added ih =>
      obtain ⟨last, leading⟩ := ih (earlier distinct)
      obtain ⟨tree, grown, rfl⟩ := appendChild_eq_ok added
      have before := steps.wellFormed formed
      have new := (before.appended grown).new_eq
      refine ⟨_, leading.renewed inhabited (before.renewed_appendChild grown) (by simp) rfl ?_ ?_⟩
      · intro bears
        have known := before.beforeNext (Tree.contains_of_elementIdOf? bears)
        rw [new] at known
        exact absurd known (Int.lt_irrefl _)
      · intro former
        have known := Int.lt_of_lt_of_le (formed.beforeNext former) (steps.passes formed).nextId
        rw [new] at known
        exact absurd known (Int.lt_irrefl _)
  | @adopt _ _ _ _ identity _ _ adopting ih =>
      obtain ⟨last, leading⟩ := ih (earlier distinct)
      obtain ⟨node, found, -, named, rfl | renamed⟩ := exists_of_adopt? adopting
      · exact ⟨last, leading.more _⟩
      · have renewed := Tree.renewed_setIdentity found
          { node.identity with classes := identity.classes.foldl Identity.insertName [] }
        rw [← renamed] at renewed
        refine ⟨_, leading.renewed inhabited renewed ?_ named ?_ ?_⟩
        · intro other member
          rw [List.mem_singleton.mp member, Tree.id_of_get? found]
        · intro bears
          rw [Tree.elementIdOf?_of_get? found] at bears
          exact named.symm.trans bears
        · intro _ asks
          exact elementId_ne_of_nodup distinct inhabited asks
  | @remove done before top steps known former ih =>
      obtain ⟨last, leading⟩ := ih distinct
      refine ⟨last, leading.removed (steps.wellFormed formed) known former ?_⟩
      intro id other old otherOld bears otherBears
      have passes := steps.passes formed
      rw [passes.elementIdOf?_eq old (Tree.contains_of_elementIdOf? bears)] at bears
      rw [passes.elementIdOf?_eq otherOld (Tree.contains_of_elementIdOf? otherBears)] at otherBears
      exact unambiguous.same_bearer inhabited bears otherBears
  | permute _ permuted ih =>
      obtain ⟨last, leading⟩ := ih distinct
      exact ⟨last, leading.same (Tree.sameEntries_permuteChildren permuted)⟩

theorem exists_leading_rebuild {root : NodeId} (orderly : styled.tree.Orderly)
    (unambiguous : styled.tree.Unambiguous) (proper : view.Proper)
    (distinct : (view.identities.filterMap Registry.elementKey?).Nodup) (inhabited : name ≠ "")
    (rebuilding : styled.rebuild view = .ok (root, built)) :
    ∃ start done last, Leading start built done name last := by
  rcases view with ⟨identity, children⟩
  rcases rebuild_cases rebuilding with anew | ⟨middle, rooted, adopting, aligning⟩
  · have empty := Tree.wellFormed_empty styled.tree.nextId
    have planted := (Tree.registered_empty styled.tree.nextId).rebooked
      (empty.rebooked_plantRoot proper.1)
    have inside : ((View.allIdentities children).filterMap Registry.elementKey?).Nodup :=
      distinct.sublist ((List.sublist_cons_self identity _).filterMap _)
    obtain ⟨last, leading⟩ := (steps_buildAnew anew).leading (empty.plantRoot identity) planted
      (Tree.unambiguous_plantRoot styled.tree.nextId proper.1) inhabited inside
    exact ⟨_, _, last, leading⟩
  · have formed := orderly.wellFormed
    obtain ⟨last, leading⟩ := (steps_rebuild formed rooted adopting aligning).leading formed
      orderly.toRegistered unambiguous inhabited distinct
    exact ⟨_, _, last, leading⟩

/-- After a rebuild of a tree in which every element id leads to the one node that has it, from a
view in which no two widgets share an element id, every element id leads to the one node that has
it again. -/
theorem rebuild_refinds (orderly : styled.tree.Orderly) (unambiguous : styled.tree.Unambiguous)
    (proper : view.Proper)
    (distinct : (view.identities.filterMap Registry.elementKey?).Nodup) :
    ∃ root built, styled.rebuild view = .ok (root, built) ∧
      ∀ name id, name ≠ "" → (built.tree.idOfElement? name = some id ↔
        ∃ node, built.tree.get? id = some node ∧ node.identity.elementId = some name) := by
  obtain ⟨root, built, done, rebuilt⟩ := exists_rebuild orderly.wellFormed view
  refine ⟨root, built, done, ?_⟩
  intro name id inhabited
  obtain ⟨_, _, _, leading⟩ :=
    exists_leading_rebuild orderly unambiguous proper distinct inhabited done
  rw [← Tree.elementIdOf?_eq_some_iff]
  apply leading.idOfElement?_eq_some_iff inhabited
  exact rebuilt.mirrors.same_bearer rebuilt.wellFormed.toLinked rebuilt.rooted distinct inhabited

/-- Two panels are made, and a button in the second one. -/
def furnish : List TreeChange :=
  [ .plantRoot { widgetType := "App" },
    .appendChild ⟨1⟩ { widgetType := "Panel", elementId := some "upper" },
    .appendChild ⟨1⟩ { widgetType := "Panel", elementId := some "lower" },
    .appendChild ⟨3⟩ { widgetType := "Button", elementId := some "ok" } ]

/-- The two panels. -/
def drawers : StyledTree where
  tree := TreeChange.replay { nextId := ⟨1⟩ } furnish

/-- The panels with the button in the first one, and with a class for the second one. -/
def rearranged : View :=
  .widget { widgetType := "App" }
    [ .widget { widgetType := "Panel", elementId := some "upper" } [leaf "Button" (some "ok") []],
      leaf "Panel" (some "lower") ["wide"] ]

/-- The new button is there before the old one goes, and then it is found by their element id. -/
theorem drawers_rearranged :
    ∃ root built, drawers.rebuild rearranged = .ok (root, built) ∧
      built.tree.contains ⟨4⟩ = false ∧ built.tree.idOfElement? "ok" = some ⟨5⟩ ∧
      built.tree.idOfElement? "lower" = some ⟨3⟩ := by
  have once : ∀ change ∈ furnish, change.ListsClassesOnce := by
    simp [furnish, TreeChange.ListsClassesOnce]
  have apart : ∀ moment ∈ TreeChange.moments { nextId := ⟨1⟩ } furnish,
      moment.elementKeys.Nodup := by
    decide +kernel
  have orderly : drawers.tree.Orderly := Tree.orderly_replay ⟨1⟩ once
  have unambiguous : drawers.tree.Unambiguous :=
    ⟨Tree.unshared_of_elementKeys_nodup (by decide +kernel),
      TreeChange.finds_replay (Tree.wellFormed_empty ⟨1⟩) (Tree.registered_empty ⟨1⟩)
        (Tree.finds_empty ⟨1⟩) once apart⟩
  have proper : rearranged.Proper := by simp [rearranged, leaf, View.Proper, View.AllProper]
  obtain ⟨root, built, done, refinds⟩ :=
    rebuild_refinds orderly unambiguous proper (by decide +kernel)
  have outcome : (drawers.rebuild rearranged).toOption.map
      (fun outcome => (outcome.2.tree.contains ⟨4⟩,
        [⟨5⟩, ⟨3⟩].map outcome.2.tree.elementIdOf?)) =
        some (false, [some "ok", some "lower"]) := by
    decide +kernel
  rw [done] at outcome
  simp only [Except.toOption, Option.map_some, Option.some.injEq, Prod.mk.injEq, List.map_cons,
    List.cons.injEq] at outcome
  obtain ⟨gone, button, panel, -⟩ := outcome
  exact ⟨root, built, done, gone,
    (refinds "ok" ⟨5⟩ (by decide)).mpr (Tree.elementIdOf?_eq_some_iff.mp button),
    (refinds "lower" ⟨3⟩ (by decide)).mpr (Tree.elementIdOf?_eq_some_iff.mp panel)⟩

end StyledTree

end WidgetStyle
