import WidgetStyle.Proofs.StyledTree.Choice
import WidgetStyle.Proofs.StyledTree.Retention

/-!
# Nodes that a rebuild reuses

In a tree and a view in which no two siblings share an element id, no two widgets ask for
one child.  So each widget gets the child that it asks for if their types agree, and else a
new node.  It is chosen among the children as they were before the rebuild, since nothing
below a child is touched before the child is kept.  Kept nodes stay what they were but for
their classes, and all other nodes leave no trace.
-/

namespace WidgetStyle

namespace StyledTree

variable {start : Tree} {styled before after built middle : StyledTree} {parent id child : NodeId}
  {old : FormerChildren} {taken takenLast order ids : List NodeId} {place : Nat}
  {identity : Identity} {children views : List View} {view : View}

/-! ## The children at the start -/

/-- The former children are those at the start, and they are found by their element ids. -/
structure Snapshot (start : Tree) (parent : NodeId) (old : FormerChildren) : Prop where
  ids : old.ids = start.childrenOf parent
  named : ∀ {name child}, old.byElementId.get? name = some child ↔
    child ∈ start.childrenOf parent ∧
      ∃ own, start.identityOf? child = some own ∧ own.elementId = some name

/-- Children that are as they were are found as they would have been found at the start, if no
two of them share an element id. -/
theorem snapshot_formerChildren (same : styled.tree.childrenOf parent = start.childrenOf parent)
    (intact : Intact start styled (styled.formerChildren parent) [])
    (apart : (start.childrenOf parent).Pairwise start.Apart) :
    Snapshot start parent (styled.formerChildren parent) where
  ids := same
  named := by
    have identities : ∀ child, child ∈ start.childrenOf parent →
        styled.tree.identityOf? child = start.identityOf? child := by
      intro child listed
      have free : child ∈ (styled.formerChildren parent).free [] := by
        rw [FormerChildren.free_nil, formerChildren, same]
        exact listed
      exact (intact child child free .top).identityOf?_eq
    intro name child
    constructor
    · intro found
      obtain ⟨listed, node, lookup, named⟩ := exists_of_formerChildren found
      rw [same] at listed
      refine ⟨listed, node.identity, ?_, named⟩
      rw [← identities child listed]
      exact Tree.identityOf?_of_get? lookup
    · rintro ⟨listed, own, found, named⟩
      have met := found
      rw [← identities child listed] at met
      obtain ⟨node, lookup, rfl⟩ := Tree.identityOf?_eq_some_iff.mp met
      apply get?_formerChildren (same ▸ listed) lookup named
      intro other among another otherLookup shared
      rw [same] at among
      have otherMet := Tree.identityOf?_of_get? otherLookup
      rw [identities other among] at otherMet
      by_contra different
      obtain ⟨startNode, startFound, startSame⟩ := Tree.identityOf?_eq_some_iff.mp found
      obtain ⟨otherNode, otherFound, otherSame⟩ := Tree.identityOf?_eq_some_iff.mp otherMet
      exact apart.forall among listed different name otherNode startNode otherFound startFound
        (otherSame ▸ shared) (startSame ▸ named)

/-! ## The child that a widget gets -/

theorem asksFor_of_candidate? (state : Aligning styled parent old taken order)
    (snapshot : Snapshot start parent old) (intact : Intact start styled old taken)
    (chosen : styled.candidate? old taken place identity = some child) :
    start.AsksFor parent place identity child := by
  have free := mem_free_of_chosen state chosen
  have same := (intact child child free .top).identityOf?_eq
  obtain ⟨kept, -⟩ := Option.filter_eq_some_iff.mp chosen
  rw [keepable?] at kept
  cases asked : identity.elementId with
  | some name =>
      rw [asked] at kept
      obtain ⟨listed, own, found, named⟩ := snapshot.named.mp kept
      exact ⟨own, found, named.trans asked.symm, by rwa [asked]⟩
  | none =>
      rw [asked] at kept
      simp only at kept
      split at kept
      · cases kept
      · rename_i node lookup
        obtain ⟨other, listed, found⟩ := Option.bind_eq_some_iff.mp lookup
        split at kept
        · rename_i both
          cases kept
          rw [Tree.id_of_get? found] at same ⊢
          rw [snapshot.ids] at listed
          refine ⟨node.identity, ?_, both.1.trans asked.symm, by rwa [asked]⟩
          rw [← same]
          exact Tree.identityOf?_of_get? found
        · cases kept

theorem candidate?_of_reusable (snapshot : Snapshot start parent old)
    (intact : Intact start styled old taken) (untaken : child ∉ taken)
    (reusable : start.Reusable parent place identity child) :
    styled.candidate? old taken place identity = some child := by
  have listed := reusable.1.mem_childrenOf
  obtain ⟨⟨own, found, named, placed⟩, again, foundAgain, typed⟩ := reusable
  rw [found] at foundAgain
  cases foundAgain
  have free : child ∈ old.free taken :=
    FormerChildren.mem_free_iff.mpr ⟨snapshot.ids ▸ listed, untaken⟩
  have met := found
  rw [← (intact child child free .top).identityOf?_eq] at met
  obtain ⟨node, lookup, identified⟩ := Tree.identityOf?_eq_some_iff.mp met
  apply candidate?_of_keepable? _ untaken
  rw [keepable?]
  cases asked : identity.elementId with
  | some name => exact snapshot.named.mpr ⟨listed, own, found, named.trans asked⟩
  | none =>
      rw [asked] at placed named
      simp only at placed
      simp [snapshot.ids, placed, lookup, identified, named, typed, Tree.id_of_get? lookup]

/-- A known node takes over the classes of an identity of its type and with its element id. -/
theorem exists_adopt? {own : Identity} (found : styled.tree.identityOf? id = some own)
    (typed : own.widgetType = identity.widgetType) (named : own.elementId = identity.elementId) :
    ∃ adopted, styled.adopt? id identity = some adopted := by
  obtain ⟨node, lookup, rfl⟩ := Tree.identityOf?_eq_some_iff.mp found
  rw [adopt?, lookup]
  simp only [typed, named, and_self, if_true]
  split
  · exact ⟨_, rfl⟩
  · simp only [Tree.replaceClasses, Tree.require, lookup]
    exact ⟨_, rfl⟩

/-- A child that can be reused is not refused. -/
theorem exists_adopt?_of_reusable (same : start.SameAt styled.tree child)
    (reusable : start.Reusable parent place identity child) :
    ∃ adopted, styled.adopt? child identity = some adopted := by
  obtain ⟨⟨own, found, named, -⟩, _, foundAgain, typed⟩ := reusable
  rw [found] at foundAgain
  cases foundAgain
  rw [← same.identityOf?_eq] at found
  exact exists_adopt? found typed named

/-- No child that a widget from the given place on asks for is taken. -/
def Unclaimed (start : Tree) (parent : NodeId) (taken : List NodeId) (place : Nat)
    (views : List View) : Prop :=
  ∀ index view child, views[index]? = some view →
    start.AsksFor parent (place + index) view.identity child → child ∉ taken

/-- What is known when a widget has its node: the node is chosen for it, nothing is taken that
it did not ask for, and below the node former nodes have their children chosen too. -/
structure Served (start : Tree) (built : StyledTree) (parent : NodeId)
    (taken takenLast : List NodeId) (place : Nat) (view : View) (id : NodeId) : Prop where
  chosen : start.Chosen parent place view.identity id
  asked : ∀ child, child ∈ takenLast →
    child ∈ taken ∨ start.AsksFor parent place view.identity child
  reuses : start.Reuses built.tree id view

/-- A node that is made for a view is new, and so is all that is below it. -/
theorem made_new (startLinked : start.Linked) (wellFormed : before.tree.WellFormed)
    (known : before.tree.contains parent = true)
    (older : start.nextId.value ≤ before.tree.nextId.value)
    (added : before.appendView parent view = .ok (id, after)) :
    start.nextId.value ≤ id.value ∧ start.Reuses after.tree id view := by
  obtain ⟨_, _, again, extended⟩ := extended_appendView view wellFormed known
  rw [added] at again
  cases again
  have new := extended.not_known wellFormed (List.mem_singleton_self id)
  have present := Tree.contains_of_parentId? (extended.parentId?_made (List.mem_singleton_self id))
  constructor
  · by_contra former
    exact new (extended.confined.former present (by omega)).1
  · intro other shown stands former
    have below := stands.under extended.wellFormed.toLinked
    have alive := Tree.LinkedBy.contains_below present below
    have again := extended.confined.former alive
      (Int.lt_of_lt_of_le (startLinked.beforeNext former) older)
    exact absurd again.1 (extended.confined.not_known_below wellFormed.toLinked new below)

/-- When the children of a node were chosen for some widgets, this is still so once they are
finished. -/
theorem reuses_alignChildren (state : Aligning styled parent (styled.formerChildren parent) [] [])
    (aligning : styled.alignChildren parent views = .ok built)
    (through : ∀ {middle ids taken},
      styled.alignViews parent (styled.formerChildren parent) [] 0 views =
        .ok (ids, taken, middle) → ∀ place id view, ids[place]? = some id →
          views[place]? = some view → start.Chosen parent place view.identity id ∧
            start.Reuses middle.tree id view) :
    start.Reuses built.tree parent (.widget identity views) := by
  obtain ⟨ids, taken, middle, inner, finishing⟩ := exists_of_alignChildren aligning
  obtain ⟨_, _, _, again, aligned⟩ := aligned_alignViews 0 views state
  rw [inner] at again
  cases again
  have settled : Aligning middle parent _ taken ids := aligned.state
  obtain ⟨_, done, finished⟩ := exists_finishChildren settled
  rw [finishing] at done
  cases done
  intro id shown stands former place child view listed inside
  rcases stands.cases_top with ⟨rfl, rfl⟩ | ⟨first, top, outer, firstListed, firstInside, onwards⟩
  · rw [finished.children] at listed
    exact (through inner place child view listed inside).1
  · rw [finished.children] at firstListed
    have member := List.mem_of_getElem? firstListed
    have known := Tree.contains_of_parentId? (aligned.state.parentId?_order member)
    have kept := (through inner first top outer firstListed firstInside).2.outside
      finished.confined aligned.state.wellFormed.toLinked known fun _ below =>
        aligned.state.untouched_order member below
    exact kept id shown onwards former place child view listed inside

mutual

/-- Aligning a view serves its widget, if what it asks for is not taken and what is below the free
children is as it was at the start. -/
theorem served_alignView {start : Tree} (startFormed : start.WellFormed)
    (startApart : ∀ id, (start.childrenOf id).Pairwise start.Apart) {styled built : StyledTree}
    {parent id : NodeId} {old : FormerChildren} {taken takenLast order : List NodeId}
    {place : Nat} :
    (view : View) → view.SiblingsApart → Aligning styled parent old taken order →
      Snapshot start parent old → Intact start styled old taken →
      start.nextId.value ≤ styled.tree.nextId.value →
      (∀ child, start.AsksFor parent place view.identity child → child ∉ taken) →
      styled.alignView parent old taken place view = .ok (id, takenLast, built) →
      Served start built parent taken takenLast place view id
  | .widget identity children => by
      intro apart state snapshot intact older unclaimed aligning
      have startLinked := startFormed.toLinked
      cases obtained_of_alignView aligning with
      | made chosen added =>
          have new := made_new startLinked state.wellFormed state.known older added
          refine ⟨.inr ⟨?_, new.1⟩, fun _ member => .inl member, new.2⟩
          intro other reusable
          have free := candidate?_of_reusable snapshot intact (unclaimed other reusable.1) reusable
          cases chosen.symm.trans free
      | @replaced child _ _ chosen refused added =>
          have free := mem_free_of_chosen state chosen
          have removed := Aligned.removed state free
          have new := made_new startLinked removed.state.wellFormed removed.state.known
            (Int.le_trans older removed.confined.nextId) added
          refine ⟨.inr ⟨?_, new.1⟩, ?_, new.2⟩
          · intro other reusable
            have same := candidate?_of_reusable snapshot intact (unclaimed other reusable.1)
              reusable
            cases chosen.symm.trans same
            obtain ⟨_, adopting⟩ := exists_adopt?_of_reusable (intact child child free .top) reusable
            cases refused.symm.trans adopting
          · intro other member
            rcases List.mem_cons.mp member with rfl | before
            · exact .inr (asksFor_of_candidate? state snapshot intact chosen)
            · exact .inl before
      | @kept _ middle _ chosen adopting inner =>
          have free := mem_free_of_chosen state chosen
          have asks := asksFor_of_candidate? state snapshot intact chosen
          have same := intact id id free .top
          have adopted := adopted_adopt? state.wellFormed adopting
          have known := (adopted.links.contains_eq id).symm.trans
            (Tree.contains_of_parentId? (state.parentId?_free free))
          have begin := Aligning.start adopted.wellFormed known
          have inside := intact.adopted state free adopted
          have listed := (adopted.links.children id).symm.trans same.children
          constructor
          · obtain ⟨node, lookup, typed, -⟩ := exists_of_adopt? adopting
            have found := Tree.identityOf?_of_get? lookup
            rw [same.identityOf?_eq] at found
            exact .inl ⟨asks, node.identity, found, typed⟩
          · intro other member
            rcases List.mem_cons.mp member with rfl | before
            · exact .inr asks
            · exact .inl before
          · refine reuses_alignChildren begin inner fun views => ?_
            intro index lower view lowerListed shown
            have served := served_alignViews startFormed startApart children apart.1 apart.2 begin
              (snapshot_formerChildren listed inside (startApart id)) inside
              (Int.le_trans older adopted.confined.nextId) (fun _ _ _ _ _ => List.not_mem_nil)
              views index lower view lowerListed shown
            rwa [Nat.zero_add] at served

theorem served_alignViews {start : Tree} (startFormed : start.WellFormed)
    (startApart : ∀ id, (start.childrenOf id).Pairwise start.Apart) {styled built : StyledTree}
    {parent : NodeId} {old : FormerChildren} {taken takenLast order ids : List NodeId}
    {place : Nat} :
    (views : List View) → views.Pairwise View.Apart → View.AllSiblingsApart views →
      Aligning styled parent old taken order → Snapshot start parent old →
      Intact start styled old taken → start.nextId.value ≤ styled.tree.nextId.value →
      Unclaimed start parent taken place views →
      styled.alignViews parent old taken place views = .ok (ids, takenLast, built) →
      ∀ index id view, ids[index]? = some id → views[index]? = some view →
        start.Chosen parent (place + index) view.identity id ∧ start.Reuses built.tree id view
  | [] => by
      intro _ _ _ _ _ _ _ _ index id view _ shown
      cases shown
  | view :: rest => by
      intro apart inner state snapshot intact older unclaimed aligning
      obtain ⟨id, takenMiddle, middle, first, aligned⟩ := aligned_alignView place view state
      rw [alignViews, first] at aligning
      obtain ⟨last, below, same⟩ := exists_of_map_eq_ok aligning
      cases same
      obtain ⟨_, _, _, again, later⟩ := aligned_alignViews (place + 1) rest aligned.state
      rw [below] at again
      cases again
      rw [List.pairwise_cons] at apart
      have served := served_alignView startFormed startApart view inner.1 state snapshot intact
        older (fun child asks => unclaimed 0 view child rfl asks) first
      intro index other shownView listed shown
      cases index with
      | zero =>
          cases listed
          cases shown
          have member : id ∈ order ++ [id] := List.mem_append_right _ (List.mem_singleton_self id)
          have known := Tree.contains_of_parentId? (aligned.state.parentId?_order member)
          exact ⟨served.chosen, served.reuses.outside later.confined_free
            aligned.state.wellFormed.toLinked known fun _ below =>
              aligned.state.untouched_order member below⟩
      | succ index =>
          -- What the first widget asked for none of the others asks for.
          have onwards : Unclaimed start parent takenMiddle (place + 1) rest := by
            intro further lower child listedLower asks member
            rcases served.asked child member with before | asked
            · refine unclaimed (further + 1) lower child listedLower ?_ before
              rwa [Nat.add_assoc, Nat.add_comm 1] at asks
            · exact Tree.AsksFor.not_both (startFormed.childrenDistinct parent) asked asks
                (by omega) (apart.1 lower (List.mem_of_getElem? listedLower))
          have result := served_alignViews startFormed startApart rest apart.2 inner.2
            aligned.state snapshot (intact.later state aligned)
            (Int.le_trans older aligned.confined.nextId) onwards below index other shownView
            listed shown
          rwa [Nat.add_assoc, Nat.add_comm 1] at result

end

/-! ## Whole rebuilds -/

/-- Nothing is left of the node, neither in the tree nor in its registry nor in the cache. -/
structure Forgotten (styled : StyledTree) (id : NodeId) : Prop where
  unknown : styled.tree.contains id = false
  unnamed : ∀ name, styled.tree.idOfElement? name ≠ some id
  untyped : ∀ name, id ∉ Buckets.valuesAt styled.tree.registry.byType name
  unclassed : ∀ name, id ∉ Buckets.valuesAt styled.tree.registry.byClass name
  uncached : styled.styles.get? id = none

/-- A registry that is in step with its tree has no entries of nodes that are not there. -/
theorem forgotten_of_unknown (registered : styled.tree.Registered)
    (unknown : styled.tree.contains id = false) (uncached : styled.styles.get? id = none) :
    Forgotten styled id := by
  have absent : ¬∃ identity, styled.tree.identityOf? id = some identity := by
    rintro ⟨identity, found⟩
    obtain ⟨node, lookup, -⟩ := Tree.identityOf?_eq_some_iff.mp found
    rw [Tree.contains_of_get? lookup] at unknown
    cases unknown
  refine ⟨unknown, ?_, ?_, ?_, uncached⟩
  · intro name entry
    obtain ⟨identity, found, -⟩ := registered.keeps.elements name id entry
    exact absent ⟨identity, found⟩
  · intro name listed
    obtain ⟨identity, found, -⟩ := (registered.keeps.types.listed name id).mp listed
    exact absent ⟨identity, found⟩
  · intro name listed
    obtain ⟨identity, found, -⟩ := (registered.keeps.classes.listed name id).mp listed
    exact absent ⟨identity, found⟩

/-- A rebuild that keeps the root chooses the children of all nodes that it keeps. -/
theorem reuses_rebuild {root : NodeId} (formed : styled.tree.WellFormed)
    (apart : ∀ id, (styled.tree.childrenOf id).Pairwise styled.tree.Apart)
    (viewApart : view.SiblingsApart) (rooted : styled.tree.root = some root)
    (adopting : styled.adopt? root view.identity = some middle)
    (aligning : middle.alignChildren root view.children = .ok built) :
    styled.tree.Reuses built.tree root view := by
  rcases view with ⟨identity, children⟩
  have adopted := adopted_adopt? formed adopting
  have known := (adopted.links.contains_eq root).symm.trans (formed.rootFound rooted).1
  have begin := Aligning.start adopted.wellFormed known
  have intact := Intact.below_adopted adopted known
  refine reuses_alignChildren begin aligning fun views => ?_
  intro place id view listed shown
  have served := served_alignViews formed apart children viewApart.1 viewApart.2 begin
    (snapshot_formerChildren (adopted.links.children root).symm intact (apart root)) intact
    adopted.confined.nextId (fun _ _ _ _ _ => List.not_mem_nil) views place id view listed shown
  rwa [Nat.zero_add] at served

/-- In a tree and a view in which no two siblings share an element id, and whose roots agree in
type and element id, a rebuild keeps the root, and below every node that it keeps each widget
gets the child that can be reused for it, or a new node when there is none.  Every other node is
forgotten, and those that are kept last. -/
theorem rebuild_reuses {root : NodeId} {node : Node} (orderly : styled.tree.Orderly)
    (apart : ∀ id, (styled.tree.childrenOf id).Pairwise styled.tree.Apart)
    (rooted : styled.tree.root = some root) (found : styled.tree.get? root = some node)
    (typed : node.identity.widgetType = view.identity.widgetType)
    (named : node.identity.elementId = view.identity.elementId)
    (proper : view.Proper) (viewApart : view.SiblingsApart) :
    ∃ built, styled.rebuild view = .ok (root, built) ∧
      (∀ id shown, built.tree.StandsFor root view id shown → styled.tree.contains id = true →
        ∀ (place : Nat) inner, shown.children[place]? = some inner →
          ∃ child, (built.tree.childrenOf id)[place]? = some child ∧
            styled.tree.Chosen id place inner.identity child) ∧
      ∀ id, styled.tree.contains id = true →
        (∃ shown, built.tree.StandsFor root view id shown) ∧ Retained styled built id ∨
          Forgotten built id := by
  have formed := orderly.wellFormed
  obtain ⟨middle, adopting⟩ := exists_adopt? (Tree.identityOf?_of_get? found) typed named
  obtain ⟨top, built, done, rebuilt⟩ := exists_rebuild formed view
  obtain ⟨rfl, aligning⟩ : top = root ∧ middle.alignChildren root view.children = .ok built := by
    rw [rebuild, rooted] at done
    simp only [adopting] at done
    obtain ⟨finished, aligned, same⟩ := exists_of_map_eq_ok done
    cases same
    exact ⟨rfl, aligned⟩
  have linked := rebuilt.wellFormed.toLinked
  refine ⟨built, done, ?_, ?_⟩
  · intro id shown stands former place inner inside
    obtain ⟨child, listed⟩ := stands.exists_child rebuilt.mirrors inside
    exact ⟨child, listed, reuses_rebuild formed apart viewApart rooted adopting aligning id shown
      stands former place child inner listed inside⟩
  · intro id former
    have steps := steps_rebuild formed rooted adopting aligning
    have registered := steps.registered formed orderly.toRegistered
      (View.nodup_classes_of_proper view proper)
    rcases (steps.passes formed).fate former with retained | ⟨unknown, uncached⟩
    · have below := rebuilt.wellFormed.below_root rebuilt.rooted retained.contains
      exact .inl ⟨Tree.StandsFor.exists_of_below linked rebuilt.mirrors below, retained⟩
    · exact .inr (forgotten_of_unknown registered unknown uncached)

/-- A panel with a label that has the focus, before a label and a button. -/
def shelf : StyledTree where
  tree := TreeChange.replay { nextId := ⟨1⟩ }
    [ .plantRoot { widgetType := "App" },
      .appendChild ⟨1⟩ { widgetType := "Panel", elementId := some "side" },
      .appendChild ⟨2⟩ { widgetType := "Label" },
      .appendChild ⟨1⟩ { widgetType := "Label" },
      .appendChild ⟨1⟩ { widgetType := "Button", elementId := some "ok" },
      .giveFocus (some ⟨3⟩) ]
  styles := ({} : Table NodeId Style).put ⟨3⟩ {}

/-- The panel in the second place with one more label, and the button turned into a label. -/
def restocked : View :=
  .widget { widgetType := "App" }
    [ leaf "Label" none [],
      .widget { widgetType := "Panel", elementId := some "side" }
        [leaf "Label" none ["dim"], leaf "Label" none []],
      leaf "Label" (some "ok") [] ]

/-- The panel and its label are kept, the label with its focus and its style. -/
theorem shelf_restocked :
    ∃ built, shelf.rebuild restocked = .ok (⟨1⟩, built) ∧
      built.tree.childrenOf ⟨1⟩ = [⟨6⟩, ⟨2⟩, ⟨8⟩] ∧
      shelf.tree.Chosen ⟨2⟩ 0 { widgetType := "Label", classes := ["dim"] } ⟨3⟩ ∧
      Retained shelf built ⟨3⟩ ∧ Forgotten built ⟨4⟩ ∧ Forgotten built ⟨5⟩ := by
  have orderly : shelf.tree.Orderly :=
    Tree.orderly_replay ⟨1⟩ (by simp [TreeChange.ListsClassesOnce])
  have apart : ∀ id, (shelf.tree.childrenOf id).Pairwise shelf.tree.Apart :=
    Tree.pairwise_apart_of_nodup (by decide +kernel)
  have rooted : shelf.tree.root = some ⟨1⟩ := by decide +kernel
  have proper : restocked.Proper := by simp [restocked, leaf, View.Proper, View.AllProper]
  have viewApart : restocked.SiblingsApart := by
    simp [restocked, leaf, View.SiblingsApart, View.AllSiblingsApart, View.Apart, View.identity]
  obtain ⟨built, done, chosen, fate⟩ :=
    rebuild_reuses orderly apart rooted rfl rfl rfl proper viewApart
  have outcome : (shelf.rebuild restocked).toOption.map
      (fun outcome => (outcome.2.tree.childrenOf ⟨1⟩, outcome.2.tree.childrenOf ⟨2⟩,
        [⟨3⟩, ⟨4⟩, ⟨5⟩].map outcome.2.tree.contains)) =
        some ([⟨6⟩, ⟨2⟩, ⟨8⟩], [⟨3⟩, ⟨7⟩], [true, false, false]) := by
    decide +kernel
  rw [done] at outcome
  simp only [Except.toOption, Option.map_some, Option.some.injEq, Prod.mk.injEq, List.map_cons,
    List.cons.injEq] at outcome
  obtain ⟨row, panel, kept, label, button, -⟩ := outcome
  have second : (built.tree.childrenOf ⟨1⟩)[1]? = some ⟨2⟩ := by
    rw [row]
    rfl
  obtain ⟨child, listed, chosen⟩ :=
    chosen ⟨2⟩ _ (.child .top second rfl) (by decide +kernel) 0 _ rfl
  rw [panel] at listed
  cases listed
  have lost {id : NodeId} (known : shelf.tree.contains id = true)
      (unknown : built.tree.contains id = false) : Forgotten built id := by
    refine (fate id known).resolve_left fun both => ?_
    rw [both.2.contains] at unknown
    cases unknown
  refine ⟨built, done, row, chosen, ?_, lost (by decide +kernel) label,
    lost (by decide +kernel) button⟩
  rcases fate ⟨3⟩ (by decide +kernel) with retained | forgotten
  · exact retained.2
  · rw [forgotten.unknown] at kept
    cases kept

end StyledTree

end WidgetStyle
