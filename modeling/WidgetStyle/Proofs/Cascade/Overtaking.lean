import WidgetStyle.Proofs.Cascade.Changes
import WidgetStyle.Proofs.Tree.Region

/-!
# Nodes that are overtaken

Reordering the children of a node marks those that get another place, but not those
that keep theirs while the siblings before them change.  Such a child is overtaken,
and so is everything below it.  A sequence of changes that reorders a node's
children only after all changes of these children leaves no other node clean whose
style from scratch can differ.
-/

namespace WidgetStyle

theorem Node.face_eq_core (node : Node) :
    node.face = { node.core with placement := node.placement } := rfl

namespace Tree

variable {start before after final : Tree} {id top other parent : NodeId}

/-! ## Siblings in order -/

/-- The siblings before a node, in order. -/
def siblingsBefore (tree : Tree) (id : NodeId) : List NodeId :=
  match tree.parentId? id with
  | none => []
  | some parent => (tree.childrenOf parent).takeWhile fun other => decide (other ≠ id)

theorem takeWhile_ne_eq_take {members : List NodeId} (distinct : members.Nodup) {place : Nat}
    {member : NodeId} (listed : members[place]? = some member) :
    members.takeWhile (fun other => decide (other ≠ member)) = members.take place := by
  induction members generalizing place with
  | nil => cases listed
  | cons first rest ih =>
      have split := List.nodup_cons.mp distinct
      cases place with
      | zero =>
          cases listed
          rw [List.takeWhile_cons, List.take_zero]
          simp only [ne_eq, not_true_eq_false, decide_false, Bool.false_eq_true, if_false]
      | succ place =>
          have later : rest[place]? = some member := listed
          have different : first ≠ member := fun same =>
            split.1 (same ▸ List.mem_of_getElem? later)
          rw [List.takeWhile_cons, List.take_succ_cons, ih split.2 later]
          simp only [different, ne_eq, not_false_eq_true, decide_true, if_true]

theorem WellFormed.siblingsBefore_of_listed (wellFormed : before.WellFormed) {place : Nat}
    (listed : (before.childrenOf parent)[place]? = some id) :
    before.siblingsBefore id = (before.childrenOf parent).take place := by
  rw [siblingsBefore, wellFormed.childOf.mp (List.mem_of_getElem? listed)]
  exact takeWhile_ne_eq_take (wellFormed.childrenDistinct parent) listed

/-- The siblings before a node or before one of the nodes above it are others than
they were. -/
def Overtaken (before after : Tree) (id : NodeId) : Prop :=
  ∃ top, after.Below top id ∧ after.siblingsBefore top ≠ before.siblingsBefore top

/-- A node that is not overtaken has the place that it had, and so have the siblings
before it. -/
theorem exists_same_place (startFormed : start.WellFormed) (finalFormed : final.WellFormed)
    (link : start.parentId? top = some parent) (again : final.parentId? top = some parent)
    (same : final.siblingsBefore top = start.siblingsBefore top) :
    ∃ place : Nat, (start.childrenOf parent)[place]? = some top ∧
      (final.childrenOf parent)[place]? = some top ∧
      ∀ earlier : Nat, earlier < place →
        (final.childrenOf parent)[earlier]? = (start.childrenOf parent)[earlier]? := by
  obtain ⟨place, listed⟩ := startFormed.exists_place link
  obtain ⟨other, otherListed⟩ := finalFormed.exists_place again
  rw [startFormed.siblingsBefore_of_listed listed,
    finalFormed.siblingsBefore_of_listed otherListed] at same
  have inside := (List.getElem?_eq_some_iff.mp listed).1
  have otherInside := (List.getElem?_eq_some_iff.mp otherListed).1
  have places : other = place := by
    have lengths := congrArg List.length same
    rw [List.length_take, List.length_take] at lengths
    omega
  rw [places] at otherListed same
  refine ⟨place, listed, otherListed, ?_⟩
  intro earlier order
  have taken := congrArg (·[earlier]?) same
  simp only [List.getElem?_take, if_pos order] at taken
  exact taken

/-! ## Tracked changes -/

/-- How far changes can be told from the nodes that they leave clean: such a node was
clean before, it and the nodes above it are what they were in the same places, and
the siblings that were before one of these are what they were. -/
structure Tracks (start current : Tree) : Prop where
  nextId : start.nextId.value ≤ current.nextId.value
  clean : ∀ {id}, current.IsClean id → start.IsClean id
  face : ∀ {id top}, current.IsClean id → current.Below top id →
    (current.get? top).map Node.face = (start.get? top).map Node.face
  elder : ∀ {id top other}, current.IsClean id → current.Below top id →
    top ∈ start.followingSiblings other → current.parentId? other = current.parentId? top →
      current.core? other = start.core? other

theorem Tracks.refl (tree : Tree) : Tracks tree tree where
  nextId := Int.le_refl _
  clean cleaned := cleaned
  face _ _ := rfl
  elder _ _ _ _ := rfl

/-- A node comes before a sibling with the same parent. -/
theorem Linked.parentId?_of_following (linked : before.Linked)
    (follows : id ∈ before.followingSiblings other) :
    ∃ parent, before.parentId? id = some parent ∧ before.parentId? other = some parent := by
  obtain ⟨parent, i, j, -, first, second⟩ := linked.mem_followingSiblings_iff.mp follows
  exact ⟨parent, linked.childOf.mp (List.mem_of_getElem? second),
    linked.childOf.mp (List.mem_of_getElem? first)⟩

/-- What one more change has to keep so that all changes so far are tracked. -/
theorem Tracks.step (tracks : Tracks start before) (startLinked : start.Linked)
    (linked : before.Linked) {Touched : NodeId → Prop} (confined : Confined before after Touched)
    (clean : ∀ {id}, after.IsClean id → before.IsClean id)
    (face : ∀ {id top}, after.IsClean id → before.Below top id →
      (after.get? top).map Node.face = (before.get? top).map Node.face)
    (core : ∀ {id top other}, after.IsClean id → before.Below top id →
      top ∈ start.followingSiblings other → before.contains other = true →
        after.contains other = true → before.parentId? other = before.parentId? top →
          after.core? other = before.core? other) : Tracks start after where
  nextId := Int.le_trans tracks.nextId confined.nextId
  clean cleaned := tracks.clean (clean cleaned)
  face := by
    intro id top cleaned below
    have under := confined.below linked (clean cleaned).contains below
    exact (face cleaned under).trans (tracks.face (clean cleaned) under)
  elder := by
    intro id top other cleaned below follows siblings
    have wasClean := clean cleaned
    have under := confined.below linked wasClean.contains below
    obtain ⟨parent, link, otherLink⟩ := startLinked.parentId?_of_following follows
    have topParent := parentId?_of_face (face cleaned under)
    rw [topParent] at siblings
    have above := (parentId?_of_face (tracks.face wasClean under)).trans link
    have alive := contains_of_parentId? (siblings.trans above)
    have older := Int.lt_of_lt_of_le
      (startLinked.beforeNext (contains_of_parentId? otherLink)) tracks.nextId
    have former := confined.former alive older
    have sameParent := former.2.symm.trans siblings
    exact (core cleaned under follows former.1 alive sameParent).trans
      (tracks.elder wasClean under follows sameParent)

/-! ## The operations of a build -/

namespace Tracks

theorem face_of_sheltered (sheltered : Sheltered before after parent) (linked : before.Linked)
    (cleaned : after.IsClean id) (below : before.Below top id) :
    (after.get? top).map Node.face = (before.get? top).map Node.face := by
  have parts := sheltered.clean cleaned
  apply sheltered.undisturbed.face
  refine ⟨linked.contains_of_below below parts.1.contains, ?_⟩
  intro strict
  rcases strict with ⟨upper, link, under⟩
  rcases below.cases_top with same | lower
  · exact parts.2 ⟨upper, same ▸ link, under⟩
  · rcases lower with ⟨above, aboveLink, reached⟩
    exact parts.2 ⟨above, aboveLink, .trans (.child link under) reached⟩

theorem append (tracks : Tracks start before) (startLinked : start.Linked)
    (wellFormed : before.WellFormed) {new : NodeId} {identity : Identity}
    (added : before.appendChild parent identity = .ok (new, after)) : Tracks start after := by
  have sheltered := wellFormed.sheltered_appendChild added
  apply tracks.step startLinked wellFormed.toLinked (wellFormed.confined_append added)
  · intro id cleaned
    exact (sheltered.clean cleaned).1
  · intro id top cleaned below
    exact face_of_sheltered sheltered wellFormed.toLinked cleaned below
  · intro id top other _ _ _ known _ _
    have appended := wellFormed.appended added
    have different : other ≠ new := by
      rw [appended.new_eq]
      exact wellFormed.toLinked.parent_ne_nextId known
    rw [appended.core, if_neg different]

theorem remove (tracks : Tracks start before) (startLinked : start.Linked)
    (wellFormed : before.WellFormed) (link : before.parentId? id = some parent) :
    Tracks start (before.removeSubtree id).2 := by
  have known := contains_of_parentId? link
  have sheltered := wellFormed.sheltered_removeSubtree link
  apply tracks.step startLinked wellFormed.toLinked (wellFormed.confined_remove link)
  · intro other cleaned
    exact (sheltered.clean cleaned).1
  · intro other top cleaned below
    exact face_of_sheltered sheltered wellFormed.toLinked cleaned below
  · intro low top other _ _ _ _ alive _
    have kept := ((wellFormed.removed known).contains_iff wellFormed.toLinkedBy).mp alive
    exact wellFormed.core?_removeSubtree known kept.2

theorem isClean_of_permuteChildren {order : List NodeId}
    (done : before.permuteChildren parent order = .ok after) (cleaned : after.IsClean id) :
    before.IsClean id := by
  obtain ⟨-, -, rfl⟩ := permuteChildren_eq_ok_iff.mp done
  exact isClean_of_keepsFlags (isClean_of_placeChildren cleaned) (fun _ => rfl) fun _ => rfl

/-- A child that keeps clean nodes when children are reordered keeps its place. -/
theorem placement_of_permuteChildren (wellFormed : before.WellFormed) {order : List NodeId}
    (done : before.permuteChildren parent order = .ok after) (cleaned : after.IsClean id)
    (below : before.Below top id) (link : before.parentId? top = some parent) {node other : Node}
    (found : before.get? top = some node) (otherFound : after.get? top = some other) :
    other.placement = node.placement := by
  have afterFormed := wellFormed.permuteChildren done
  have permuted := wellFormed.permuted done
  obtain ⟨known, perm, rfl⟩ := permuteChildren_eq_ok_iff.mp done
  have linked := wellFormed.toLinked.reordered_linked known perm
  have reorderedChildren := childrenOf_reordered known order parent
  rw [if_pos rfl] at reorderedChildren
  have member : top ∈ order := perm.mem_iff.mpr (wellFormed.childOf.mpr link)
  obtain ⟨place, listed⟩ := List.mem_iff_getElem?.mp member
  rw [← reorderedChildren] at listed
  have lookup : (before.reordered parent order).get? top = some node := by
    rw [get?_reordered, if_neg (wellFormed.toLinked.ne_parent link), found]
  have under : id ∈ (before.reordered parent order).subtree top := by
    rw [linked.mem_subtree_iff]
    clear cleaned
    induction below with
    | top => exact .top
    | child above _ ih => exact .child ((parentId?_reordered ..).trans above) ih
  have place_eq := placement_of_isClean_placeChildren (linked.childrenDistinct parent) listed
    cleaned lookup under
  obtain ⟨formerPlace, formerListed⟩ := wellFormed.exists_place link
  have former := wellFormed.placed formerListed found
  have listedAfter : (((before.reordered parent order).placeChildren parent).childrenOf
      parent)[place]? = some top := by
    rw [permuted.children, if_pos rfl, ← reorderedChildren]
    exact listed
  have final := afterFormed.placed listedAfter otherFound
  rw [former] at place_eq
  have index : (formerPlace : Int) = place := place_eq.1
  have total : ((before.childrenOf parent).length : Int) =
      ((before.reordered parent order).childrenOf parent).length := place_eq.2
  rw [final, former, index, total, permuted.children, if_pos rfl, reorderedChildren]

end Tracks

theorem face_of_core {left right : Tree} {one another : Node} (found : left.get? top = some one)
    (otherFound : right.get? top = some another) (core : left.core? top = right.core? top)
    (placement : one.placement = another.placement) :
    (left.get? top).map Node.face = (right.get? top).map Node.face := by
  rw [core?_of_get? found, core?_of_get? otherFound] at core
  rw [found, otherFound, Option.map_some, Option.map_some, Node.face_eq_core, Node.face_eq_core,
    Option.some.inj core, placement]

namespace Tracks

theorem permute (tracks : Tracks start before) (startLinked : start.Linked)
    (wellFormed : before.WellFormed) {order : List NodeId}
    (done : before.permuteChildren parent order = .ok after) : Tracks start after := by
  have permuted := wellFormed.permuted done
  apply tracks.step startLinked wellFormed.toLinked (wellFormed.confined_permute done)
  · intro id cleaned
    exact isClean_of_permuteChildren done cleaned
  · intro id top cleaned below
    have wasClean := isClean_of_permuteChildren done cleaned
    have known := wellFormed.toLinked.contains_of_below below wasClean.contains
    obtain ⟨node, found⟩ := contains_iff.mp known
    obtain ⟨other, otherFound⟩ := contains_iff.mp
      ((contains_eq_of_core?_eq (permuted.core top)).trans known)
    by_cases child : before.parentId? top = some parent
    · exact face_of_core otherFound found (permuted.core top)
        (placement_of_permuteChildren wellFormed done cleaned below child found otherFound)
    · obtain ⟨present, perm, rfl⟩ := permuteChildren_eq_ok_iff.mp done
      have outside : top ∉ (before.reordered parent order).childrenOf parent := by
        rw [childrenOf_reordered present, if_pos rfl, perm.mem_iff, wellFormed.childOf]
        exact child
      rw [face_placeChildren_of_not_mem outside]
      exact face_modify before parent top _ (fun _ => rfl) fun _ => rfl
  · intro id top other _ _ _ _ _ _
    exact permuted.core other

end Tracks

/-! ## Changes of classes -/

/-- No two children of the parent are in another order than they were at the
start. -/
def Unswapped (start current : Tree) (parent : NodeId) : Prop :=
  (current.childrenOf parent).Pairwise fun earlier later =>
    earlier ∉ start.followingSiblings later

theorem WellFormed.unswapped (wellFormed : start.WellFormed) (parent : NodeId) :
    Unswapped start start parent := by
  rw [Unswapped, List.pairwise_iff_getElem]
  intro i j inside otherInside order follows
  obtain ⟨upper, first, second, turned, listed, otherListed⟩ :=
    wellFormed.toLinked.mem_followingSiblings_iff.mp follows
  have listedHere := List.getElem?_eq_getElem inside
  have otherListedHere := List.getElem?_eq_getElem otherInside
  have firstPlace := (wellFormed.toLinked.same_place listed otherListedHere).2
  have secondPlace := (wellFormed.toLinked.same_place otherListed listedHere).2
  omega

/-- Where children are in the order of the start, one that followed a sibling still
follows it. -/
theorem Unswapped.follows (unswapped : Unswapped start before parent) (startLinked : start.Linked)
    (linked : before.Linked) (link : before.parentId? top = some parent)
    (otherLink : before.parentId? other = some parent)
    (follows : top ∈ start.followingSiblings other) : top ∈ before.followingSiblings other := by
  obtain ⟨i, listed⟩ := List.mem_iff_getElem?.mp (linked.childOf.mpr link)
  obtain ⟨j, otherListed⟩ := List.mem_iff_getElem?.mp (linked.childOf.mpr otherLink)
  rw [linked.mem_followingSiblings_iff]
  refine ⟨parent, j, i, ?_, otherListed, listed⟩
  rcases Nat.lt_trichotomy j i with before | same | after
  · exact before
  · -- A node does not follow itself.
    rw [same, listed] at otherListed
    cases otherListed
    obtain ⟨upper, first, second, order, firstListed, secondListed⟩ :=
      startLinked.mem_followingSiblings_iff.mp follows
    have places := (startLinked.same_place firstListed secondListed).2
    omega
  · obtain ⟨inside, same⟩ := List.getElem?_eq_some_iff.mp listed
    obtain ⟨otherInside, otherSame⟩ := List.getElem?_eq_some_iff.mp otherListed
    have apart := List.pairwise_iff_getElem.mp unswapped i j inside otherInside after
    rw [same, otherSame] at apart
    exact absurd follows apart

theorem isClean_of_replaceClasses (wellFormed : before.WellFormed) {changed : NodeId}
    {classes : List String} (done : before.replaceClasses changed classes = .ok after)
    (cleaned : after.IsClean id) : before.IsClean id ∧ ¬before.Affects changed id := by
  obtain ⟨node, found, rfl⟩ := require_map_eq_ok done
  let identity := { node.identity with classes := classes.foldl Identity.insertName [] }
  rw [setIdentity, id_of_get? found] at cleaned
  exact wellFormed.isClean_of_modify changed (fun node => { node with identity }) _
    (fun _ => rfl) (fun _ => rfl) (fun _ => rfl) cleaned

/-- A change of classes is tracked where the siblings of the node are in the order of
the start: it then marks all that followed the node there. -/
theorem Tracks.reclass (tracks : Tracks start before) (startLinked : start.Linked)
    (wellFormed : before.WellFormed) {changed : NodeId} {classes : List String}
    (done : before.replaceClasses changed classes = .ok after)
    (unswapped : ∀ parent, before.parentId? changed = some parent →
      Unswapped start before parent) : Tracks start after := by
  have reclassed := reclassed done
  have linked := wellFormed.toLinked
  have clean : ∀ {id}, after.IsClean id → before.IsClean id ∧ ¬before.Affects changed id :=
    isClean_of_replaceClasses wellFormed done
  apply tracks.step startLinked linked (WellFormed.confined_reclass done)
  · intro id cleaned
    exact (clean cleaned).1
  · intro id top cleaned below
    apply reclassed.face
    intro same
    exact (clean cleaned).2 (.inl (same ▸ below))
  · intro id top other cleaned below follows known _ siblings
    have different : other ≠ changed := by
      intro same
      rw [same] at follows known siblings
      obtain ⟨parent, link, -⟩ := startLinked.parentId?_of_following follows
      have wasClean := (clean cleaned).1
      have topLink := (parentId?_of_face (tracks.face wasClean below)).trans link
      have later := (unswapped parent (siblings.trans topLink)).follows startLinked linked topLink
        (siblings.trans topLink) follows
      exact (clean cleaned).2 (.inr ⟨top, later, below⟩)
    rw [reclassed.core, if_neg different]

/-! ## Styles from scratch -/

/-- A node that a clean node inherits from or is matched by, when the clean node is
not overtaken. -/
def Seen (start final : Tree) (id : NodeId) : Prop :=
  ∃ low top, final.IsClean low ∧ ¬Overtaken start final low ∧ final.Below top low ∧
    (id = top ∨ top ∈ start.followingSiblings id)

/-- A node has the parent of the siblings that follow it. -/
theorem Linked.parentId?_of_either (linked : start.Linked)
    (either : id = top ∨ top ∈ start.followingSiblings id)
    (link : start.parentId? id = some parent) : start.parentId? top = some parent := by
  rcases either with same | follows
  · rw [← same]
    exact link
  · obtain ⟨upper, first, second⟩ := linked.parentId?_of_following follows
    rw [second] at link
    cases link
    exact first

/-- A node with the same face is placed as before. -/
theorem WellFormed.placement_eq_of_face (startFormed : start.WellFormed)
    (finalFormed : final.WellFormed) {place other : Nat}
    (listed : (start.childrenOf parent)[place]? = some id)
    (again : (final.childrenOf parent)[other]? = some id)
    (face : (final.get? id).map Node.face = (start.get? id).map Node.face) :
    Placement.ofIndex other (final.childrenOf parent).length =
      Placement.ofIndex place (start.childrenOf parent).length := by
  obtain ⟨node, found⟩ :=
    contains_iff.mp (startFormed.toLinked.contains_child (List.mem_of_getElem? listed))
  obtain ⟨current, currentFound⟩ :=
    contains_iff.mp (finalFormed.toLinked.contains_child (List.mem_of_getElem? again))
  rw [found, currentFound, Option.map_some, Option.map_some] at face
  have placements : current.placement = node.placement :=
    congrArg (·.placement) (Option.some.inj face)
  rwa [startFormed.placed listed found, finalFormed.placed again currentFound] at placements

/-- It has as many siblings as before. -/
theorem WellFormed.length_childrenOf_eq (startFormed : start.WellFormed)
    (finalFormed : final.WellFormed) {place other : Nat}
    (listed : (start.childrenOf parent)[place]? = some id)
    (again : (final.childrenOf parent)[other]? = some id)
    (face : (final.get? id).map Node.face = (start.get? id).map Node.face) :
    (final.childrenOf parent).length = (start.childrenOf parent).length :=
  Int.ofNat_inj.mp
    (congrArg (·.total) (startFormed.placement_eq_of_face finalFormed listed again face))

/-- It is listed in the same place as before. -/
theorem WellFormed.place_eq_of_face (startFormed : start.WellFormed)
    (finalFormed : final.WellFormed) {place other : Nat}
    (listed : (start.childrenOf parent)[place]? = some id)
    (again : (final.childrenOf parent)[other]? = some id)
    (face : (final.get? id).map Node.face = (start.get? id).map Node.face) : other = place :=
  Int.ofNat_inj.mp
    (congrArg (·.index) (startFormed.placement_eq_of_face finalFormed listed again face))

/-- A node that is seen and has a parent is listed there in the place that it had, with
the siblings before it that it had. -/
theorem Tracks.place_of_seen (tracks : Tracks start final) (startFormed : start.WellFormed)
    (finalFormed : final.WellFormed) (seen : Seen start final id)
    (link : start.parentId? id = some parent) :
    ∃ place : Nat, (start.childrenOf parent)[place]? = some id ∧
      (final.childrenOf parent)[place]? = some id ∧
      (final.childrenOf parent).length = (start.childrenOf parent).length ∧
      ∀ earlier : Nat, earlier < place →
        (final.childrenOf parent)[earlier]? = (start.childrenOf parent)[earlier]? := by
  rcases seen with ⟨low, top, clean, ahead, below, either⟩
  have startLinked := startFormed.toLinked
  have topLink := startLinked.parentId?_of_either either link
  have face := tracks.face clean below
  have again := (parentId?_of_face face).trans topLink
  have same : final.siblingsBefore top = start.siblingsBefore top := by
    by_contra different
    exact ahead ⟨top, below, different⟩
  obtain ⟨place, listed, finalListed, earlier⟩ :=
    exists_same_place startFormed finalFormed topLink again same
  have lengths := startFormed.length_childrenOf_eq finalFormed listed finalListed face
  rcases either with rfl | follows
  · exact ⟨place, listed, finalListed, lengths, earlier⟩
  · obtain ⟨upper, i, j, order, first, second⟩ :=
      startLinked.mem_followingSiblings_iff.mp follows
    obtain ⟨rfl, rfl⟩ := startLinked.same_place listed second
    refine ⟨i, first, (earlier i order).trans first, lengths, ?_⟩
    intro before sooner
    exact earlier before (Nat.lt_trans sooner order)

theorem Tracks.face_of_seen (tracks : Tracks start final) (startFormed : start.WellFormed)
    (finalFormed : final.WellFormed) (seen : Seen start final id) :
    (final.get? id).map Node.face = (start.get? id).map Node.face := by
  rcases seen with ⟨low, top, clean, ahead, below, either⟩
  rcases either with rfl | follows
  · exact tracks.face clean below
  · obtain ⟨parent, topLink, link⟩ := startFormed.toLinked.parentId?_of_following follows
    obtain ⟨place, listed, finalListed, lengths, -⟩ := tracks.place_of_seen startFormed
      finalFormed ⟨low, top, clean, ahead, below, .inr follows⟩ link
    have finalLink := finalFormed.childOf.mp (List.mem_of_getElem? finalListed)
    have again := (parentId?_of_face (tracks.face clean below)).trans topLink
    have core := tracks.elder clean below follows (finalLink.trans again.symm)
    obtain ⟨node, found⟩ := contains_iff.mp (contains_of_parentId? link)
    obtain ⟨other, otherFound⟩ := contains_iff.mp (contains_of_parentId? finalLink)
    apply face_of_core otherFound found core
    rw [startFormed.placed listed found, finalFormed.placed finalListed otherFound, lengths]

theorem Tracks.alive_of_seen (tracks : Tracks start final) (startFormed : start.WellFormed)
    (finalFormed : final.WellFormed) (seen : Seen start final id) : start.contains id = true := by
  rcases seen with ⟨low, top, clean, -, below, either⟩
  rcases either with rfl | follows
  · obtain ⟨node, found⟩ :=
      contains_iff.mp (finalFormed.toLinked.contains_of_below below clean.contains)
    have faces := tracks.face clean below
    rw [found] at faces
    obtain ⟨former, formerFound, -⟩ := Option.map_eq_some_iff.mp faces.symm
    exact contains_of_get? formerFound
  · obtain ⟨parent, -, link⟩ := startFormed.toLinked.parentId?_of_following follows
    exact contains_of_parentId? link

/-- The part of the tree that clean nodes see is undisturbed, unless they are
overtaken. -/
theorem Tracks.undisturbed (tracks : Tracks start final) (startFormed : start.WellFormed)
    (finalFormed : final.WellFormed) : Undisturbed start final (Seen start final) := by
  have startLinked := startFormed.toLinked
  constructor
  · exact tracks.alive_of_seen startFormed finalFormed
  · exact tracks.face_of_seen startFormed finalFormed
  · intro id parent seen link
    rcases seen with ⟨low, top, clean, ahead, below, either⟩
    have topLink := startLinked.parentId?_of_either either link
    have again := (parentId?_of_face (tracks.face clean below)).trans topLink
    exact ⟨low, parent, clean, ahead, .trans (.child again .top) below, .inl rfl⟩
  · intro id before seen found
    rcases seen with ⟨low, top, clean, ahead, below, either⟩
    obtain ⟨parent, place, listedBefore, listed⟩ := startFormed.listed_of_previousId? found
    refine ⟨low, top, clean, ahead, below, .inr ?_⟩
    rw [startLinked.mem_followingSiblings_iff]
    rcases either with rfl | follows
    · exact ⟨parent, place, place + 1, Nat.lt_succ_self place, listedBefore, listed⟩
    · obtain ⟨upper, i, j, order, first, second⟩ :=
        startLinked.mem_followingSiblings_iff.mp follows
      obtain ⟨rfl, rfl⟩ := startLinked.same_place listed first
      exact ⟨upper, place, j, Nat.lt_of_succ_lt order, listedBefore, second⟩
  · intro id seen
    cases link : start.parentId? id with
    | none =>
        have face := tracks.face_of_seen startFormed finalFormed seen
        have finalLink := (parentId?_of_face face).trans link
        rw [FormedBy.previousId?_root link, FormedBy.previousId?_root finalLink]
    | some parent =>
        obtain ⟨place, listed, finalListed, -, earlier⟩ :=
          tracks.place_of_seen startFormed finalFormed seen link
        rw [startFormed.previousId?_of_listed listed, finalFormed.previousId?_of_listed finalListed]
        split
        · rfl
        · exact earlier (place - 1) (by omega)

/-- A node that is left clean and is not overtaken keeps its style from scratch. -/
theorem Tracks.freshStyle_eq (tracks : Tracks start final) (startFormed : start.WellFormed)
    (finalFormed : final.WellFormed) (cascade : Cascade) (clean : final.IsClean id)
    (ahead : ¬Overtaken start final id) :
    cascade.freshStyle final id = cascade.freshStyle start id :=
  (tracks.undisturbed startFormed finalFormed).freshStyle_eq startFormed.toFormedBy
    finalFormed.toFormedBy cascade ⟨id, id, clean, ahead, .top, .inl rfl⟩

end Tree

end WidgetStyle
