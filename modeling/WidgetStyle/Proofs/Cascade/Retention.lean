import WidgetStyle.Proofs.Cascade.FromRoot
import WidgetStyle.Proofs.Tree.Removal

/-!
# Styles that a change retains

A change of a tree marks as dirty every node whose style from scratch can differ
afterwards.  What it leaves clean lies in a part of the tree that the change did
not reach: this part is closed under parents and under siblings before, and its
nodes are what they were, so styles from scratch are what they were.
-/

namespace WidgetStyle.Tree

/-- The nodes that are kept are what they were, and what is seen from them is
kept, too. -/
structure Undisturbed (before after : Tree) (Kept : NodeId → Prop) : Prop where
  alive : ∀ {id}, Kept id → before.contains id = true
  face : ∀ {id}, Kept id → (after.get? id).map Node.face = (before.get? id).map Node.face
  parent : ∀ {id parent}, Kept id → before.parentId? id = some parent → Kept parent
  previous : ∀ {id other}, Kept id → before.previousId? id = some other → Kept other
  listed : ∀ {id}, Kept id → after.previousId? id = before.previousId? id

theorem parentId?_of_face {before after : Tree} {id : NodeId}
    (same : (after.get? id).map Node.face = (before.get? id).map Node.face) :
    after.parentId? id = before.parentId? id := by
  have parents := congrArg (Option.bind · (·.parent)) same
  simp only [Option.bind_map] at parents
  exact parents

/-- Where the children of the parent are the same, so is the sibling before a
node. -/
theorem FormedBy.previousId?_eq {before after : Tree} {beforeBirth afterBirth : NodeId → Int}
    (beforeFormed : before.FormedBy beforeBirth) (afterFormed : after.FormedBy afterBirth)
    {id : NodeId}
    (sameParent : after.parentId? id = before.parentId? id)
    (sameChildren : ∀ parent, before.parentId? id = some parent →
      after.childrenOf parent = before.childrenOf parent) :
    after.previousId? id = before.previousId? id := by
  cases link : before.parentId? id with
  | none =>
      rw [link] at sameParent
      rw [previousId?_root link, previousId?_root sameParent]
  | some parent =>
      obtain ⟨place, listed⟩ := beforeFormed.exists_place link
      have again := (congrArg (·[place]?) (sameChildren parent link)).trans listed
      rw [beforeFormed.previousId?_of_listed listed, afterFormed.previousId?_of_listed again,
        sameChildren parent link]

namespace Undisturbed

variable {before after : Tree} {Kept : NodeId → Prop}

theorem exists_get? (undisturbed : Undisturbed before after Kept) {id : NodeId}
    (kept : Kept id) : ∃ one other, before.get? id = some one ∧ after.get? id = some other ∧
      one.face = other.face := by
  obtain ⟨one, found⟩ := contains_iff.mp (undisturbed.alive kept)
  have faces := undisturbed.face kept
  rw [found] at faces
  obtain ⟨other, otherFound, same⟩ := Option.map_eq_some_iff.mp faces
  exact ⟨one, other, found, otherFound, same.symm⟩

theorem related_of_kept {Paired : NodeId → Prop} {link : Option NodeId}
    (kept : ∀ id, link = some id → Paired id) :
    Option.Rel (fun first second => first = second ∧ Paired first) link link := by
  cases link with
  | none => exact .none
  | some id => exact .some ⟨rfl, kept id rfl⟩

theorem resemble (undisturbed : Undisturbed before after Kept) :
    Resemble before after fun first second => first = second ∧ Kept first where
  like := by
    rintro id _ ⟨rfl, kept⟩
    obtain ⟨one, other, found, otherFound, same⟩ := undisturbed.exists_get? kept
    exact ⟨one, other, found, otherFound, .of_face same⟩
  parent := by
    rintro id _ ⟨rfl, kept⟩
    rw [parentId?_of_face (undisturbed.face kept)]
    exact related_of_kept fun _ link => undisturbed.parent kept link
  previous := by
    rintro id _ ⟨rfl, kept⟩
    rw [undisturbed.listed kept]
    exact related_of_kept fun _ found => undisturbed.previous kept found

theorem inherits (undisturbed : Undisturbed before after Kept) :
    Inherits before after (fun first second => first = second ∧ Kept first)
      fun first second => first = second ∧ Kept first where
  resemble := undisturbed.resemble
  seen paired := paired
  inlineStyle := by
    rintro id _ one other ⟨rfl, kept⟩ found otherFound
    obtain ⟨one', other', found', otherFound', same⟩ := undisturbed.exists_get? kept
    rw [found] at found'
    rw [otherFound] at otherFound'
    cases found'
    cases otherFound'
    exact congrArg (·.inlineStyle) same
  parent := undisturbed.resemble.parent

/-- A node that is kept keeps its style from scratch. -/
theorem freshStyle_eq {beforeBirth afterBirth : NodeId → Int}
    (undisturbed : Undisturbed before after Kept) (beforeFormed : before.FormedBy beforeBirth)
    (afterFormed : after.FormedBy afterBirth) (cascade : Cascade) {id : NodeId} (kept : Kept id) :
    cascade.freshStyle after id = cascade.freshStyle before id :=
  (undisturbed.inherits.freshStyle_eq beforeFormed afterFormed cascade ⟨rfl, kept⟩).symm

end Undisturbed

/-- Trees of the same outline are undisturbed everywhere. -/
theorem SameOutline.undisturbed {left right : Tree} {birth : NodeId → Int}
    (same : SameOutline left right) (formed : left.FormedBy birth) :
    Undisturbed left right fun id => left.contains id = true where
  alive kept := kept
  face _ := (face_of_sameOutline same _).symm
  parent _ link := formed.contains_parent link
  previous := by
    intro id other _ found
    obtain ⟨parent, place, listed, -⟩ := formed.listed_of_previousId? found
    exact formed.contains_child (List.mem_of_getElem? listed)
  listed _ := formed.previousId?_eq (same.formedBy formed)
    (same.sameLinks.parents _).symm fun parent _ => (same.sameLinks.children parent).symm

theorem SameOutline.get?_eq_none {left right : Tree} (same : SameOutline left right)
    {id : NodeId} (unknown : left.get? id = none) : right.get? id = none := by
  have outlines := same.get? id
  rw [unknown] at outlines
  exact Option.map_eq_none_iff.mp outlines.symm

/-- Trees of the same outline have the same styles from scratch. -/
theorem SameOutline.freshStyle_eq {left right : Tree} {birth : NodeId → Int}
    (same : SameOutline left right) (formed : left.FormedBy birth) (cascade : Cascade)
    (id : NodeId) :
    cascade.freshStyle right id = cascade.freshStyle left id := by
  cases found : left.get? id with
  | none =>
      rw [FormedBy.freshStyle_unknown cascade found,
        FormedBy.freshStyle_unknown cascade (same.get?_eq_none found)]
  | some node =>
      exact (same.undisturbed formed).freshStyle_eq formed (same.formedBy formed)
        cascade (contains_of_get? found)

/-- Nodes of trees of the same outline have the same style by themselves. -/
theorem SameOutline.plainStyle_eq {left right : Tree} {birth : NodeId → Int}
    (same : SameOutline left right) (formed : left.FormedBy birth) (cascade : Cascade)
    (id : NodeId) :
    cascade.plainStyle right id = cascade.plainStyle left id := by
  rw [Cascade.plainStyle, Cascade.plainStyle]
  cases found : left.get? id with
  | none => rw [same.get?_eq_none found]
  | some node =>
      have undisturbed := same.undisturbed formed
      obtain ⟨other, otherFound, outline⟩ := same.exists_get? found
      rw [otherFound]
      have alike := cascade.styleFrom_eq
        (undisturbed.resemble.surroundings formed (same.formedBy formed))
        ⟨id, id, ⟨rfl, contains_of_get? found⟩, found, otherFound⟩
        (congrArg (·.inlineStyle) outline).symm {}
      exact congrArg (Except.map some) alike.symm

/-- After the change the tree is well-formed, and what is clean then was clean
before and has kept its style from scratch. -/
structure Retains (before after : Tree) : Prop where
  wellFormed : after.WellFormed
  clean : ∀ {id}, after.IsClean id → before.IsClean id
  fresh : ∀ (cascade : Cascade) {id}, after.IsClean id →
    cascade.freshStyle after id = cascade.freshStyle before id

namespace Retains

variable {before middle after : Tree}

theorem refl (wellFormed : before.WellFormed) : Retains before before where
  wellFormed := wellFormed
  clean cleaned := cleaned
  fresh _ _ _ := rfl

theorem trans (first : Retains before middle) (second : Retains middle after) :
    Retains before after where
  wellFormed := second.wellFormed
  clean cleaned := first.clean (second.clean cleaned)
  fresh cascade _ cleaned :=
    (second.fresh cascade cleaned).trans (first.fresh cascade (second.clean cleaned))

theorem of_undisturbed {Kept : NodeId → Prop} (undisturbed : Undisturbed before after Kept)
    (beforeFormed : before.WellFormed) (afterFormed : after.WellFormed)
    (clean : ∀ {id}, after.IsClean id → before.IsClean id ∧ Kept id) : Retains before after where
  wellFormed := afterFormed
  clean cleaned := (clean cleaned).1
  fresh cascade _ cleaned :=
    undisturbed.freshStyle_eq beforeFormed.toFormedBy afterFormed.toFormedBy cascade
      (clean cleaned).2

theorem of_sameOutline (same : SameOutline before after) (wellFormed : before.WellFormed)
    (clean : ∀ {id}, after.IsClean id → before.IsClean id) : Retains before after where
  wellFormed := same.wellFormed wellFormed
  clean := clean
  fresh cascade _ _ := same.freshStyle_eq wellFormed.toFormedBy cascade _

/-- A change after which no node is clean retains nothing. -/
theorem of_nothing_clean (afterFormed : after.WellFormed) (none : ∀ id, ¬after.IsClean id) :
    Retains before after where
  wellFormed := afterFormed
  clean cleaned := absurd cleaned (none _)
  fresh _ _ cleaned := absurd cleaned (none _)

end Retains

/-- Marking a subtree retains all that it leaves clean. -/
theorem WellFormed.retains_dirtySubtree {tree : Tree} (wellFormed : tree.WellFormed)
    (id : NodeId) : Retains tree (tree.dirtySubtree id) :=
  .of_sameOutline (sameOutline_dirtySubtree tree id) wellFormed fun cleaned =>
    ((isClean_dirtySubtree_iff tree id _).mp cleaned).1

/-! ## Identity and state -/

theorem affects_self (tree : Tree) (id : NodeId) : tree.Affects id id :=
  .inl .top

theorem SameLinks.affects {left right : Tree} (same : SameLinks left right)
    (linked : left.Linked) {changed id : NodeId} (affects : left.Affects changed id) :
    right.Affects changed id := by
  have rightLinked := same.linked linked
  rcases affects with below | ⟨later, member, below⟩
  · exact .inl (same.below below)
  · refine .inr ⟨later, ?_, same.below below⟩
    rw [linked.mem_followingSiblings_iff] at member
    rw [rightLinked.mem_followingSiblings_iff]
    simpa only [same.children] using member

/-- A change of one node that keeps its links and place disturbs only what is
affected by the node. -/
theorem WellFormed.undisturbed_modify {tree : Tree} (wellFormed : tree.WellFormed)
    (changed : NodeId) (change : Node → Node) (keepsId : ∀ node, (change node).id = node.id)
    (keepsParent : ∀ node, (change node).parent = node.parent)
    (keepsChildren : ∀ node, (change node).children = node.children)
    (modified : (tree.modify changed change).WellFormed) :
    Undisturbed tree (tree.modify changed change) fun id =>
      tree.contains id = true ∧ ¬tree.Affects changed id where
  alive kept := kept.1
  face := by
    rintro id ⟨-, unaffected⟩
    have different : id ≠ changed := fun same => unaffected (same ▸ affects_self tree changed)
    rw [get?_modify _ _ _ _ keepsId, if_neg different]
  parent := by
    rintro id parent ⟨-, unaffected⟩ link
    refine ⟨wellFormed.toLinked.contains_parent link, ?_⟩
    rintro (below | ⟨later, member, below⟩)
    · exact unaffected (.inl (.child link below))
    · exact unaffected (.inr ⟨later, member, .child link below⟩)
  previous := by
    rintro id other ⟨-, unaffected⟩ found
    obtain ⟨parent, place, listedBefore, listed⟩ := wellFormed.listed_of_previousId? found
    have link := wellFormed.childOf.mp (List.mem_of_getElem? listed)
    have otherLink := wellFormed.childOf.mp (List.mem_of_getElem? listedBefore)
    have under : ∀ {top}, tree.StrictlyBelow top other → tree.Below top id := by
      rintro top ⟨above, aboveLink, below⟩
      rw [otherLink] at aboveLink
      cases aboveLink
      exact .child link below
    refine ⟨wellFormed.toLinked.contains_child (List.mem_of_getElem? listedBefore), ?_⟩
    rintro (below | ⟨later, member, below⟩)
    · rcases below.cases_top with rfl | strict
      · have after : id ∈ tree.followingSiblings other :=
          wellFormed.toLinked.mem_followingSiblings_iff.mpr
            ⟨parent, place, place + 1, Nat.lt_succ_self place, listedBefore, listed⟩
        exact unaffected (.inr ⟨id, after, .top⟩)
      · exact unaffected (.inl (under strict))
    · rcases below.cases_top with rfl | strict
      · obtain ⟨above, i, j, order, first, second⟩ :=
          wellFormed.toLinked.mem_followingSiblings_iff.mp member
        obtain ⟨rfl, rfl⟩ := wellFormed.toLinked.same_place listedBefore second
        have after : id ∈ tree.followingSiblings changed :=
          wellFormed.toLinked.mem_followingSiblings_iff.mpr
            ⟨above, i, j + 1, Nat.lt_succ_of_lt order, first, listed⟩
        exact unaffected (.inr ⟨id, after, .top⟩)
      · exact unaffected (.inr ⟨later, member, under strict⟩)
  listed := by
    rintro id -
    have links := sameLinks_modify tree changed change keepsId keepsParent keepsChildren
    exact wellFormed.previousId?_eq modified.toFormedBy (links.parents id).symm
      fun parent _ => (links.children parent).symm

end WidgetStyle.Tree
