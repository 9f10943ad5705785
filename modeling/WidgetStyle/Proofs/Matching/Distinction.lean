import WidgetStyle.Proofs.Matching.Joined
import WidgetStyle.Proofs.Matching.Siblings
import WidgetStyle.Proofs.Matching.Single
import WidgetStyle.Proofs.Selector.Cutting

/-!
# Nodes that selectors tell apart

Two nodes, each in its own tree, are told apart when some accepted selector selects one of
them only.  What tells two nodes apart tells apart the siblings behind them and the nodes
below them as well, by a longer selector that leads there.  Where nothing of the kind comes
in, on all the ways that matching takes from two nodes, the two are not told apart.
-/

namespace WidgetStyle.Tree

variable {left right : Tree} {first second former current upper lower : NodeId}

/-- Some accepted selector selects one of the two nodes and not the other. -/
def ToldApart (left right : Tree) (first second : NodeId) : Prop :=
  ∃ text selector one other, Selector.parse text = .ok selector ∧
    left.get? first = some one ∧ right.get? second = some other ∧
      selector.selects left.surroundings one ≠ selector.selects right.surroundings other

/-- Some accepted selector of one compound holds of one of the two nodes and not of the
other. -/
def Unlike (left right : Tree) (first second : NodeId) : Prop :=
  ∃ text compound one other, Selector.parse text = .ok (.ofCompound compound) ∧
    left.get? first = some one ∧ right.get? second = some other ∧
      compound.holdsOf one ≠ compound.holdsOf other

theorem Unlike.toldApart (unlike : Unlike left right first second) :
    ToldApart left right first second := by
  rcases unlike with ⟨text, compound, one, other, accepted, found, otherFound, differs⟩
  refine ⟨text, .ofCompound compound, one, other, accepted, found, otherFound, ?_⟩
  simpa using differs

theorem ToldApart.exists_nodes (apart : ToldApart left right first second) :
    ∃ one other, left.get? first = some one ∧ right.get? second = some other := by
  rcases apart with ⟨-, -, one, other, -, found, otherFound, -⟩
  exact ⟨one, other, found, otherFound⟩

theorem not_unlike_of_like {one other : Node} (found : left.get? first = some one)
    (otherFound : right.get? second = some other) (like : one.Like other) :
    ¬Unlike left right first second := by
  rintro ⟨text, compound, node, otherNode, -, known, otherKnown, differs⟩
  cases found.symm.trans known
  cases otherFound.symm.trans otherKnown
  exact differs (compound.holdsOf_eq like)

theorem not_unlike_of_face
    (same : (left.get? first).map Node.face = (right.get? first).map Node.face) :
    ¬Unlike left right first first := by
  intro unlike
  obtain ⟨one, other, found, otherFound⟩ := unlike.toldApart.exists_nodes
  have faces : one.face = other.face := by simpa [found, otherFound] using same
  exact not_unlike_of_like found otherFound (.of_face faces) unlike

/-! ## Longer selectors -/

/-- Nodes are told apart where a combinator leads from them to single nodes that are. -/
theorem ToldApart.extend (apart : ToldApart left right former current) {combinator : Combinator}
    (signed : combinator ≠ .descendant) {one other before otherBefore : Node}
    (found : left.get? first = some one) (otherFound : right.get? second = some other)
    (foundBefore : left.get? former = some before)
    (otherFoundBefore : right.get? current = some otherBefore)
    (leads : left.surroundings.leftOf combinator one = [before])
    (otherLeads : right.surroundings.leftOf combinator other = [otherBefore]) :
    ToldApart left right first second := by
  rcases apart with ⟨text, selector, earlier, otherEarlier, accepted, known, otherKnown, differs⟩
  cases foundBefore.symm.trans known
  cases otherFoundBefore.symm.trans otherKnown
  have inhabited := Selector.inhabited_of_parse accepted
  refine ⟨Selector.starBehind text combinator, selector.joined combinator .star, one, other,
    Selector.parse_starBehind accepted signed, found, otherFound, ?_⟩
  simpa [Selector.selects_joined inhabited, leads, otherLeads] using differs

/-- Children of nodes that are told apart are told apart. -/
theorem ToldApart.child (apart : ToldApart left right upper lower)
    (link : left.parentId? first = some upper) (otherLink : right.parentId? second = some lower) :
    ToldApart left right first second := by
  have signed : Combinator.child ≠ .descendant := by decide
  rcases apart.exists_nodes with ⟨above, otherAbove, foundAbove, otherFoundAbove⟩
  obtain ⟨one, found⟩ := contains_iff.mp (contains_of_parentId? link)
  obtain ⟨other, otherFound⟩ := contains_iff.mp (contains_of_parentId? otherLink)
  have step : left.parent? one = some above := by
    rw [parent?_eq found, link, Option.bind_some, foundAbove]
  have otherStep : right.parent? other = some otherAbove := by
    rw [parent?_eq otherFound, otherLink, Option.bind_some, otherFoundAbove]
  exact apart.extend signed found otherFound foundAbove otherFoundAbove
    (congrArg Option.toList step) (congrArg Option.toList otherStep)

/-- So are nodes with a node above both that is told apart from itself. -/
theorem ToldApart.below (apart : ToldApart left right upper upper)
    (parents : ∀ id, right.parentId? id = left.parentId? id) {id : NodeId}
    (below : right.Below upper id) : ToldApart left right id id := by
  induction below with
  | top => exact apart
  | child link _ ih => exact ih.child ((parents _).symm.trans link) link

section Rows

variable {parent otherParent : NodeId} {place : Nat}

/-- The next siblings of nodes that are told apart are told apart. -/
theorem ToldApart.next (apart : ToldApart left right former current)
    (leftFormed : left.WellFormed) (rightFormed : right.WellFormed)
    (listed : (left.childrenOf parent)[place]? = some former)
    (otherListed : (right.childrenOf otherParent)[place]? = some current)
    (listedNext : (left.childrenOf parent)[place + 1]? = some first)
    (otherListedNext : (right.childrenOf otherParent)[place + 1]? = some second) :
    ToldApart left right first second := by
  have signed : Combinator.adjacentSibling ≠ .descendant := by decide
  obtain ⟨one, found⟩ := contains_iff.mp
    (leftFormed.toLinked.contains_child (List.mem_of_getElem? listedNext))
  obtain ⟨other, otherFound⟩ := contains_iff.mp
    (rightFormed.toLinked.contains_child (List.mem_of_getElem? otherListedNext))
  obtain ⟨sibling, before, siblingListed, foundBefore, step⟩ :=
    leftFormed.exists_previous? listedNext found
  obtain ⟨otherSibling, otherBefore, otherSiblingListed, otherFoundBefore, otherStep⟩ :=
    rightFormed.exists_previous? otherListedNext otherFound
  cases listed.symm.trans siblingListed
  cases otherListed.symm.trans otherSiblingListed
  exact apart.extend signed found otherFound foundBefore otherFoundBefore
    (congrArg Option.toList step) (congrArg Option.toList otherStep)

/-- So are all siblings behind them, place by place. -/
theorem ToldApart.later (apart : ToldApart left right former current)
    (leftFormed : left.WellFormed) (rightFormed : right.WellFormed)
    (listed : (left.childrenOf parent)[place]? = some former)
    (otherListed : (right.childrenOf otherParent)[place]? = some current) {later : Nat}
    (order : place ≤ later) (listedLater : (left.childrenOf parent)[later]? = some first)
    (otherListedLater : (right.childrenOf otherParent)[later]? = some second) :
    ToldApart left right first second := by
  induction order generalizing first second with
  | refl =>
      cases listed.symm.trans listedLater
      cases otherListed.symm.trans otherListedLater
      exact apart
  | @step middle _ ih =>
      have inside := (List.getElem?_eq_some_iff.mp listedLater).1
      have otherInside := (List.getElem?_eq_some_iff.mp otherListedLater).1
      have between := List.getElem?_eq_getElem (Nat.lt_of_succ_lt inside)
      have otherBetween := List.getElem?_eq_getElem (Nat.lt_of_succ_lt otherInside)
      exact (ih between otherBetween).next leftFormed rightFormed between otherBetween listedLater
        otherListedLater

end Rows

/-! ## Ways with nothing that differs -/

/-- Where matching goes corresponding ways from two nodes and meets no nodes on them that
differ by themselves, the two nodes are not told apart. -/
theorem Parallel.not_toldApart {Paired : NodeId → NodeId → Prop}
    (parallel : Parallel left right Paired) (leftFormed : left.WellFormed)
    (rightFormed : right.WellFormed)
    (alike : ∀ {first second}, Paired first second → ¬Unlike left right first second)
    (paired : Paired first second) : ¬ToldApart left right first second := by
  rintro ⟨text, selector, one, other, accepted, found, otherFound, differs⟩
  apply differs
  have walks := parallel.surroundings leftFormed.toFormedBy rightFormed.toFormedBy
  apply Selector.selects_eq_of_agrees walks.leadsAlike
  · rintro node otherNode ⟨id, otherId, met, known, otherKnown⟩ link member
    obtain ⟨piece, alone⟩ := Selector.exists_parse_ofCompound accepted member
    by_contra different
    exact alike met ⟨piece, link.compound, node, otherNode, alone, known, otherKnown, different⟩
  · exact ⟨first, second, paired, found, otherFound⟩

end WidgetStyle.Tree
