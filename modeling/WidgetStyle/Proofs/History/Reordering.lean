import WidgetStyle.Proofs.Cascade.Overtaking
import WidgetStyle.Proofs.History.Basic
import WidgetStyle.Proofs.Matching.Distinction

/-!
# What reordering marks

Reordering the children of a node marks those that get another place, with everything below
them.  A child that keeps its place is not marked, though other children may come to stand
before it, and sibling combinators see them.  So a clean node is told apart from what it was
exactly where such a child, at or above it, has got others before it that some compound tells
from those that stood there.
-/

namespace WidgetStyle.Tree

variable {before after : Tree} {parent upper top low first second : NodeId}
  {order : List NodeId}

/-- The nodes that matching meets at the same points of its ways from a node that is left
clean: those from it up to the root, and the siblings in the same places before these. -/
inductive Met (before after : Tree) : NodeId → NodeId → Prop where
  | above {top low : NodeId} : after.IsClean low → after.Below top low → Met before after top top
  | ahead {top low upper first second : NodeId} {place earlier : Nat} :
      after.IsClean low → after.Below top low →
        (before.childrenOf upper)[place]? = some top →
          (after.childrenOf upper)[place]? = some top → earlier < place →
            (before.childrenOf upper)[earlier]? = some first →
              (after.childrenOf upper)[earlier]? = some second → Met before after first second

/-- Before each child that keeps its place, and at or below which something is left clean, the
children are like those that stood in the same places. -/
def FrontsAlike (before after : Tree) (parent : NodeId) : Prop :=
  ∀ top low (place earlier : Nat) first second, after.IsClean low → after.Below top low →
    (before.childrenOf parent)[place]? = some top →
      (after.childrenOf parent)[place]? = some top → earlier < place →
        (before.childrenOf parent)[earlier]? = some first →
          (after.childrenOf parent)[earlier]? = some second → ¬Unlike before after first second

section Permuted

variable (formed : before.WellFormed) (done : before.permuteChildren parent order = .ok after)

include formed done

/-- A node with something clean at or below it keeps its face. -/
theorem WellFormed.face_of_permuteChildren (clean : after.IsClean low)
    (below : after.Below top low) :
    (after.get? top).map Node.face = (before.get? top).map Node.face :=
  ((Tracks.refl before).permute formed.toLinked formed done).face clean below

theorem WellFormed.parentId?_of_permuteChildren (id : NodeId) :
    after.parentId? id = before.parentId? id :=
  parentId?_eq_of_core?_eq ((formed.permuted done).core id)

/-- It keeps its place among the children of its parent. -/
theorem WellFormed.exists_kept_place (clean : after.IsClean low) (below : after.Below top low)
    (link : before.parentId? top = some upper) :
    ∃ place : Nat, (before.childrenOf upper)[place]? = some top ∧
      (after.childrenOf upper)[place]? = some top := by
  have afterFormed := formed.permuteChildren done
  have again := (formed.parentId?_of_permuteChildren done top).trans link
  obtain ⟨place, listed⟩ := formed.exists_place link
  obtain ⟨other, otherListed⟩ := afterFormed.exists_place again
  have face := formed.face_of_permuteChildren done clean below
  have same := formed.place_eq_of_face afterFormed listed otherListed face
  exact ⟨place, listed, same ▸ otherListed⟩

/-- The siblings right before two nodes in one place, at or before a child that kept its place,
are met as well. -/
theorem WellFormed.previous_met_in_row {place point : Nat} (clean : after.IsClean low)
    (below : after.Below top low) (listed : (before.childrenOf upper)[place]? = some top)
    (again : (after.childrenOf upper)[place]? = some top) (order : point ≤ place)
    (foundFirst : (before.childrenOf upper)[point]? = some first)
    (foundSecond : (after.childrenOf upper)[point]? = some second) :
    Option.Rel (Met before after) (before.previousId? first) (after.previousId? second) := by
  have afterFormed := formed.permuteChildren done
  rw [formed.previousId?_of_listed foundFirst, afterFormed.previousId?_of_listed foundSecond]
  by_cases start : point = 0
  · rw [if_pos start, if_pos start]
    exact .none
  · have inside := (List.getElem?_eq_some_iff.mp foundFirst).1
    have otherInside := (List.getElem?_eq_some_iff.mp foundSecond).1
    have previous := List.getElem?_eq_getElem (Nat.lt_of_le_of_lt (Nat.sub_le point 1) inside)
    have otherPrevious :=
      List.getElem?_eq_getElem (Nat.lt_of_le_of_lt (Nat.sub_le point 1) otherInside)
    have sooner : point - 1 < place := by omega
    rw [if_neg start, if_neg start, previous, otherPrevious]
    exact .some (.ahead clean below listed again sooner previous otherPrevious)

theorem WellFormed.known_of_met (met : Met before after first second) :
    before.contains first = true ∧ after.contains second = true := by
  have afterFormed := formed.permuteChildren done
  cases met with
  | above clean below =>
      have known := afterFormed.toLinked.contains_of_below below clean.contains
      have same := contains_eq_of_core?_eq ((formed.permuted done).core first)
      exact ⟨same.symm.trans known, known⟩
  | ahead _ _ _ _ _ foundFirst foundSecond =>
      exact ⟨formed.toLinked.contains_child (List.mem_of_getElem? foundFirst),
        afterFormed.toLinked.contains_child (List.mem_of_getElem? foundSecond)⟩

theorem WellFormed.parent_met (met : Met before after first second) :
    Option.Rel (Met before after) (before.parentId? first) (after.parentId? second) := by
  have afterFormed := formed.permuteChildren done
  have parents := formed.parentId?_of_permuteChildren done
  cases met with
  | above clean below =>
      rw [parents first]
      cases link : before.parentId? first with
      | none => exact .none
      | some upper =>
          have again := (parents first).trans link
          exact .some (.above clean (.trans (.child again .top) below))
  | ahead clean below _ again _ foundFirst foundSecond =>
      have topLink := afterFormed.childOf.mp (List.mem_of_getElem? again)
      rw [formed.childOf.mp (List.mem_of_getElem? foundFirst),
        afterFormed.childOf.mp (List.mem_of_getElem? foundSecond)]
      exact .some (.above clean (.trans (.child topLink .top) below))

theorem WellFormed.previous_met (met : Met before after first second) :
    Option.Rel (Met before after) (before.previousId? first) (after.previousId? second) := by
  cases met with
  | above clean below =>
      cases link : before.parentId? first with
      | none =>
          have again := (formed.parentId?_of_permuteChildren done first).trans link
          rw [FormedBy.previousId?_root link, FormedBy.previousId?_root again]
          exact .none
      | some upper =>
          obtain ⟨place, listed, again⟩ := formed.exists_kept_place done clean below link
          exact formed.previous_met_in_row done clean below listed again (Nat.le_refl place) listed
            again
  | ahead clean below listed again sooner foundFirst foundSecond =>
      exact formed.previous_met_in_row done clean below listed again (Nat.le_of_lt sooner)
        foundFirst foundSecond

/-- Matching goes corresponding ways from a node that is left clean. -/
theorem WellFormed.parallel_met : Parallel before after (Met before after) where
  known := formed.known_of_met done
  parent := formed.parent_met done
  previous := formed.previous_met done

/-- Nodes that are met differ only where others have come to stand before a child that kept
its place. -/
theorem WellFormed.not_unlike_of_met (alike : FrontsAlike before after parent)
    (met : Met before after first second) : ¬Unlike before after first second := by
  cases met with
  | above clean below =>
      exact not_unlike_of_face (formed.face_of_permuteChildren done clean below).symm
  | @ahead top low upper _ _ place earlier clean below listed again sooner foundFirst
      foundSecond =>
      by_cases reordered : upper = parent
      · subst reordered
        exact alike top low place earlier first second clean below listed again sooner
          foundFirst foundSecond
      · -- The children of another node are those that they were, each in its place.
        have afterFormed := formed.permuteChildren done
        have children := (formed.permuted done).children upper
        rw [if_neg reordered] at children
        have same : second = first := by
          rw [children, foundFirst] at foundSecond
          exact (Option.some.inj foundSecond).symm
        subst same
        obtain ⟨one, found⟩ := contains_iff.mp
          (formed.toLinked.contains_child (List.mem_of_getElem? foundFirst))
        obtain ⟨other, otherFound⟩ := contains_iff.mp
          (afterFormed.toLinked.contains_child (List.mem_of_getElem? foundSecond))
        have placement : one.placement = other.placement := by
          rw [formed.placed foundFirst found, afterFormed.placed foundSecond otherFound, children]
        have core := ((formed.permuted done).core second).symm
        exact not_unlike_of_face (face_of_core found otherFound core placement)

/-- What tells a child apart that came to stand before one that kept its place tells apart
every node at or below that one. -/
theorem WellFormed.toldApart_of_unlike {place earlier : Nat} (below : after.Below top low)
    (listed : (before.childrenOf parent)[place]? = some top)
    (again : (after.childrenOf parent)[place]? = some top) (sooner : earlier < place)
    (foundFirst : (before.childrenOf parent)[earlier]? = some first)
    (foundSecond : (after.childrenOf parent)[earlier]? = some second)
    (unlike : Unlike before after first second) : ToldApart before after low low := by
  have afterFormed := formed.permuteChildren done
  have row := unlike.toldApart.later formed afterFormed foundFirst foundSecond
    (Nat.le_of_lt sooner) listed again
  exact row.below (formed.parentId?_of_permuteChildren done) below

end Permuted

/-- A node that an accepted selector treats in another way after the children of a node are
reordered is dirty then, wherever it is in the tree, exactly if no child that kept its place
with something clean at or below it has got an unlike child before it.  Every node of the tree
has a state of its own. -/
theorem Reachable.permuteChildren_dirties_iff (reachable : before.Reachable)
    (known : before.contains parent = true) (perm : order.Perm (before.childrenOf parent)) :
    ∃ after, before.permuteChildren parent order = .ok after ∧
      ((∀ id node, after.get? id = some node → ToldApart before after id id →
          node.flags.dirty = true) ↔
        FrontsAlike before after parent) := by
  have formed := reachable.wellFormed
  have done := permuteChildren_eq_ok_iff.mpr ⟨known, perm, rfl⟩
  refine ⟨_, done, ?_⟩
  constructor
  · intro dirties top low place earlier first second clean below listed again sooner foundFirst
      foundSecond unlike
    have apart := formed.toldApart_of_unlike done below listed again sooner foundFirst foundSecond
      unlike
    obtain ⟨node, found, spotless⟩ := clean
    have dirty := dirties low node found apart
    rw [spotless] at dirty
    cases dirty
  · intro alike id node found apart
    by_contra spotless
    have clean : IsClean _ id := ⟨node, found, by simpa using spotless⟩
    have parallel := formed.parallel_met done
    exact parallel.not_toldApart formed (formed.permuteChildren done)
      (formed.not_unlike_of_met done alike) (.above clean .top) apart

/-- A root with a clean row of children, each with its element id. -/
def cleanRow (elementIds : List (Option String)) : Tree :=
  TreeChange.replay { nextId := ⟨1⟩ }
    (.plantRoot { widgetType := "App" } ::
      elementIds.map (fun elementId => .appendChild ⟨1⟩ { widgetType := "X", elementId }) ++
        [.cleanAll])

/-- A row whose first two children have changed places. -/
def swapped (row : Tree) : Tree :=
  (row.permuteChildren ⟨1⟩ [⟨3⟩, ⟨2⟩, ⟨4⟩]).toOption.getD row

/-- In a row of children that look alike the third one stays clean, and no selector sees that
the first two have changed places. -/
theorem plainRow_unseen :
    (cleanRow [none, none, none]).Reachable ∧
      (cleanRow [none, none, none]).contains ⟨1⟩ = true ∧
        [⟨3⟩, ⟨2⟩, ⟨4⟩].Perm ((cleanRow [none, none, none]).childrenOf ⟨1⟩) ∧
          (swapped (cleanRow [none, none, none])).IsClean ⟨4⟩ ∧
            ¬ToldApart (cleanRow [none, none, none]) (swapped (cleanRow [none, none, none]))
              ⟨4⟩ ⟨4⟩ := by
  let row := cleanRow [none, none, none]
  have reachable : row.Reachable := ⟨⟨1⟩, _, rfl⟩
  have known : row.contains ⟨1⟩ = true := by decide +kernel
  have children : row.childrenOf ⟨1⟩ = [⟨2⟩, ⟨3⟩, ⟨4⟩] := by decide +kernel
  have perm : [⟨3⟩, ⟨2⟩, ⟨4⟩].Perm (row.childrenOf ⟨1⟩) := by decide +kernel
  have swaps : row.permuteChildren ⟨1⟩ [⟨3⟩, ⟨2⟩, ⟨4⟩] = .ok (swapped row) := by decide +kernel
  have turned : (swapped row).childrenOf ⟨1⟩ = [⟨3⟩, ⟨2⟩, ⟨4⟩] := by decide +kernel
  have spotless : ((swapped row).get? ⟨4⟩).map (·.flags.dirty) = some false := by decide +kernel
  obtain ⟨last, lastFound, lastClean⟩ := Option.map_eq_some_iff.mp spotless
  obtain ⟨after, done, marks⟩ := reachable.permuteChildren_dirties_iff known perm
  obtain rfl : swapped row = after := Except.ok.inj (swaps.symm.trans done)
  refine ⟨reachable, known, perm, ⟨last, lastFound, lastClean⟩, ?_⟩
  have alike : FrontsAlike row (swapped row) ⟨1⟩ := by
    intro top low place earlier first second _ _ listed again sooner foundFirst foundSecond
    have looks : (row.get? first).map (fun node => { node.face with id := second }) =
        ((swapped row).get? second).map Node.face := by
      rw [children] at listed foundFirst
      rw [turned] at again foundSecond
      obtain rfl : place = 2 := by grind
      obtain rfl | rfl : earlier = 0 ∨ earlier = 1 := by omega
      · cases foundFirst
        cases foundSecond
        decide +kernel
      · cases foundFirst
        cases foundSecond
        decide +kernel
    intro unlike
    obtain ⟨one, other, found, otherFound⟩ := unlike.toldApart.exists_nodes
    rw [found, otherFound, Option.map_some, Option.map_some, Option.some.injEq,
      ← id_of_get? otherFound] at looks
    exact not_unlike_of_like found otherFound (.of_face_but_id looks) unlike
  intro apart
  have dirty := marks.mpr alike ⟨4⟩ last lastFound apart
  rw [lastClean] at dirty
  cases dirty

/-- The third child of a row is left clean when the first two change places, though another one
comes right before it. -/
theorem namedRow_overlooked :
    (cleanRow [some "a", some "b", some "c"]).Reachable ∧
      (cleanRow [some "a", some "b", some "c"]).permuteChildren ⟨1⟩ [⟨3⟩, ⟨2⟩, ⟨4⟩] =
          .ok (swapped (cleanRow [some "a", some "b", some "c"])) ∧
        ToldApart (cleanRow [some "a", some "b", some "c"])
            (swapped (cleanRow [some "a", some "b", some "c"])) ⟨4⟩ ⟨4⟩ ∧
          (swapped (cleanRow [some "a", some "b", some "c"])).IsClean ⟨4⟩ := by
  let row := cleanRow [some "a", some "b", some "c"]
  let selector := (Selector.ofId "b").joined .adjacentSibling { id := some "c" }
  have accepted : Selector.parse "#b + #c" = .ok selector := by decide +kernel
  have selected : (row.get? ⟨4⟩).map (selector.selects row.surroundings) = some true := by
    decide +kernel
  have missed : ((swapped row).get? ⟨4⟩).map
      (fun node => (selector.selects (swapped row).surroundings node, node.flags.dirty)) =
        some (false, false) := by
    decide +kernel
  obtain ⟨one, found, before⟩ := Option.map_eq_some_iff.mp selected
  obtain ⟨other, otherFound, now⟩ := Option.map_eq_some_iff.mp missed
  rw [Prod.mk.injEq] at now
  refine ⟨⟨⟨1⟩, _, rfl⟩, by decide +kernel, ?_, other, otherFound, now.2⟩
  refine ⟨"#b + #c", selector, one, other, accepted, found, otherFound, ?_⟩
  rw [before, now.1]
  decide

end WidgetStyle.Tree
