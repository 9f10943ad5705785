import WidgetStyle.Proofs.StyledTree.Mirroring

/-!
# Adding views

Adding views under a node puts new children behind those that it has, and these
mirror the views.  Nothing else is touched, and where the node is known nothing can
fail.
-/

namespace WidgetStyle.StyledTree

variable {styled before middle after : StyledTree} {parent id : NodeId}

/-- What a styled tree is after views were added under a parent. -/
structure Extended (before after : StyledTree) (parent : NodeId) (made : List NodeId)
    (views : List View) : Prop where
  wellFormed : after.tree.WellFormed
  plain : before.tree.Plain → View.AllProper views → after.tree.Plain
  confined : before.tree.Confined after.tree (· = parent)
  hub : after.tree.core? parent = before.tree.core? parent
  children : after.tree.childrenOf parent = before.tree.childrenOf parent ++ made
  mirrors : after.tree.MirrorsAll made views

namespace Extended

variable {made more : List NodeId} {views others : List View}

theorem known (extended : Extended before after parent made views)
    (present : before.tree.contains parent = true) : after.tree.contains parent = true :=
  (Tree.contains_eq_of_core?_eq extended.hub).trans present

theorem parentId?_made (extended : Extended before after parent made views) {child : NodeId}
    (member : child ∈ made) : after.tree.parentId? child = some parent := by
  apply extended.wellFormed.childOf.mp
  rw [extended.children]
  exact List.mem_append_right _ member

/-- The new children were not there before. -/
theorem not_known (extended : Extended before after parent made views)
    (wellFormed : before.tree.WellFormed) {child : NodeId} (member : child ∈ made) :
    ¬before.tree.contains child = true := by
  intro known
  have link := extended.parentId?_made member
  have former := extended.confined.former (Tree.contains_of_parentId? link)
    (wellFormed.beforeNext known)
  have listed := wellFormed.childOf.mpr (former.2.symm.trans link)
  have distinct := extended.wellFormed.childrenDistinct parent
  rw [extended.children] at distinct
  exact (List.nodup_append.mp distinct).2.2 child listed child member rfl

/-- The parent does not lie below its new children. -/
theorem apart (extended : Extended before after parent made views) {child other : NodeId}
    (member : child ∈ made) (below : after.tree.Below child other) : other ≠ parent := by
  intro same
  rw [same] at below
  exact extended.wellFormed.toLinked.not_strictlyBelow_self child
    ⟨parent, extended.parentId?_made member, below⟩

theorem trans (first : Extended before middle parent made views)
    (second : Extended middle after parent more others) :
    Extended before after parent (made ++ more) (views ++ others) where
  wellFormed := second.wellFormed
  plain := by
    intro plain proper
    rw [View.allProper_append_iff] at proper
    exact second.plain (first.plain plain proper.1) proper.2
  confined := (first.confined.trans second.confined).mono fun _ touched => touched.elim id id
  hub := second.hub.trans first.hub
  children := by
    rw [second.children, first.children, List.append_assoc]
  mirrors := by
    have kept : after.tree.MirrorsAll made views := by
      apply first.mirrors.outside second.confined first.wellFormed.toLinked
      intro top member other below
      exact first.apart member below
    exact kept.append second.mirrors

/-- A new child with what was added below it is one added view. -/
theorem widget {grown : StyledTree} {identity : Identity} {children : List View}
    (wellFormed : before.tree.WellFormed) (known : before.tree.contains parent = true)
    (added : before.appendChild parent identity = .ok (id, grown))
    (inner : Extended grown after id made children) :
    Extended before after parent [id] [.widget identity children] := by
  obtain ⟨tree, done, rfl⟩ := appendChild_eq_ok added
  have appended := wellFormed.appended done
  have unknown : before.tree.get? id = none := by
    rw [appended.new_eq]
    exact wellFormed.toLinked.get?_nextId
  have different : parent ≠ id := by
    rw [appended.new_eq]
    exact wellFormed.toLinked.parent_ne_nextId known
  have present : tree.contains parent = true := by
    rw [Tree.contains_eq_isSome_core?, appended.core, if_neg different,
      ← Tree.contains_eq_isSome_core?]
    exact known
  constructor
  · exact inner.wellFormed
  · intro plain proper
    exact inner.plain (plain.append wellFormed proper.1.1 done) proper.1.2
  · refine ((wellFormed.confined_append done).trans inner.confined).mono ?_
    intro other alive touched
    rcases touched with same | same
    · exact same
    · rw [same, Tree.contains, unknown] at alive
      cases alive
  · rw [inner.confined.core present different, appended.core, if_neg different]
  · rw [inner.confined.children present different, appended.children, if_pos rfl]
  · have core : after.tree.core? id = some (before.tree.newNode identity (some parent)).core := by
      rw [inner.hub, appended.core, if_pos rfl]
    have below : after.tree.MirrorsAll (after.tree.childrenOf id) children := by
      rw [inner.children, appended.children, if_neg different.symm,
        Tree.childrenOf_eq_nil unknown]
      exact inner.mirrors
    exact .cons (.widget core ⟨rfl, rfl, fun _ => Iff.rfl⟩ below) .nil

end Extended

/-- Under a known parent a child can be added. -/
theorem exists_appendChild (wellFormed : styled.tree.WellFormed)
    (known : styled.tree.contains parent = true) (identity : Identity) :
    ∃ id grown, styled.appendChild parent identity = .ok (id, grown) ∧
      grown.tree.WellFormed ∧ grown.tree.contains id = true := by
  obtain ⟨tree, added⟩ := Tree.exists_appendChild known identity
  have appended := wellFormed.appended added
  refine ⟨styled.tree.nextId, { styled with tree }, ?_, wellFormed.appendChild added, ?_⟩
  · rw [appendChild, added]
    rfl
  · rw [Tree.contains_eq_isSome_core?, appended.core, if_pos rfl]
    rfl

mutual

theorem extended_appendView {styled : StyledTree} {parent : NodeId} :
    (view : View) → styled.tree.WellFormed → styled.tree.contains parent = true →
      ∃ id built, styled.appendView parent view = .ok (id, built) ∧
        Extended styled built parent [id] [view]
  | .widget identity children => by
      intro wellFormed known
      obtain ⟨id, grown, added, grownFormed, present⟩ :=
        exists_appendChild wellFormed known identity
      obtain ⟨made, built, below, extended⟩ :=
        extended_appendViews children grownFormed present
      exact ⟨id, built, appendView_eq_ok_iff.mpr ⟨grown, added, below⟩,
        extended.widget wellFormed known added⟩

theorem extended_appendViews {styled : StyledTree} {parent : NodeId} :
    (views : List View) → styled.tree.WellFormed → styled.tree.contains parent = true →
      ∃ made built, styled.appendViews parent views = .ok built ∧
        Extended styled built parent made views
  | [] => by
      intro wellFormed _
      refine ⟨[], styled, by rw [appendViews], ?_⟩
      exact ⟨wellFormed, fun plain _ => plain, .refl _, rfl, (List.append_nil _).symm, .nil⟩
  | view :: rest => by
      intro wellFormed known
      obtain ⟨id, middle, first, extended⟩ := extended_appendView view wellFormed known
      obtain ⟨made, built, later, further⟩ :=
        extended_appendViews rest extended.wellFormed (extended.known known)
      refine ⟨id :: made, built, ?_, extended.trans further⟩
      rw [appendViews, first]
      exact later

end

end WidgetStyle.StyledTree
