import WidgetStyle.Proofs.Outcomes
import WidgetStyle.Proofs.StyledTree.Coherence

/-!
# Building from views

A build is made of a few operations: adding a child, bringing classes in line,
removing a subtree, and reordering children.  What each of these keeps is kept by
a whole build, whatever the view.  The ways in which a view gets its node are listed
once, for all that is said about builds.
-/

namespace WidgetStyle.StyledTree

variable {holds : StyledTree → Prop}

/-! ## Adding views -/

/-- A view is added by adding a child and the views inside the view below that. -/
theorem appendView_eq_ok_iff {styled built : StyledTree} {parent id : NodeId}
    {identity : Identity} {children : List View} :
    styled.appendView parent (.widget identity children) = .ok (id, built) ↔
      ∃ grown, styled.appendChild parent identity = .ok (id, grown) ∧
        grown.appendViews id children = .ok built := by
  rw [appendView]
  constructor
  · intro done
    split at done
    · cases done
    · rename_i added
      obtain ⟨finished, below, same⟩ := exists_of_map_eq_ok done
      cases same
      exact ⟨_, added, below⟩
  · intro parts
    rcases parts with ⟨grown, added, below⟩
    simp only [added, below]
    rfl

/-- Adding a child keeps the property. -/
def KeptByAppend (holds : StyledTree → Prop) : Prop :=
  ∀ {styled grown parent identity id}, holds styled →
    styled.appendChild parent identity = .ok (id, grown) → holds grown

mutual

theorem holds_appendView (append : KeptByAppend holds) {styled built : StyledTree}
    {parent id : NodeId} : (view : View) → holds styled →
      styled.appendView parent view = .ok (id, built) → holds built
  | .widget identity children => by
      intro kept done
      obtain ⟨grown, added, below⟩ := appendView_eq_ok_iff.mp done
      exact holds_appendViews append children (append kept added) below

theorem holds_appendViews (append : KeptByAppend holds) {styled built : StyledTree}
    {parent : NodeId} : (views : List View) → holds styled →
      styled.appendViews parent views = .ok built → holds built
  | [] => by
      intro kept done
      rw [appendViews] at done
      cases done
      exact kept
  | view :: rest => by
      intro kept done
      rw [appendViews] at done
      split at done
      · cases done
      · rename_i first
        exact holds_appendViews append rest (holds_appendView append view kept first) done

end

/-! ## The node of a view -/

section Views

variable {styled built : StyledTree} {parent id : NodeId} {old : FormerChildren}
  {taken takenLast order : List NodeId} {place : Nat} {identity : Identity}
  {children views : List View}

/-- The former child that a view at the given place takes. -/
def candidate? (styled : StyledTree) (old : FormerChildren) (taken : List NodeId) (place : Nat)
    (identity : Identity) : Option NodeId :=
  (styled.keepable? old place identity).filter fun id => !taken.contains id

/-- How a view gets its node: it is made anew when the view finds no free child, or in
the stead of a child that cannot stand for the view, and else the child is kept. -/
inductive Obtained (styled : StyledTree) (parent : NodeId) (old : FormerChildren)
    (taken : List NodeId) (place : Nat) (identity : Identity) (children : List View) :
    NodeId → List NodeId → StyledTree → Prop where
  | made {id : NodeId} {built : StyledTree} :
      styled.candidate? old taken place identity = none →
        styled.appendView parent (.widget identity children) = .ok (id, built) →
          Obtained styled parent old taken place identity children id taken built
  | replaced {child id : NodeId} {built : StyledTree} :
      styled.candidate? old taken place identity = some child →
        styled.adopt? child identity = none →
          (styled.removeSubtree child).2.appendView parent (.widget identity children) =
            .ok (id, built) →
            Obtained styled parent old taken place identity children id (child :: taken) built
  | kept {child : NodeId} {adopted built : StyledTree} :
      styled.candidate? old taken place identity = some child →
        styled.adopt? child identity = some adopted →
          adopted.alignChildren child children = .ok built →
            Obtained styled parent old taken place identity children child (child :: taken) built

theorem obtained_of_alignView
    (done : styled.alignView parent old taken place (.widget identity children) =
      .ok (id, takenLast, built)) :
    Obtained styled parent old taken place identity children id takenLast built := by
  rw [alignView] at done
  simp only at done
  split at done
  · rename_i chosen
    split at done
    · cases done
    · rename_i added
      obtain ⟨finished, below, same⟩ := exists_of_map_eq_ok done
      cases same
      exact .made chosen (appendView_eq_ok_iff.mpr ⟨_, added, below⟩)
  · rename_i child chosen
    split at done
    · rename_i refused
      split at done
      · cases done
      · rename_i added
        obtain ⟨finished, below, same⟩ := exists_of_map_eq_ok done
        cases same
        exact .replaced chosen refused (appendView_eq_ok_iff.mpr ⟨_, added, below⟩)
    · rename_i adopted adopting
      split at done
      · cases done
      · rename_i aligned
        obtain ⟨finished, below, same⟩ := exists_of_map_eq_ok done
        cases same
        refine .kept chosen adopting ?_
        rw [alignChildren]
        simp only [aligned]
        exact below

theorem Obtained.alignView_eq
    (obtained : Obtained styled parent old taken place identity children id takenLast built) :
    styled.alignView parent old taken place (.widget identity children) =
      .ok (id, takenLast, built) := by
  rw [alignView]
  cases obtained with
  | made chosen done =>
      rw [candidate?] at chosen
      obtain ⟨grown, added, below⟩ := appendView_eq_ok_iff.mp done
      simp only [chosen, added, below]
      rfl
  | replaced chosen refused done =>
      rw [candidate?] at chosen
      obtain ⟨grown, added, below⟩ := appendView_eq_ok_iff.mp done
      simp only [chosen, refused, added, below]
      rfl
  | kept chosen adopting done =>
      rw [candidate?] at chosen
      rw [alignChildren] at done
      simp only [chosen, adopting]
      split at done
      · cases done
      · rw [done]
        rfl

/-- Aligning the children of a node is aligning the views and finishing. -/
theorem exists_of_alignChildren (done : styled.alignChildren parent views = .ok built) :
    ∃ order taken aligned,
      styled.alignViews parent (styled.formerChildren parent) [] 0 views =
          .ok (order, taken, aligned) ∧
        aligned.finishChildren parent (styled.formerChildren parent).ids taken order =
          .ok built := by
  rw [alignChildren] at done
  split at done
  · cases done
  · rename_i aligned
    exact ⟨_, _, _, aligned, done⟩

/-- A rebuild starts from scratch, or it brings the children of the root in line. -/
theorem rebuild_cases {view : View} {root : NodeId}
    (done : styled.rebuild view = .ok (root, built)) :
    styled.buildAnew view = .ok (root, built) ∨
      ∃ adopted, styled.tree.root = some root ∧ styled.adopt? root view.identity = some adopted ∧
        adopted.alignChildren root view.children = .ok built := by
  rw [rebuild] at done
  split at done
  · exact .inl done
  · rename_i rooted
    split at done
    · exact .inl done
    · rename_i adopted adopting
      obtain ⟨finished, aligned, same⟩ := exists_of_map_eq_ok done
      cases same
      exact .inr ⟨adopted, rooted, adopting, aligned⟩

end Views

/-! ## Aligning views -/

/-- All operations of a rebuild keep the property. -/
structure KeptByRebuild (holds : StyledTree → Prop) : Prop where
  append : KeptByAppend holds
  adopt : ∀ {styled adopted id identity}, holds styled →
    styled.adopt? id identity = some adopted → holds adopted
  remove : ∀ {styled id}, holds styled → holds (styled.removeSubtree id).2
  permute : ∀ {styled parent order tree}, holds styled →
    styled.tree.permuteChildren parent order = .ok tree → holds { styled with tree }

theorem holds_dropUntaken
    (remove : ∀ {styled id}, holds styled → holds (styled.removeSubtree id).2)
    {styled : StyledTree} {taken old : List NodeId} (before : holds styled) :
    holds (styled.dropUntaken taken old) := by
  rw [dropUntaken]
  induction old generalizing styled with
  | nil => exact before
  | cons id rest ih =>
      rw [List.foldl_cons]
      apply ih
      split
      · exact remove before
      · exact before

theorem holds_finishChildren
    (remove : ∀ {styled id}, holds styled → holds (styled.removeSubtree id).2)
    (permute : ∀ {styled parent order tree}, holds styled →
      styled.tree.permuteChildren parent order = .ok tree → holds { styled with tree })
    {styled built : StyledTree} {parent : NodeId} {old taken order : List NodeId}
    (before : holds styled)
    (done : styled.finishChildren parent old taken order = .ok built) : holds built := by
  rw [finishChildren] at done
  have trimmed : holds (styled.dropUntaken taken old) := holds_dropUntaken remove before
  obtain ⟨tree, permuted, same⟩ := exists_of_map_eq_ok done
  cases same
  exact permute trimmed permuted

mutual

theorem holds_alignView (kept : KeptByRebuild holds) {styled built : StyledTree}
    {parent id : NodeId} {old : FormerChildren} {taken takenLast : List NodeId} {place : Nat} :
    (view : View) → holds styled →
      styled.alignView parent old taken place view = .ok (id, takenLast, built) → holds built
  | .widget identity children => by
      intro before done
      cases obtained_of_alignView done with
      | made _ added => exact holds_appendView kept.append (.widget identity children) before added
      | replaced _ _ added =>
          exact holds_appendView kept.append (.widget identity children) (kept.remove before) added
      | kept _ adopting inner =>
          obtain ⟨order, last, aligned, views, finishing⟩ := exists_of_alignChildren inner
          exact holds_finishChildren kept.remove kept.permute
            (holds_alignViews kept children (kept.adopt before adopting) views) finishing

theorem holds_alignViews (kept : KeptByRebuild holds) {styled built : StyledTree}
    {parent : NodeId} {old : FormerChildren} {taken order takenLast : List NodeId} {place : Nat} :
    (views : List View) → holds styled →
      styled.alignViews parent old taken place views = .ok (order, takenLast, built) → holds built
  | [] => by
      intro before done
      rw [alignViews] at done
      cases done
      exact before
  | view :: rest => by
      intro before done
      rw [alignViews] at done
      split at done
      · cases done
      · rename_i aligned
        obtain ⟨finished, below, same⟩ := exists_of_map_eq_ok done
        cases same
        exact holds_alignViews kept rest (holds_alignView kept view before aligned) below

end

end WidgetStyle.StyledTree
