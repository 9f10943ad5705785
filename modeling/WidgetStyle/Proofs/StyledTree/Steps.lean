import WidgetStyle.Proofs.StyledTree.Reconciliation
import WidgetStyle.Proofs.Tree.DocumentOrder

/-!
# The steps of a rebuild

A rebuild goes through the widgets of its view one by one in document order.  For each of
them it adds a node, or it brings in line the classes of a node that is still as it was at
the start.  In between it removes nodes, none of which it has added itself, and puts
children in order.  So whatever these steps keep is kept by a rebuild, and each step can be
told which widgets came before it.
-/

namespace WidgetStyle

namespace View

mutual

/-- The identities of a widget and of all that is inside it, in document order. -/
def identities : View → List Identity
  | widget identity children => identity :: allIdentities children

/-- The identities of some widgets and of all that is inside them. -/
def allIdentities : List View → List Identity
  | [] => []
  | view :: rest => view.identities ++ allIdentities rest

end

theorem allIdentities_append (front back : List View) :
    allIdentities (front ++ back) = allIdentities front ++ allIdentities back := by
  induction front with
  | nil => rfl
  | cons view rest ih => rw [List.cons_append, allIdentities, allIdentities, ih, List.append_assoc]

end View

namespace StyledTree

variable {start styled before after built : StyledTree} {parent id : NodeId}
  {old : FormerChildren} {taken takenLast order ids : List NodeId} {done : List Identity}
  {view : View} {views : List View}

/-! ## Steps -/

/-- What the operations of a rebuild can have made of a styled tree by the time that widgets
of the given identities have been gone through. -/
inductive Steps (start : StyledTree) : List Identity → StyledTree → Prop where
  | none : Steps start [] start
  | append {done : List Identity} {styled grown : StyledTree} {parent id : NodeId}
      {identity : Identity} :
      Steps start done styled → styled.appendChild parent identity = .ok (id, grown) →
        Steps start (done ++ [identity]) grown
  | adopt {done : List Identity} {styled adopted : StyledTree} {id : NodeId}
      {identity : Identity} :
      Steps start done styled → styled.tree.core? id = start.tree.core? id →
        styled.adopt? id identity = some adopted → Steps start (done ++ [identity]) adopted
  | remove {done : List Identity} {styled : StyledTree} {top : NodeId} :
      Steps start done styled → styled.tree.contains top = true →
        (∀ id, styled.tree.Below top id → start.tree.contains id = true) →
          Steps start done (styled.removeSubtree top).2
  | permute {done : List Identity} {styled : StyledTree} {parent : NodeId}
      {order : List NodeId} {tree : Tree} :
      Steps start done styled → styled.tree.permuteChildren parent order = .ok tree →
        Steps start done { styled with tree }

theorem Steps.wellFormed (steps : Steps start done styled) (formed : start.tree.WellFormed) :
    styled.tree.WellFormed := by
  induction steps with
  | none => exact formed
  | append _ added ih =>
      obtain ⟨tree, grown, rfl⟩ := appendChild_eq_ok added
      exact ih.appendChild grown
  | adopt _ _ adopting ih => exact (adopted_adopt? ih adopting).wellFormed
  | @remove _ _ top _ _ _ ih => exact ih.removeSubtree top
  | permute _ permuted ih => exact ih.permuteChildren permuted

mutual

theorem steps_appendView {styled built : StyledTree} {parent id : NodeId} {done : List Identity} :
    (view : View) → Steps start done styled → styled.appendView parent view = .ok (id, built) →
      Steps start (done ++ view.identities) built
  | .widget identity children => by
      intro steps adding
      obtain ⟨grown, added, below⟩ := appendView_eq_ok_iff.mp adding
      have later := steps_appendViews children (steps.append added) below
      rw [View.identities]
      rwa [List.append_assoc] at later

theorem steps_appendViews {styled built : StyledTree} {parent : NodeId} {done : List Identity} :
    (views : List View) → Steps start done styled → styled.appendViews parent views = .ok built →
      Steps start (done ++ View.allIdentities views) built
  | [] => by
      intro steps adding
      rw [appendViews] at adding
      cases adding
      rwa [View.allIdentities, List.append_nil]
  | view :: rest => by
      intro steps adding
      rw [appendViews] at adding
      split at adding
      · cases adding
      · rename_i first
        have later := steps_appendViews rest (steps_appendView view steps first) adding
        rwa [View.allIdentities, ← List.append_assoc]

end

/-! ## What is as it was -/

/-- Taking over classes leaves alone what is below the node. -/
theorem Adopted.sameAt {identity : Identity} (adopted : Adopted before after parent identity)
    (strict : after.tree.StrictlyBelow parent id) : before.tree.SameAt after.tree id := by
  have different : id ≠ parent := by
    intro same
    exact adopted.wellFormed.toLinked.not_strictlyBelow_self parent (same ▸ strict)
  have known := (adopted.links.contains_eq id).trans
    (Tree.LinkedBy.contains_of_strictlyBelow strict)
  exact ⟨known, adopted.confined.core known different, (adopted.links.children id).symm⟩

/-- What is below a free child is as it was at the start. -/
def Intact (start : Tree) (styled : StyledTree) (old : FormerChildren) (taken : List NodeId) :
    Prop :=
  ∀ child id, child ∈ old.free taken → styled.tree.Below child id → start.SameAt styled.tree id

namespace Intact

variable {start : Tree}

/-- What is as it was below the parent is so below its children. -/
theorem of_below (wellFormed : styled.tree.WellFormed)
    (known : styled.tree.contains parent = true)
    (below : ∀ id, styled.tree.StrictlyBelow parent id → start.SameAt styled.tree id) :
    Intact start styled (styled.formerChildren parent) [] := by
  intro child id free under
  exact below id (under.strictly_of_child ((Aligning.start wellFormed known).parentId?_free free))

/-- Aligning views leaves as it was what is below the children that stay free. -/
theorem later (intact : Intact start before old taken)
    (state : Aligning before parent old taken order)
    (aligned : Aligned before after parent old taken takenLast order ids views) :
    Intact start after old takenLast := by
  intro child id free below
  have untouched := aligned.untouched_free state free below
  exact (intact child id (aligned.free_before free) untouched.1).trans untouched.2

/-- Below a node that takes over classes everything is as it was. -/
theorem below_adopted {identity : Identity} (adopted : Adopted before after id identity)
    (known : after.tree.contains id = true) :
    Intact before.tree after (after.formerChildren id) [] :=
  of_below adopted.wellFormed known fun _ strict => adopted.sameAt strict

/-- A child that is kept has everything below it as it was. -/
theorem adopted (intact : Intact start before old taken)
    (state : Aligning before parent old taken order) {identity : Identity}
    (free : id ∈ old.free taken) (adopted : Adopted before after id identity) :
    Intact start after (after.formerChildren id) [] := by
  have known := (adopted.links.contains_eq id).symm.trans
    (Tree.contains_of_parentId? (state.parentId?_free free))
  apply of_below adopted.wellFormed known
  intro other strict
  exact (intact id other free (adopted.links.symm.below strict.below)).trans
    (adopted.sameAt strict)

end Intact

/-! ## Dropping and finishing -/

theorem steps_dropUntaken {rest gone : List NodeId} (distinct : rest.Nodup)
    (former : ∀ id, id ∈ rest → id ∈ old.ids)
    (waiting : ∀ id, id ∈ rest → (id ∈ gone ↔ id ∈ taken))
    (state : Aligning styled parent old gone order) (intact : Intact start.tree styled old gone)
    (steps : Steps start done styled) : Steps start done (styled.dropUntaken taken rest) := by
  obtain ⟨last, dropped, -, -⟩ := dropUntaken_induction
    (motive := fun after last =>
      Aligned styled after parent old gone last order [] [] ∧ Steps start done after)
    (fun both => by simpa using both.1.state)
    (fun {after last child} both free => by
      have alive := Tree.contains_of_parentId? (both.1.state.parentId?_free free)
      have here := intact.later state both.1
      exact ⟨.trans state both.1 (.removed both.1.state free),
        both.2.remove alive fun other below => (here child other free below).known⟩)
    distinct former waiting ⟨.none state, steps⟩
  exact dropped.2

theorem steps_finishChildren (state : Aligning styled parent old taken order)
    (intact : Intact start.tree styled old taken) (steps : Steps start done styled)
    (finishing : styled.finishChildren parent old.ids taken ids = .ok built) :
    Steps start done built := by
  rw [finishChildren] at finishing
  obtain ⟨tree, permuted, same⟩ := exists_of_map_eq_ok finishing
  cases same
  exact (steps_dropUntaken state.sound.distinct (fun _ member => member) (fun _ _ => Iff.rfl)
    state intact steps).permute permuted

theorem steps_alignChildren
    (state : Aligning styled parent (styled.formerChildren parent) [] [])
    (intact : Intact start.tree styled (styled.formerChildren parent) [])
    (aligning : styled.alignChildren parent views = .ok built)
    (through : ∀ {middle ids taken},
      styled.alignViews parent (styled.formerChildren parent) [] 0 views =
        .ok (ids, taken, middle) → Steps start done middle) : Steps start done built := by
  obtain ⟨ids, taken, middle, inner, finishing⟩ := exists_of_alignChildren aligning
  obtain ⟨_, _, _, again, aligned⟩ := aligned_alignViews 0 views state
  rw [inner] at again
  cases again
  exact steps_finishChildren aligned.state (intact.later state aligned) (through inner) finishing

/-! ## Views -/

mutual

theorem steps_alignView {styled built : StyledTree} {parent id : NodeId} {old : FormerChildren}
    {taken takenLast order : List NodeId} {done : List Identity} {place : Nat} :
    (view : View) → Aligning styled parent old taken order →
      Intact start.tree styled old taken → Steps start done styled →
      styled.alignView parent old taken place view = .ok (id, takenLast, built) →
      Steps start (done ++ view.identities) built
  | .widget identity children => by
      intro state intact steps aligning
      cases obtained_of_alignView aligning with
      | made _ added => exact steps_appendView (.widget identity children) steps added
      | @replaced child _ _ chosen _ added =>
          have free := mem_free_of_chosen state chosen
          have alive := Tree.contains_of_parentId? (state.parentId?_free free)
          exact steps_appendView (.widget identity children)
            (steps.remove alive fun other below => (intact child other free below).known) added
      | @kept _ middle _ chosen adopting inner =>
          have free := mem_free_of_chosen state chosen
          have adopted := adopted_adopt? state.wellFormed adopting
          have known := (adopted.links.contains_eq id).symm.trans
            (Tree.contains_of_parentId? (state.parentId?_free free))
          have here := steps.adopt (intact id id free .top).core adopting
          have inside := intact.adopted state free adopted
          have begin := Aligning.start adopted.wellFormed known
          have later := steps_alignChildren begin inside inner fun views =>
            steps_alignViews children begin inside here views
          rw [View.identities]
          rwa [List.append_assoc] at later

theorem steps_alignViews {styled built : StyledTree} {parent : NodeId} {old : FormerChildren}
    {taken takenLast order ids : List NodeId} {done : List Identity} {place : Nat} :
    (views : List View) → Aligning styled parent old taken order →
      Intact start.tree styled old taken → Steps start done styled →
      styled.alignViews parent old taken place views = .ok (ids, takenLast, built) →
      Steps start (done ++ View.allIdentities views) built
  | [] => by
      intro _ _ steps aligning
      rw [alignViews] at aligning
      cases aligning
      rwa [View.allIdentities, List.append_nil]
  | view :: rest => by
      intro state intact steps aligning
      obtain ⟨id, takenMiddle, middle, first, aligned⟩ := aligned_alignView place view state
      rw [alignViews, first] at aligning
      obtain ⟨last, below, same⟩ := exists_of_map_eq_ok aligning
      cases same
      have later := steps_alignViews rest aligned.state (intact.later state aligned)
        (steps_alignView view state intact steps first) below
      rwa [View.allIdentities, ← List.append_assoc]

end

/-! ## Whole rebuilds -/

/-- A build from scratch takes steps from its root on. -/
theorem steps_buildAnew {root : NodeId} (building : styled.buildAnew view = .ok (root, built)) :
    Steps { styled.clearTree with tree := (styled.clearTree.tree.plantRoot view.identity).2 }
      (View.allIdentities view.children) built := by
  rw [buildAnew] at building
  obtain ⟨finished, below, same⟩ := exists_of_map_eq_ok building
  cases same
  exact steps_appendViews view.children .none below

/-- A rebuild that can keep the root takes steps from the tree as it is. -/
theorem steps_rebuild {root : NodeId} {middle : StyledTree} (wellFormed : styled.tree.WellFormed)
    (rooted : styled.tree.root = some root)
    (adopting : styled.adopt? root view.identity = some middle)
    (aligning : middle.alignChildren root view.children = .ok built) :
    Steps styled view.identities built := by
  rcases view with ⟨identity, children⟩
  have adopted := adopted_adopt? wellFormed adopting
  have known := (adopted.links.contains_eq root).symm.trans (wellFormed.rootFound rooted).1
  have state := Aligning.start adopted.wellFormed known
  have intact := Intact.below_adopted adopted known
  have start : Steps styled [identity] middle := .adopt .none rfl adopting
  exact steps_alignChildren state intact aligning fun views =>
    steps_alignViews children state intact start views

end StyledTree

end WidgetStyle
