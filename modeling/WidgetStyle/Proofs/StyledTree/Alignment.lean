import WidgetStyle.Proofs.StyledTree.Extension

/-!
# Aligning children with views

While the children of a node are brought in line with views, its children are the
former ones that are still free and the ones that stand for a view already.  Each
view takes away at most one free child and adds the node that stands for it; what
is free after the last view is dropped, and the rest is put in order.  Only the
parent's list and what lies below the children taken is touched, so a node that
stands for a view goes on doing so.
-/

namespace WidgetStyle.StyledTree

variable {styled before middle after : StyledTree} {parent id : NodeId}

/-! ## Former children -/

namespace FormerChildren

variable {old : FormerChildren} {taken : List NodeId}

/-- The former children that no view has taken. -/
def free (old : FormerChildren) (taken : List NodeId) : List NodeId :=
  old.ids.filter fun child => !taken.contains child

theorem mem_free_iff {child : NodeId} :
    child ∈ old.free taken ↔ child ∈ old.ids ∧ child ∉ taken := by
  rw [free, List.mem_filter, Bool.not_eq_true', Bool.eq_false_iff, ne_eq, List.contains_iff_mem]

theorem free_nil (old : FormerChildren) : old.free [] = old.ids := by
  rw [free]
  exact List.filter_eq_self.mpr fun _ _ => rfl

theorem free_cons (distinct : (old.free taken).Nodup) (child : NodeId) :
    old.free (child :: taken) = (old.free taken).erase child := by
  rw [distinct.erase_eq_filter, free, free, List.filter_filter]
  apply List.filter_congr
  intro other _
  rw [List.contains_cons, Bool.not_or]
  rfl

/-- Children are found by their element ids among the former children only. -/
structure Sound (old : FormerChildren) : Prop where
  distinct : old.ids.Nodup
  named : ∀ {name child}, old.byElementId.get? name = some child → child ∈ old.ids

end FormerChildren

/-- The element ids of some children with one child more. -/
def enterChild (table : Table String NodeId) (child : Node) : Table String NodeId :=
  match child.identity.elementId with
  | some name => table.put name child.id
  | none => table

theorem get?_enterChild (table : Table String NodeId) (node : Node) (name : String) :
    (enterChild table node).get? name =
      if node.identity.elementId = some name then some node.id else table.get? name := by
  rw [enterChild]
  cases node.identity.elementId with
  | none => simp
  | some own => simp [eq_comm]

/-- An element id leads to one of the children that have it. -/
theorem exists_of_foldl_enterChild {nodes : List Node} {table : Table String NodeId}
    {name : String} {child : NodeId}
    (found : (nodes.foldl enterChild table).get? name = some child) :
    (∃ node ∈ nodes, node.id = child ∧ node.identity.elementId = some name) ∨
      table.get? name = some child := by
  induction nodes generalizing table with
  | nil => exact .inr found
  | cons node rest ih =>
      rcases ih found with ⟨other, member, named⟩ | entered
      · exact .inl ⟨other, List.mem_cons_of_mem _ member, named⟩
      · rw [get?_enterChild] at entered
        split at entered
        · rename_i named
          exact .inl ⟨node, List.mem_cons_self, Option.some.inj entered, named⟩
        · exact .inr entered

theorem exists_of_formerChildren {name : String} {child : NodeId}
    (found : (styled.formerChildren parent).byElementId.get? name = some child) :
    child ∈ styled.tree.childrenOf parent ∧
      ∃ node, styled.tree.get? child = some node ∧ node.identity.elementId = some name := by
  rcases exists_of_foldl_enterChild found with ⟨node, member, same, named⟩ | entered
  · obtain ⟨id, listed, lookup⟩ := List.mem_filterMap.mp member
    rw [Tree.id_of_get? lookup] at same
    rw [same] at listed lookup
    exact ⟨listed, node, lookup, named⟩
  · cases entered

theorem sound_formerChildren (linked : styled.tree.Linked) (parent : NodeId) :
    (styled.formerChildren parent).Sound where
  distinct := linked.childrenDistinct parent
  named found := (exists_of_formerChildren found).1

theorem mem_of_keepable? {old : FormerChildren} (sound : old.Sound) {place : Nat}
    {identity : Identity} {child : NodeId}
    (kept : styled.keepable? old place identity = some child) : child ∈ old.ids := by
  rw [keepable?] at kept
  split at kept
  · exact sound.named kept
  · split at kept
    · cases kept
    · rename_i lookup
      obtain ⟨id, listed, found⟩ := Option.bind_eq_some_iff.mp lookup
      split at kept
      · cases kept
        rw [Tree.id_of_get? found]
        exact List.mem_of_getElem? listed
      · cases kept

/-! ## The invariant -/

/-- While children are aligned: the children of the parent are the free ones and
those that stand for a view. -/
structure Aligning (styled : StyledTree) (parent : NodeId) (old : FormerChildren)
    (taken order : List NodeId) : Prop where
  wellFormed : styled.tree.WellFormed
  known : styled.tree.contains parent = true
  sound : old.Sound
  children : (styled.tree.childrenOf parent).Perm (old.free taken ++ order)

namespace Aligning

variable {old : FormerChildren} {taken order : List NodeId}

theorem start (wellFormed : styled.tree.WellFormed)
    (known : styled.tree.contains parent = true) :
    Aligning styled parent (styled.formerChildren parent) [] [] where
  wellFormed := wellFormed
  known := known
  sound := sound_formerChildren wellFormed.toLinked parent
  children := by
    rw [FormerChildren.free_nil, List.append_nil]
    exact .refl _

theorem parentId?_free (aligning : Aligning styled parent old taken order) {child : NodeId}
    (free : child ∈ old.free taken) : styled.tree.parentId? child = some parent :=
  aligning.wellFormed.childOf.mp
    (aligning.children.mem_iff.mpr (List.mem_append_left _ free))

theorem parentId?_order (aligning : Aligning styled parent old taken order) {child : NodeId}
    (member : child ∈ order) : styled.tree.parentId? child = some parent :=
  aligning.wellFormed.childOf.mp
    (aligning.children.mem_iff.mpr (List.mem_append_right _ member))

theorem distinct (aligning : Aligning styled parent old taken order) :
    (old.free taken ++ order).Nodup :=
  aligning.children.nodup_iff.mp (aligning.wellFormed.childrenDistinct parent)

theorem free_ne_order (aligning : Aligning styled parent old taken order) {child other : NodeId}
    (free : child ∈ old.free taken) (member : other ∈ order) : child ≠ other :=
  (List.nodup_append.mp aligning.distinct).2.2 child free other member

/-- The parent does not lie below a free child. -/
theorem not_below_free (aligning : Aligning styled parent old taken order) {child : NodeId}
    (free : child ∈ old.free taken) : ¬styled.tree.Below child parent := by
  intro below
  exact aligning.wellFormed.toLinked.not_strictlyBelow_self child
    ⟨parent, aligning.parentId?_free free, below⟩

/-- What is below a node that stands for a view is neither the parent nor below a free child. -/
theorem untouched_order (aligning : Aligning styled parent old taken order) {top other : NodeId}
    (listed : top ∈ order) (below : styled.tree.Below top other) :
    ¬(other = parent ∨ ∃ child, child ∈ old.free taken ∧ styled.tree.Below child other) := by
  have linked := aligning.wellFormed.toLinked
  have link := aligning.parentId?_order listed
  rintro (same | ⟨child, free, under⟩)
  · rw [same] at below
    exact linked.not_strictlyBelow_self top ⟨parent, link, below⟩
  · exact aligning.free_ne_order free listed
      (linked.siblings_apart (aligning.parentId?_free free) link under below)

/-- A free child that is taken leaves the free ones. -/
theorem perm_take (aligning : Aligning styled parent old taken order) {child : NodeId}
    (free : child ∈ old.free taken) :
    (old.free taken ++ order).Perm (old.free (child :: taken) ++ (order ++ [child])) := by
  rw [FormerChildren.free_cons (List.nodup_append.mp aligning.distinct).1]
  have taken := (List.perm_cons_erase free).append_right order
  refine taken.trans ?_
  rw [← List.append_assoc]
  exact (List.perm_append_singleton child _).symm

end Aligning

/-! ## Steps -/

/-- What a styled tree is after some views were aligned: they are mirrored, and only
the parent's list and what is below the children newly taken was touched. -/
structure Aligned (before after : StyledTree) (parent : NodeId) (old : FormerChildren)
    (taken takenLast order ids : List NodeId) (views : List View) : Prop where
  state : Aligning after parent old takenLast (order ++ ids)
  plain : before.tree.Plain → View.AllProper views → after.tree.Plain
  confined : before.tree.Confined after.tree fun other =>
    other = parent ∨ ∃ child, child ∈ old.free taken ∧ child ∈ takenLast ∧
      before.tree.Below child other
  hub : after.tree.core? parent = before.tree.core? parent
  grows : ∀ child, child ∈ taken → child ∈ takenLast
  sequence : ((after.tree.childrenOf parent).filter before.tree.contains).Sublist
    (before.tree.childrenOf parent)
  mirrors : after.tree.MirrorsAll ids views

namespace Aligned

variable {old : FormerChildren} {taken takenMiddle takenLast order ids more : List NodeId}
  {views others : List View}

theorem free_before (aligned : Aligned before after parent old taken takenLast order ids views)
    {child : NodeId} (free : child ∈ old.free takenLast) : child ∈ old.free taken := by
  have parts := FormerChildren.mem_free_iff.mp free
  exact FormerChildren.mem_free_iff.mpr ⟨parts.1, fun gone => parts.2 (aligned.grows child gone)⟩

/-- Aligning views does not touch what is below a child that stays free. -/
theorem untouched_free (state : Aligning before parent old taken order)
    (aligned : Aligned before after parent old taken takenLast order ids views) {child : NodeId}
    (free : child ∈ old.free takenLast) (under : after.tree.Below child id) :
    before.tree.Below child id ∧ before.tree.SameAt after.tree id := by
  have linked := state.wellFormed.toLinked
  have wasFree := aligned.free_before free
  have link := state.parentId?_free wasFree
  have apart : ∀ other, before.tree.Below child other → ¬(other = parent ∨
      ∃ child, child ∈ old.free taken ∧ child ∈ takenLast ∧ before.tree.Below child other) := by
    intro other below touched
    rcases touched with same | ⟨sibling, siblingFree, gone, reached⟩
    · exact state.not_below_free wasFree (same ▸ below)
    · have same := linked.siblings_apart link (state.parentId?_free siblingFree) below reached
      exact (FormerChildren.mem_free_iff.mp free).2 (same ▸ gone)
  obtain ⟨below, known⟩ := aligned.confined.below_untouched linked
    aligned.state.wellFormed.toLinked (Tree.contains_of_parentId? link) apart under
  exact ⟨below, known, aligned.confined.core known (apart id below),
    aligned.confined.children known (apart id below)⟩

/-- Only the parent's list and what is below free children was touched. -/
theorem confined_free (aligned : Aligned before after parent old taken takenLast order ids views) :
    before.tree.Confined after.tree fun other =>
      other = parent ∨ ∃ child, child ∈ old.free taken ∧ before.tree.Below child other := by
  refine aligned.confined.mono ?_
  rintro other - (same | ⟨child, free, -, below⟩)
  · exact .inl same
  · exact .inr ⟨child, free, below⟩

/-- Nodes that stand for views stay mirrors when further views are aligned. -/
theorem mirrors_later (state : Aligning before parent old taken (order ++ ids))
    (mirrors : before.tree.MirrorsAll ids views)
    (later : Aligned before after parent old taken takenLast (order ++ ids) more others) :
    after.tree.MirrorsAll ids views := by
  apply mirrors.outside later.confined_free state.wellFormed.toLinked
  intro top member other below
  exact state.untouched_order (List.mem_append_right _ member) below

theorem trans (state : Aligning before parent old taken order)
    (first : Aligned before middle parent old taken takenMiddle order ids views)
    (second : Aligned middle after parent old takenMiddle takenLast (order ++ ids) more others) :
    Aligned before after parent old taken takenLast order (ids ++ more) (views ++ others) where
  state := by
    rw [← List.append_assoc]
    exact second.state
  plain := by
    intro plain proper
    rw [View.allProper_append_iff] at proper
    exact second.plain (first.plain plain proper.1) proper.2
  confined := by
    refine (first.confined.trans second.confined).mono ?_
    intro other known touched
    rcases touched with (same | ⟨child, free, gone, below⟩) | same | ⟨child, free, gone, below⟩
    · exact .inl same
    · exact .inr ⟨child, free, second.grows child gone, below⟩
    · exact .inl same
    · have parts := FormerChildren.mem_free_iff.mp free
      refine .inr ⟨child, FormerChildren.mem_free_iff.mpr ⟨parts.1, ?_⟩, gone, ?_⟩
      · intro before
        exact parts.2 (first.grows child before)
      · exact first.confined.below state.wellFormed.toLinked known below
  hub := second.hub.trans first.hub
  grows := by
    intro child member
    exact second.grows child (first.grows child member)
  sequence := by
    have between : (after.tree.childrenOf parent).filter before.tree.contains =
        ((after.tree.childrenOf parent).filter middle.tree.contains).filter
          before.tree.contains := by
      rw [List.filter_filter]
      apply List.filter_congr
      intro child member
      have alive := second.state.wellFormed.toLinked.contains_child member
      rw [Bool.eq_iff_iff, Bool.and_eq_true]
      constructor
      · intro known
        have older := Int.lt_of_lt_of_le (state.wellFormed.beforeNext known) first.confined.nextId
        exact ⟨known, (second.confined.former alive older).1⟩
      · intro both
        exact both.1
    rw [between]
    exact (second.sequence.filter _).trans first.sequence
  mirrors := (mirrors_later first.state first.mirrors second).append second.mirrors

/-- Aligning no view changes nothing. -/
theorem none (state : Aligning styled parent old taken order) :
    Aligned styled styled parent old taken taken order [] [] where
  state := by
    rw [List.append_nil]
    exact state
  plain plain _ := plain
  confined := .refl _
  hub := rfl
  grows _ member := member
  sequence := List.filter_sublist
  mirrors := .nil

/-- A view for which a new child is made. -/
theorem made (state : Aligning before parent old taken order)
    (extended : Extended before after parent ids views) :
    Aligned before after parent old taken taken order ids views where
  state :=
    { wellFormed := extended.wellFormed
      known := extended.known state.known
      sound := state.sound
      children := by
        rw [extended.children, ← List.append_assoc]
        exact state.children.append_right ids }
  plain := extended.plain
  confined := extended.confined.mono fun _ touched => .inl touched
  hub := extended.hub
  grows _ member := member
  sequence := by
    have new : ids.filter before.tree.contains = [] :=
      List.filter_eq_nil_iff.mpr fun _ member => extended.not_known state.wellFormed member
    rw [extended.children, List.filter_append, new, List.append_nil]
    exact List.filter_sublist
  mirrors := extended.mirrors

/-- A free child that is removed. -/
theorem removed (state : Aligning styled parent old taken order) {child : NodeId}
    (free : child ∈ old.free taken) :
    Aligned styled (styled.removeSubtree child).2 parent old taken (child :: taken) order [] [] := by
  have link := state.parentId?_free free
  have known := Tree.contains_of_parentId? link
  have outside := state.not_below_free free
  have gone := state.wellFormed.removed known
  have cores := state.wellFormed.core?_removeSubtree known outside
  have children : (styled.removeSubtree child).2.tree.childrenOf parent =
      (styled.tree.childrenOf parent).erase child := gone.children outside
  constructor
  · constructor
    · exact state.wellFormed.removeSubtree child
    · exact (Tree.contains_eq_of_core?_eq cores).trans state.known
    · exact state.sound
    · rw [children, List.append_nil,
        FormerChildren.free_cons (List.nodup_append.mp state.distinct).1,
        ← List.erase_append_left _ free]
      exact state.children.erase child
  · intro plain _
    exact plain.remove state.wellFormed child
  · refine (state.wellFormed.confined_remove link).mono ?_
    intro other _ touched
    rcases touched with same | below
    · exact .inl same
    · exact .inr ⟨child, free, List.mem_cons_self, below⟩
  · exact cores
  · intro other member
    exact List.mem_cons_of_mem _ member
  · rw [children]
    exact List.filter_sublist.trans List.erase_sublist
  · exact .nil

end Aligned

end WidgetStyle.StyledTree
