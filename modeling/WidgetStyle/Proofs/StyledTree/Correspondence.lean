import WidgetStyle.Proofs.Cascade.FromRoot
import WidgetStyle.Proofs.StyledTree.Reconciliation

/-!
# Two trees of one view

Two trees that builds have made of the same view correspond node by node, however
their ids differ and in whatever order their nodes were made.  Nodes in the same
place look alike, so their styles from scratch are the same, and the walks from the
two roots meet corresponding nodes in the same order.
-/

namespace WidgetStyle

namespace Tree

variable {tree left right : Tree} {first second : NodeId}

/-! ## Nodes in the same place -/

/-- Nodes in the same place: the roots, and children with the same index of nodes in
the same place. -/
inductive Paired (left right : Tree) : NodeId → NodeId → Prop where
  | root {first second : NodeId} :
      left.root = some first → right.root = some second → Paired left right first second
  | child {upper lower first second : NodeId} {place : Nat} :
      Paired left right upper lower → (left.childrenOf upper)[place]? = some first →
        (right.childrenOf lower)[place]? = some second → Paired left right first second

theorem MirrorsAll.at {ids : List NodeId} {views : List View} (mirrors : tree.MirrorsAll ids views)
    {place : Nat} {id : NodeId} (listed : ids[place]? = some id) :
    ∃ view, views[place]? = some view ∧ tree.Mirrors id view := by
  induction ids generalizing views place with
  | nil => cases listed
  | cons first rest ih =>
      cases mirrors with
      | cons met others =>
          cases place with
          | zero =>
              cases listed
              exact ⟨_, rfl, met⟩
          | succ place => exact ih others listed

theorem Mirrors.length_childrenOf {identity : Identity} {children : List View}
    (mirrors : tree.Mirrors first (.widget identity children)) :
    (tree.childrenOf first).length = children.length := by
  cases mirrors with
  | widget _ _ below => exact (mirrorsAll_iff_forall₂.mp below).length_eq

theorem length_childrenOf_eq {view : View} (mirrors : left.Mirrors first view)
    (others : right.Mirrors second view) :
    (left.childrenOf first).length = (right.childrenOf second).length := by
  rcases view with ⟨identity, children⟩
  exact mirrors.length_childrenOf.trans others.length_childrenOf.symm

/-! ## Nodes that look alike -/

/-- A plain node without its flags and its inline style is all there is to it. -/
theorem like_of_plain {one other : Node} (onePlain : one.core.Plain) (otherPlain : other.core.Plain)
    {identity : Identity} (oneAgrees : one.identity.Agrees identity)
    (otherAgrees : other.identity.Agrees identity) (placement : one.placement = other.placement) :
    one.Like other where
  widgetType := oneAgrees.widgetType.trans otherAgrees.widgetType.symm
  elementId := oneAgrees.elementId.trans otherAgrees.elementId.symm
  classes := by
    refine (List.perm_ext_iff_of_nodup onePlain.classes otherPlain.classes).mpr ?_
    intro name
    exact (oneAgrees.classes name).trans (otherAgrees.classes name).symm
  flags := by
    intro flag notDirty
    have unset : ∀ node : Node, node.core.Plain → node.flags.read flag = false := by
      intro node plain
      have read : node.flags.read flag = node.core.flags.read flag := by
        cases flag with
        | dirty => exact absurd rfl notDirty
        | _ => rfl
      rw [read, plain.flags]
      cases flag <;> rfl
    rw [unset one onePlain, unset other otherPlain]
  placement := placement

end Tree

namespace StyledTree

variable {left right : StyledTree} {view : View} {first second : NodeId}

/-- Nodes in the same place of two trees of one view mirror one part of it. -/
theorem exists_part (depicts : Depicts left view) (others : Depicts right view)
    (paired : left.tree.Paired right.tree first second) :
    ∃ part, left.tree.Mirrors first part ∧ right.tree.Mirrors second part := by
  induction paired with
  | root rooted otherRooted =>
      obtain ⟨root, found, mirrors⟩ := depicts.mirrors
      obtain ⟨other, otherFound, otherMirrors⟩ := others.mirrors
      rw [found] at rooted
      rw [otherFound] at otherRooted
      cases rooted
      cases otherRooted
      exact ⟨view, mirrors, otherMirrors⟩
  | child _ listed otherListed ih =>
      rcases ih with ⟨part, mirrors, otherMirrors⟩
      cases mirrors with
      | widget _ _ below =>
          cases otherMirrors with
          | widget _ _ otherBelow =>
              obtain ⟨inner, found, met⟩ := below.at listed
              obtain ⟨other, otherFound, otherMet⟩ := otherBelow.at otherListed
              rw [found] at otherFound
              cases otherFound
              exact ⟨inner, met, otherMet⟩

theorem placement_root (depicts : Depicts left view) {root : NodeId} {node : Node}
    (rooted : left.tree.root = some root) (found : left.tree.get? root = some node) :
    node.placement = {} := by
  have parentless := (depicts.wellFormed.rootFound rooted).2
  rw [Tree.parentId?_of_get? found] at parentless
  have plain := (depicts.plain root _ (Tree.core?_of_get? found)).placement
  rwa [Node.core, Node.unplaced, Node.face, Node.outline, parentless, Option.isNone_none,
    if_pos rfl] at plain

theorem placement_eq (depicts : Depicts left view) (others : Depicts right view)
    (paired : left.tree.Paired right.tree first second) {one other : Node}
    (found : left.tree.get? first = some one) (otherFound : right.tree.get? second = some other) :
    one.placement = other.placement := by
  cases paired with
  | root rooted otherRooted =>
      rw [placement_root depicts rooted found, placement_root others otherRooted otherFound]
  | child above listed otherListed =>
      obtain ⟨part, mirrors, otherMirrors⟩ := exists_part depicts others above
      rw [depicts.wellFormed.placed listed found, others.wellFormed.placed otherListed otherFound,
        Tree.length_childrenOf_eq mirrors otherMirrors]

theorem like_of_paired (depicts : Depicts left view) (others : Depicts right view)
    (paired : left.tree.Paired right.tree first second) :
    ∃ one other, left.tree.get? first = some one ∧ right.tree.get? second = some other ∧
      one.Like other := by
  obtain ⟨part, mirrors, otherMirrors⟩ := exists_part depicts others paired
  cases mirrors with
  | widget core agrees _ =>
      cases otherMirrors with
      | widget otherCore otherAgrees _ =>
          obtain ⟨one, found, same⟩ := Option.map_eq_some_iff.mp core
          obtain ⟨other, otherFound, otherSame⟩ := Option.map_eq_some_iff.mp otherCore
          rw [← same] at agrees
          rw [← otherSame] at otherAgrees
          have plain := depicts.plain first _ (Tree.core?_of_get? found)
          have otherPlain := others.plain second _ (Tree.core?_of_get? otherFound)
          exact ⟨one, other, found, otherFound,
            Tree.like_of_plain plain otherPlain agrees otherAgrees
              (placement_eq depicts others paired found otherFound)⟩

/-! ## Styles from scratch -/

theorem resemble_of_depicts (depicts : Depicts left view) (others : Depicts right view) :
    Tree.Resemble left.tree right.tree (left.tree.Paired right.tree) where
  like := like_of_paired depicts others
  parent := by
    intro first second paired
    cases paired with
    | root rooted otherRooted =>
        rw [(depicts.wellFormed.rootFound rooted).2, (others.wellFormed.rootFound otherRooted).2]
        exact .none
    | child above listed otherListed =>
        rw [depicts.wellFormed.childOf.mp (List.mem_of_getElem? listed),
          others.wellFormed.childOf.mp (List.mem_of_getElem? otherListed)]
        exact .some above
  previous := by
    intro first second paired
    cases paired with
    | root rooted otherRooted =>
        rw [Tree.FormedBy.previousId?_root (depicts.wellFormed.rootFound rooted).2,
          Tree.FormedBy.previousId?_root (others.wellFormed.rootFound otherRooted).2]
        exact .none
    | @child upper lower _ _ place above listed otherListed =>
        rw [depicts.wellFormed.previousId?_of_listed listed,
          others.wellFormed.previousId?_of_listed otherListed]
        cases place with
        | zero => exact .none
        | succ place =>
            obtain ⟨part, mirrors, otherMirrors⟩ := exists_part depicts others above
            have inside := (List.getElem?_eq_some_iff.mp listed).1
            have otherInside := (List.getElem?_eq_some_iff.mp otherListed).1
            have before : place < (left.tree.childrenOf upper).length := by omega
            have otherBefore : place < (right.tree.childrenOf lower).length := by omega
            rw [if_neg (Nat.succ_ne_zero place), if_neg (Nat.succ_ne_zero place),
              Nat.add_sub_cancel, List.getElem?_eq_getElem before,
              List.getElem?_eq_getElem otherBefore]
            exact .some (.child above (List.getElem?_eq_getElem before)
              (List.getElem?_eq_getElem otherBefore))

theorem inherits_of_depicts (depicts : Depicts left view) (others : Depicts right view) :
    Tree.Inherits left.tree right.tree (left.tree.Paired right.tree)
      (left.tree.Paired right.tree) where
  resemble := resemble_of_depicts depicts others
  seen paired := paired
  inlineStyle := by
    intro first second one other _ found otherFound
    have inline := (depicts.plain first _ (Tree.core?_of_get? found)).inlineStyle
    have otherInline := (others.plain second _ (Tree.core?_of_get? otherFound)).inlineStyle
    exact inline.trans otherInline.symm
  parent := (resemble_of_depicts depicts others).parent

/-- Nodes in the same place of two trees of one view have the same style from
scratch. -/
theorem freshStyle_eq_of_paired (depicts : Depicts left view) (others : Depicts right view)
    (sheets : left.sheet = right.sheet) (configs : left.config = right.config)
    (paired : left.tree.Paired right.tree first second) :
    left.freshStyle first = right.freshStyle second := by
  rw [freshStyle, freshStyle, sheets, configs]
  have inherits := inherits_of_depicts depicts others
  exact inherits.freshStyle_eq depicts.wellFormed.toFormedBy others.wellFormed.toFormedBy _
    paired

/-! ## Walks -/

theorem paired_childrenOf (depicts : Depicts left view) (others : Depicts right view)
    (paired : left.tree.Paired right.tree first second) :
    List.Forall₂ (left.tree.Paired right.tree) (left.tree.childrenOf first)
      (right.tree.childrenOf second) := by
  obtain ⟨part, mirrors, otherMirrors⟩ := exists_part depicts others paired
  refine List.forall₂_iff_get.mpr ⟨Tree.length_childrenOf_eq mirrors otherMirrors, ?_⟩
  intro place inside otherInside
  exact .child paired (List.getElem?_eq_getElem inside) (List.getElem?_eq_getElem otherInside)

theorem paired_walk (depicts : Depicts left view) (others : Depicts right view)
    {stack waiting visited met : List NodeId}
    (paired : List.Forall₂ (left.tree.Paired right.tree) stack waiting)
    (walk : left.tree.Walk stack visited) (other : right.tree.Walk waiting met) :
    List.Forall₂ (left.tree.Paired right.tree) visited met := by
  induction walk generalizing waiting met with
  | done =>
      cases paired
      cases other
      exact .nil
  | visit _ ih =>
      cases paired with
      | cons first rest =>
          cases other with
          | visit further =>
              exact .cons first
                (ih (List.rel_append (paired_childrenOf depicts others first) rest) further)

/-- The walks from the two roots meet nodes in the same places. -/
theorem paired_preorder (depicts : Depicts left view) (others : Depicts right view) :
    List.Forall₂ (left.tree.Paired right.tree) left.tree.preorder right.tree.preorder := by
  obtain ⟨root, rooted, -⟩ := depicts.mirrors
  obtain ⟨other, otherRooted, -⟩ := others.mirrors
  rw [Tree.preorder, Tree.preorder, rooted, otherRooted]
  exact paired_walk depicts others (.cons (.root rooted otherRooted) .nil)
    (depicts.wellFormed.toLinked.walk_subtree root) (others.wellFormed.toLinked.walk_subtree other)

end StyledTree

end WidgetStyle
