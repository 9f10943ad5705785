import WidgetStyle.Proofs.StyledTree.Completeness
import WidgetStyle.Proofs.Tree.DocumentOrder

/-!
# Computing styles one after the other

A pass over the tree is told by the ids whose styles it computes, in order.  Whatever nodes it
turns back at, computing these one after the other gives the same count and the same styled tree.
A walk that turns back nowhere and computes the dirty nodes is told in the same way.  When clean
nodes have a cached style, and the pass turns back only where nothing below is dirty, both
compute the same nodes.
-/

namespace WidgetStyle

namespace Tree

variable {tree : Tree} {ids more : List NodeId} {id : NodeId}

/-- The dirty ones of some nodes, in their order. -/
def dirtyAmong (tree : Tree) (ids : List NodeId) : List NodeId :=
  ids.filter fun id => decide (id ∈ tree.dirtyIds)

theorem preorder_of_root {root : NodeId} (tree : Tree) (rooted : tree.root = some root) :
    tree.preorder = tree.subtree root := by
  rw [preorder, rooted]

theorem mem_dirtyAmong_iff : id ∈ tree.dirtyAmong ids ↔ id ∈ ids ∧ id ∈ tree.dirtyIds := by
  simp [dirtyAmong]

theorem dirtyAmong_cons_of_mem (dirty : id ∈ tree.dirtyIds) :
    tree.dirtyAmong (id :: ids) = id :: tree.dirtyAmong ids :=
  List.filter_cons_of_pos (decide_eq_true dirty)

theorem dirtyAmong_cons_of_not_mem (spared : id ∉ tree.dirtyIds) :
    tree.dirtyAmong (id :: ids) = tree.dirtyAmong ids :=
  List.filter_cons_of_neg (by simpa using spared)

theorem dirtyAmong_append_of_spared (spared : ∀ id ∈ ids, id ∉ tree.dirtyIds) :
    tree.dirtyAmong (ids ++ more) = tree.dirtyAmong more := by
  have none : ids.filter (fun id => decide (id ∈ tree.dirtyIds)) = [] := by
    simpa using spared
  rw [dirtyAmong, List.filter_append, none, List.nil_append, dirtyAmong]

end Tree

namespace StyledTree

variable {birth : NodeId → Int} {styled before middle after : StyledTree}
  {paths stack ids visited : List NodeId} {bound : Nat} {id : NodeId}

/-! ## Computing some styles in order -/

/-- The styles of some nodes computed in order, each from the cached style of its parent, and how
many these were. -/
def computeEach (styled : StyledTree) : List NodeId → Except StyleError Nat × StyledTree
  | [] => (.ok 0, styled)
  | id :: rest =>
      match styled.tree.get? id with
      | none => styled.computeEach rest
      | some node =>
          match styled.computeBelow node with
          | (.error error, stopped) => (.error error, stopped)
          | (.ok _, computed) =>
              ((computed.computeEach rest).1.map (· + 1), (computed.computeEach rest).2)

/-- The plain walk over some nodes in order: each node that is dirty when its turn comes is
computed. -/
def computeDirty (styled : StyledTree) : List NodeId → Except StyleError Nat × StyledTree
  | [] => (.ok 0, styled)
  | id :: rest =>
      match styled.tree.get? id with
      | none => styled.computeDirty rest
      | some node =>
          if node.flags.dirty then
            match styled.computeBelow node with
            | (.error error, stopped) => (.error error, stopped)
            | (.ok _, computed) =>
                ((computed.computeDirty rest).1.map (· + 1), (computed.computeDirty rest).2)
          else styled.computeDirty rest

/-- The plain walk over the whole tree, for which the selectors are read first. -/
def refreshPlainly (styled : StyledTree) : Except StyleError Nat × StyledTree :=
  match styled.tree.root with
  | none => (.ok 0, styled)
  | some root =>
      match styled.selectorSet with
      | .error excess => (.error (.tooManyDigits excess), styled)
      | .ok _ => styled.prepare.computeDirty (styled.tree.subtree root)

/-- Some nodes may have been styled, and nothing else happened. -/
structure StyledAt (before after : StyledTree) (ids : List NodeId) : Prop where
  content : SameContent before after
  selectors : after.selectors = before.selectors
  clean : ∀ {id}, before.tree.IsClean id → after.tree.IsClean id
  nodes : ∀ {id}, id ∉ ids → after.tree.get? id = before.tree.get? id
  styles : ∀ {id}, id ∉ ids → after.styles.get? id = before.styles.get? id

namespace StyledAt

theorem refl (styled : StyledTree) (ids : List NodeId) : StyledAt styled styled ids :=
  ⟨.refl styled, rfl, fun cleaned => cleaned, fun _ => rfl, fun _ => rfl⟩

theorem cons (first : StyledAt before middle [id]) (rest : StyledAt middle after ids) :
    StyledAt before after (id :: ids) where
  content := first.content.trans rest.content
  selectors := rest.selectors.trans first.selectors
  clean cleaned := rest.clean (first.clean cleaned)
  nodes := by
    intro other absent
    rw [List.mem_cons, not_or, ← List.mem_singleton] at absent
    exact (rest.nodes absent.2).trans (first.nodes absent.1)
  styles := by
    intro other absent
    rw [List.mem_cons, not_or, ← List.mem_singleton] at absent
    exact (rest.styles absent.2).trans (first.styles absent.1)

theorem widen (done : StyledAt before after ids) (id : NodeId) :
    StyledAt before after (id :: ids) where
  content := done.content
  selectors := done.selectors
  clean := done.clean
  nodes absent := done.nodes fun member => absent (List.mem_cons_of_mem _ member)
  styles absent := done.styles fun member => absent (List.mem_cons_of_mem _ member)

theorem isClean_iff (done : StyledAt before after ids) (outside : id ∉ ids) :
    after.tree.IsClean id ↔ before.tree.IsClean id := by
  rw [Tree.IsClean, Tree.IsClean, done.nodes outside]

theorem mem_dirtyIds_iff (done : StyledAt before after ids) (linked : before.tree.LinkedBy birth)
    (outside : id ∉ ids) : id ∈ after.tree.dirtyIds ↔ id ∈ before.tree.dirtyIds := by
  have links := done.content.tree.sameLinks
  rw [StyledTree.mem_dirtyIds_iff linked, StyledTree.mem_dirtyIds_iff (links.linkedBy linked),
    links.contains_eq, done.isClean_iff outside]

end StyledAt

theorem styledAt_computeBelow {node : Node} (found : styled.tree.get? id = some node) :
    StyledAt styled (styled.computeBelow node).2 [id] := by
  have named := Tree.id_of_get? found
  rw [computeBelow]
  split
  · exact .refl styled [id]
  · rename_i style _
    constructor
    case content => exact sameContent_keepStyle styled node.id style
    case selectors => rfl
    case clean => exact isClean_keepStyle node.id style
    case nodes =>
      intro other absent
      rw [List.mem_singleton, ← named] at absent
      rw [get?_keepStyle, if_neg absent]
    case styles =>
      intro other absent
      rw [List.mem_singleton, ← named] at absent
      simp [keepStyle, absent]

theorem styledAt_computeEach (styled : StyledTree) (ids : List NodeId) :
    StyledAt styled (styled.computeEach ids).2 ids := by
  induction ids generalizing styled with
  | nil => exact .refl styled []
  | cons id rest ih =>
      rw [computeEach]
      split
      · exact (ih styled).widen id
      · rename_i node found
        have first := styledAt_computeBelow found
        split
        · rename_i stopped failed
          rw [failed] at first
          exact first.cons (.refl stopped rest)
        · rename_i computed done
          rw [done] at first
          exact first.cons (ih computed)

theorem StyledAt.dirtyAmong_eq (done : StyledAt before after [id])
    (linked : before.tree.LinkedBy birth) (fresh : id ∉ visited) :
    after.tree.dirtyAmong visited = before.tree.dirtyAmong visited := by
  apply List.filter_congr
  intro other member
  have outside : other ∉ [id] := fun single => fresh (List.mem_singleton.mp single ▸ member)
  simp only [done.mem_dirtyIds_iff linked outside]

/-! ## The plain walk -/

theorem mem_dirtyIds_iff_dirty {tree : Tree} (linked : tree.LinkedBy birth) {node : Node}
    (found : tree.get? id = some node) : id ∈ tree.dirtyIds ↔ node.flags.dirty = true := by
  simp [mem_dirtyIds_iff linked, Tree.IsClean, Tree.contains, found]

/-- The plain walk computes the nodes that are dirty to begin with. -/
theorem computeDirty_eq (linked : styled.tree.LinkedBy birth) (distinct : visited.Nodup) :
    styled.computeDirty visited = styled.computeEach (styled.tree.dirtyAmong visited) := by
  induction visited generalizing styled with
  | nil => rfl
  | cons id rest ih =>
      rcases List.nodup_cons.mp distinct with ⟨fresh, restDistinct⟩
      rw [computeDirty]
      cases found : styled.tree.get? id with
      | none =>
          have spared : id ∉ styled.tree.dirtyIds := by
            simp [mem_dirtyIds_iff linked, Tree.contains, found]
          rw [Tree.dirtyAmong_cons_of_not_mem spared]
          exact ih linked restDistinct
      | some node =>
          have marked := mem_dirtyIds_iff_dirty linked found
          by_cases dirty : node.flags.dirty = true
          · rw [Tree.dirtyAmong_cons_of_mem (marked.mpr dirty), computeEach]
            simp only [found, dirty, if_true]
            have styledHere := styledAt_computeBelow found
            split
            · rfl
            · rename_i computed done
              rw [done] at styledHere
              rw [ih (styledHere.content.tree.sameLinks.linkedBy linked) restDistinct,
                styledHere.dirtyAmong_eq linked fresh]
          · rw [Tree.dirtyAmong_cons_of_not_mem fun member => dirty (marked.mp member)]
            simp only [dirty]
            exact ih linked restDistinct

/-! ## What a pass computes -/

/-- The ids of the nodes that a pass computes, in order. -/
def computedOver (styled : StyledTree) (paths : List NodeId) : Nat → List NodeId → List NodeId
  | _, [] => []
  | 0, _ :: _ => []
  | bound + 1, id :: stack =>
      match styled.tree.get? id with
      | none => styled.computedOver paths bound stack
      | some node =>
          if (styled.trusted? node).isSome then
            styled.computedOver paths bound
              (if paths.contains id then node.children ++ stack else stack)
          else id :: (styled.computeBelow node).2.computedOver paths bound (node.children ++ stack)

theorem computedOver_trusted {style : Style} (trusted : styled.trustedAt? id = some style) :
    styled.computedOver paths (bound + 1) (id :: stack) =
      styled.computedOver paths bound
        (if paths.contains id then styled.tree.childrenOf id ++ stack else stack) := by
  rcases Option.bind_eq_some_iff.mp trusted with ⟨node, found, kept⟩
  rw [computedOver, found, Tree.childrenOf_of_get? found]
  simp only [kept, Option.isSome_some, if_true]

theorem computedOver_untrusted {node : Node} (found : styled.tree.get? id = some node)
    (untrusted : styled.trustedAt? id = none) :
    styled.computedOver paths (bound + 1) (id :: stack) =
      id :: (styled.computeBelow node).2.computedOver paths bound
        (styled.tree.childrenOf id ++ stack) := by
  rw [trustedAt?, found, Option.bind_some] at untrusted
  rw [computedOver, found, Tree.childrenOf_of_get? found]
  simp only [untrusted, Option.isSome_none, Bool.false_eq_true, if_false]

/-- A pass comes to the same as computing, one after the other, the nodes that it computes. -/
theorem passOver_eq_computeEach (styled : StyledTree) (paths : List NodeId) (bound : Nat)
    (stack : List NodeId) :
    styled.passOver paths bound stack =
      styled.computeEach (styled.computedOver paths bound stack) := by
  induction bound generalizing styled stack with
  | zero => cases stack <;> rfl
  | succ bound ih =>
      cases stack with
      | nil => rfl
      | cons id stack =>
          cases found : styled.tree.get? id with
          | none =>
              rw [passOver_unknown found, computedOver, found]
              exact ih styled stack
          | some node =>
              cases trusted : styled.trustedAt? id with
              | some style =>
                  rw [passOver_trusted trusted, computedOver_trusted trusted]
                  exact ih styled _
              | none =>
                  rw [computedOver_untrusted found trusted, computeEach]
                  cases computing : styled.computeBelow node with
                  | mk result computed =>
                      simp only [found, computing]
                      cases result with
                      | error error => exact passOver_stopped found trusted computing
                      | ok style => rw [passOver_computed found trusted computing, ih]

/-- Beyond the number of nodes that a walk meets the bound of a pass does not matter. -/
theorem passOver_eq_of_enough (linked : styled.tree.LinkedBy birth)
    (walk : styled.tree.Walk stack visited) {more : Nat} (enough : visited.length ≤ bound)
    (larger : visited.length ≤ more) :
    styled.passOver paths bound stack = styled.passOver paths more stack := by
  induction bound generalizing styled stack visited more with
  | zero =>
      cases walk with
      | done => rw [passOver, passOver]
      | visit rest => cases enough
  | succ bound ih =>
      cases walk with
      | done => rw [passOver, passOver]
      | @visit id stack visited walk =>
          cases more with
          | zero => cases larger
          | succ more =>
              have within := Nat.le_of_succ_le_succ enough
              have withinMore := Nat.le_of_succ_le_succ larger
              cases found : styled.tree.get? id with
              | none =>
                  rw [Tree.childrenOf_eq_nil found, List.nil_append] at walk
                  rw [passOver_unknown found, passOver_unknown found]
                  exact ih linked walk within withinMore
              | some node =>
                  cases trusted : styled.trustedAt? id with
                  | some style =>
                      rw [passOver_trusted trusted, passOver_trusted trusted]
                      split
                      · exact ih linked walk within withinMore
                      · rcases walk.split with ⟨inner, outer, rfl, -, outerWalk⟩
                        rw [List.length_append] at within withinMore
                        exact ih linked outerWalk (Nat.le_of_add_left_le within)
                          (Nat.le_of_add_left_le withinMore)
                  | none =>
                      cases computing : styled.computeBelow node with
                      | mk result computed =>
                          cases result with
                          | error error =>
                              rw [passOver_stopped found trusted computing,
                                passOver_stopped found trusted computing]
                          | ok style =>
                              have links := (sameContent_computeBelow styled node).tree.sameLinks
                              rw [computing] at links
                              have again := walk.congr fun other _ => (links.children other).symm
                              rw [passOver_computed found trusted computing,
                                passOver_computed found trusted computing,
                                ih (links.linkedBy linked) again within withinMore]

/-- All that a pass needs in order to compute what is dirty and nothing else: clean nodes have a
cached style, and where it may turn back nothing below is dirty. -/
structure Prunable (styled : StyledTree) (paths visited : List NodeId) : Prop where
  alive : ∀ id ∈ visited, styled.tree.contains id = true
  cached : ∀ id ∈ visited, styled.tree.IsClean id → (styled.styles.get? id).isSome = true
  quiet : ∀ id ∈ visited, id ∉ paths → ∀ other, styled.tree.StrictlyBelow id other →
    styled.tree.IsClean other

namespace Prunable

theorem anti (prunable : styled.Prunable paths visited) (fewer : ids ⊆ visited) :
    styled.Prunable paths ids where
  alive id member := prunable.alive id (fewer member)
  cached id member := prunable.cached id (fewer member)
  quiet id member := prunable.quiet id (fewer member)

theorem styledAt (prunable : before.Prunable paths visited) (done : StyledAt before after [id])
    (fresh : id ∉ visited) : after.Prunable paths visited where
  alive other member := by
    rw [← done.content.tree.sameLinks.contains_eq]
    exact prunable.alive other member
  cached other member clean := by
    have outside : other ∉ [id] := fun single => fresh (List.mem_singleton.mp single ▸ member)
    rw [done.styles outside]
    exact prunable.cached other member ((done.isClean_iff outside).mp clean)
  quiet other member unlisted lower strict := by
    have links := done.content.tree.sameLinks
    rcases strict with ⟨parent, link, below⟩
    rw [← links.parents] at link
    exact done.clean (prunable.quiet other member unlisted lower
      ⟨parent, link, links.below_iff.mpr below⟩)

/-- Nothing is dirty in the part of the walk that is left out below a node off the paths. -/
theorem spared_below (prunable : styled.Prunable paths visited)
    (linked : styled.tree.LinkedBy birth) (member : id ∈ visited) (unlisted : id ∉ paths)
    {inner : List NodeId} (walk : styled.tree.Walk (styled.tree.childrenOf id) inner) :
    ∀ other ∈ inner, other ∉ styled.tree.dirtyIds := by
  intro other met dirty
  rcases (linked.mem_walk_iff walk).mp met with ⟨top, child, below⟩
  have strict := below.strictly_of_child (linked.childOf.mp child)
  exact ((mem_dirtyIds_iff linked).mp dirty).2 (prunable.quiet id member unlisted other strict)

theorem dirty_of_untrusted (prunable : styled.Prunable paths visited)
    (linked : styled.tree.LinkedBy birth) (member : id ∈ visited)
    (untrusted : styled.trustedAt? id = none) : id ∈ styled.tree.dirtyIds := by
  refine (mem_dirtyIds_iff linked).mpr ⟨prunable.alive id member, ?_⟩
  intro clean
  have cached := prunable.cached id member clean
  rw [← isSome_trustedAt?_iff clean, untrusted] at cached
  cases cached

end Prunable

theorem computedOver_eq (linked : styled.tree.LinkedBy birth)
    (walk : styled.tree.Walk stack visited)
    (distinct : visited.Nodup) (enough : visited.length ≤ bound)
    (prunable : styled.Prunable paths visited) :
    styled.computedOver paths bound stack = styled.tree.dirtyAmong visited := by
  induction bound generalizing styled stack visited with
  | zero =>
      cases walk with
      | done => rfl
      | visit rest => cases enough
  | succ bound ih =>
      cases walk with
      | done => rfl
      | @visit id stack visited walk =>
          rcases List.nodup_cons.mp distinct with ⟨fresh, restDistinct⟩
          have within := Nat.le_of_succ_le_succ enough
          have later := prunable.anti (List.subset_cons_self id visited)
          rcases Tree.contains_iff.mp (prunable.alive id List.mem_cons_self) with ⟨node, found⟩
          cases trusted : styled.trustedAt? id with
          | some style =>
              have clean := (trustedAt?_eq_some_iff.mp trusted).1
              have spared : id ∉ styled.tree.dirtyIds := by
                rw [mem_dirtyIds_iff linked]
                exact fun dirty => dirty.2 clean
              rw [computedOver_trusted trusted, Tree.dirtyAmong_cons_of_not_mem spared]
              split
              · exact ih linked walk restDistinct within later
              · rename_i unlisted
                rcases walk.split with ⟨inner, outer, rfl, innerWalk, outerWalk⟩
                rw [List.length_append] at within
                have quiet := prunable.spared_below linked List.mem_cons_self
                  (by simpa using unlisted) innerWalk
                rw [Tree.dirtyAmong_append_of_spared quiet]
                exact ih linked outerWalk (List.nodup_append.mp restDistinct).2.1
                  (Nat.le_of_add_left_le within) (later.anti (List.subset_append_right inner outer))
          | none =>
              have dirty := prunable.dirty_of_untrusted linked List.mem_cons_self trusted
              have done := styledAt_computeBelow found
              have links := done.content.tree.sameLinks
              have again := walk.congr fun other _ => (links.children other).symm
              rw [computedOver_untrusted found trusted, Tree.dirtyAmong_cons_of_mem dirty,
                ih (links.linkedBy linked) again restDistinct within (later.styledAt done fresh),
                done.dirtyAmong_eq linked fresh]

end StyledTree

end WidgetStyle
