import WidgetStyle.Proofs.StyledTree.Coherence

/-!
# Queries

A query computes styles and caches them, and changes nothing else: neither the
sheet nor the outline of the tree.  Where the cache is coherent a style that is
asked for with inheritance is the style from scratch, and the cache stays
coherent, since every style is computed from the trusted style of the parent.
-/

namespace WidgetStyle.StyledTree

/-- Two styled trees differ at most in their caches. -/
structure SameContent (before after : StyledTree) : Prop where
  config : after.config = before.config
  sheet : after.sheet = before.sheet
  selectors : after.selectorSet = before.selectorSet
  tree : Tree.SameOutline before.tree after.tree

namespace SameContent

variable {before middle after : StyledTree}

theorem refl (styled : StyledTree) : SameContent styled styled :=
  ⟨rfl, rfl, rfl, .refl _⟩

theorem trans (first : SameContent before middle) (second : SameContent middle after) :
    SameContent before after where
  config := second.config.trans first.config
  sheet := second.sheet.trans first.sheet
  selectors := second.selectors.trans first.selectors
  tree := first.tree.trans second.tree

theorem wellFormed (same : SameContent before after) (formed : before.WellFormed) :
    after.WellFormed where
  tree := same.tree.wellFormed formed.tree
  selectors := by
    rw [same.selectors, same.sheet]
    exact formed.selectors

theorem freshStyle_eq (same : SameContent before after) (formed : before.WellFormed)
    (id : NodeId) : after.freshStyle id = before.freshStyle id := by
  rw [freshStyle, freshStyle, same.sheet, same.config]
  exact same.tree.freshStyle_eq formed.tree.toFormedBy _ id

end SameContent

/-! ## Caching a style -/

theorem sameContent_prepare (styled : StyledTree) : SameContent styled styled.prepare :=
  ⟨rfl, rfl, selectorSet_prepare styled, .refl _⟩

/-- The node that is styled becomes clean in the same step. -/
theorem tree_keepStyle (styled : StyledTree) (id : NodeId) (style : Style) :
    (styled.keepStyle id style).tree = styled.tree.modify id fun node =>
      { node with computed := some style, flags := { node.flags with dirty := false } } := by
  rw [keepStyle, Tree.modifyState_eq, Tree.modify_modify]
  exact fun _ => rfl

theorem sameContent_keepStyle (styled : StyledTree) (id : NodeId) (style : Style) :
    SameContent styled (styled.keepStyle id style) where
  config := rfl
  sheet := rfl
  selectors := rfl
  tree := by
    rw [tree_keepStyle]
    exact Tree.sameOutline_modify styled.tree id _ fun _ => rfl

theorem get?_keepStyle (styled : StyledTree) (id other : NodeId) (style : Style) :
    (styled.keepStyle id style).tree.get? other =
      if other = id then
        (styled.tree.get? id).map fun node =>
          { node with computed := some style, flags := { node.flags with dirty := false } }
      else styled.tree.get? other := by
  rw [tree_keepStyle]
  exact Tree.get?_modify styled.tree id other _ fun _ => rfl

/-- A cached style is trusted from then on, and the others are as before. -/
theorem trustedAt?_keepStyle {styled : StyledTree} {id : NodeId}
    (known : styled.tree.contains id = true) (style : Style) (other : NodeId) :
    (styled.keepStyle id style).trustedAt? other =
      if other = id then some style else styled.trustedAt? other := by
  obtain ⟨node, found⟩ := Tree.contains_iff.mp known
  have cached := Table.get?_put styled.styles id other style
  rw [trustedAt?, get?_keepStyle]
  split
  · rename_i same
    have sameId : node.id = id := Tree.id_of_get? found
    rw [found, Option.map_some, Option.bind_some, trusted?]
    simp only [Bool.false_eq_true, if_false, keepStyle, sameId]
    simp
  · rename_i different
    rw [trustedAt?]
    cases lookup : styled.tree.get? other with
    | none => rfl
    | some otherNode =>
        rw [Option.bind_some, Option.bind_some, trusted?, trusted?, Tree.id_of_get? lookup,
          keepStyle, cached, if_neg different]

/-! ## What queries leave alone -/

theorem sameContent_computeBelow (styled : StyledTree) (node : Node) :
    SameContent styled (styled.computeBelow node).2 := by
  rw [computeBelow]
  split
  · exact .refl styled
  · exact sameContent_keepStyle styled _ _

/-- The style of the parent of a node, for which there is nothing to do when the
node has none. -/
def inheritedAbove (styled : StyledTree) (bound : Nat) (node : Node) :
    Except StyleError (Option Style) × StyledTree :=
  match node.parent with
  | some parent => styled.inheritedStyleWithin bound parent
  | none => (.ok none, styled)

theorem inheritedStyleWithin_unknown {styled : StyledTree} {id : NodeId}
    (unknown : styled.tree.get? id = none) (bound : Nat) :
    styled.inheritedStyleWithin bound id = (.ok none, styled) := by
  cases bound with
  | zero => rfl
  | succ bound => rw [inheritedStyleWithin, unknown]

theorem inheritedStyleWithin_trusted {styled : StyledTree} {id : NodeId} {style : Style}
    (trusted : styled.trustedAt? id = some style) (bound : Nat) :
    styled.inheritedStyleWithin (bound + 1) id = (.ok (some style), styled) := by
  obtain ⟨node, found, kept⟩ := Option.bind_eq_some_iff.mp trusted
  rw [inheritedStyleWithin, found]
  simp only [kept]

/-- A style that cannot be handed out is computed after the style of the parent. -/
theorem inheritedStyleWithin_untrusted {styled : StyledTree} {id : NodeId} {node : Node}
    (found : styled.tree.get? id = some node) (untrusted : styled.trustedAt? id = none)
    (bound : Nat) :
    styled.inheritedStyleWithin (bound + 1) id =
      match styled.inheritedAbove bound node with
      | (.error error, climbed) => (.error error, climbed)
      | (.ok _, climbed) =>
          ((climbed.prepare.computeBelow node).1.map some,
            (climbed.prepare.computeBelow node).2) := by
  rw [trustedAt?, found, Option.bind_some] at untrusted
  rw [inheritedStyleWithin, found]
  simp only [untrusted]
  rw [inheritedAbove]
  cases node.parent with
  | none => rfl
  | some parent =>
      simp only
      rcases styled.inheritedStyleWithin bound parent with ⟨result, climbed⟩
      cases result with
      | error error => rfl
      | ok style => rfl

theorem sameContent_inheritedStyleWithin (styled : StyledTree) (bound : Nat) (id : NodeId) :
    SameContent styled (styled.inheritedStyleWithin bound id).2 := by
  induction bound generalizing id with
  | zero => exact .refl styled
  | succ bound ih =>
      cases found : styled.tree.get? id with
      | none =>
          rw [inheritedStyleWithin_unknown found]
          exact .refl styled
      | some node =>
          cases trusted : styled.trustedAt? id with
          | some style =>
              rw [inheritedStyleWithin_trusted trusted]
              exact .refl styled
          | none =>
              have climb : SameContent styled (styled.inheritedAbove bound node).2 := by
                rw [inheritedAbove]
                cases node.parent with
                | none => exact .refl styled
                | some parent => exact ih parent
              rw [inheritedStyleWithin_untrusted found trusted]
              split
              · rename_i climbed failed
                rw [failed] at climb
                exact climb
              · rename_i climbed done
                rw [done] at climb
                have prepared := climb.trans (sameContent_prepare climbed)
                exact prepared.trans (sameContent_computeBelow climbed.prepare node)

theorem sameContent_inheritedStyle (styled : StyledTree) (id : NodeId) :
    SameContent styled (styled.inheritedStyle id).2 :=
  sameContent_inheritedStyleWithin styled _ id

theorem sameContent_ownStyle (styled : StyledTree) (id : NodeId) :
    SameContent styled (styled.ownStyle id).2 := by
  rw [ownStyle]
  cases styled.tree.get? id with
  | none => exact .refl styled
  | some node =>
      simp only
      cases styled.trusted? node with
      | some style => exact .refl styled
      | none =>
          simp only
          split
          · exact sameContent_prepare styled
          · exact (sameContent_prepare styled).trans (sameContent_keepStyle _ _ _)

/-! ## Queries with inheritance -/

/-- The parent of the node, if it has one, has a trusted style. -/
def ParentTrusted (styled : StyledTree) (id : NodeId) : Prop :=
  ∀ parent, styled.tree.parentId? id = some parent → (styled.trustedAt? parent).isSome = true

theorem parentTrusted_of_trusted {styled : StyledTree} {id parent : NodeId} {style : Style}
    (link : styled.tree.parentId? id = some parent)
    (trusted : styled.trustedAt? parent = some style) : styled.ParentTrusted id := by
  intro other otherLink
  rw [link] at otherLink
  cases otherLink
  rw [trusted]
  rfl

theorem coherent_keepStyle {styled : StyledTree} (formed : styled.WellFormed)
    (coherent : styled.Coherent) {id : NodeId} (known : styled.tree.contains id = true)
    {style : Style} (fresh : styled.freshStyle id = .ok (some style)) :
    (styled.keepStyle id style).Coherent := by
  intro other found trusted
  rw [(sameContent_keepStyle styled id style).freshStyle_eq formed]
  rw [trustedAt?_keepStyle known] at trusted
  split at trusted
  · rename_i same
    cases trusted
    rw [same]
    exact fresh
  · exact coherent other found trusted

/-- Under a trusted parent the style from scratch is computed. -/
theorem computeBelow_eq {styled : StyledTree} (formed : styled.WellFormed)
    (coherent : styled.Coherent) {id : NodeId} {node : Node}
    (found : styled.tree.get? id = some node) (fed : styled.ParentTrusted id) :
    (styled.computeBelow node).1.map some = styled.freshStyle id := by
  have above : (Cascade.ofSheet styled.sheet styled.config).styleAbove styled.tree node.parent =
      .ok (node.parent.bind styled.styles.get?) := by
    have link := Tree.parentId?_of_get? found
    cases parented : node.parent with
    | none => rfl
    | some parent =>
        rw [parented] at link
        obtain ⟨style, trusted⟩ := Option.isSome_iff_exists.mp (fed parent link)
        have cached := (trustedAt?_eq_some_iff.mp trusted).2
        rw [Option.bind_some, cached]
        exact coherent parent style trusted
  rw [freshStyle, formed.tree.freshStyle_of_get? _ found, above, computeBelow,
    formed.cascade_eq]
  simp only
  have bare : styled.surroundings = styled.tree.surroundings := rfl
  rw [bare]
  split
  · rename_i failed
    rw [failed]
  · rename_i done
    rw [done]

/-- A style that is computed is cached and trusted, and it is that from scratch. -/
theorem computeBelow_ok {styled computed : StyledTree} (formed : styled.WellFormed)
    (coherent : styled.Coherent) {id : NodeId} {node : Node} {style : Style}
    (found : styled.tree.get? id = some node) (fed : styled.ParentTrusted id)
    (done : styled.computeBelow node = (.ok style, computed)) :
    styled.freshStyle id = .ok (some style) ∧ computed = styled.keepStyle id style := by
  have fresh := computeBelow_eq formed coherent found fed
  rw [done] at fresh
  refine ⟨fresh.symm, ?_⟩
  rw [computeBelow, Tree.id_of_get? found] at done
  split at done
  · cases done
  · cases done
    rfl

theorem computeBelow_error {styled stopped : StyledTree} {node : Node} {error : StyleError}
    (failed : styled.computeBelow node = (.error error, stopped)) :
    stopped = styled ∧ styled.cascade.styleBelow (node.parent.bind styled.styles.get?)
      styled.tree.surroundings node = .error error := by
  rw [computeBelow] at failed
  split at failed
  · rename_i reason
    cases failed
    exact ⟨rfl, reason⟩
  · cases failed

/-- A query with inheritance answers with the style from scratch, after which the
node can be trusted; no younger node is touched. -/
structure Answered (before after : StyledTree) (id : NodeId)
    (answer : Except StyleError (Option Style)) : Prop where
  answer_eq : answer = before.freshStyle id
  coherent : after.Coherent
  trusted : ∀ {style}, answer = .ok (some style) → after.trustedAt? id = some style
  younger : ∀ {other}, before.tree.age id < before.tree.age other →
    after.tree.get? other = before.tree.get? other

/-- Where the parent has been asked for, the node can be computed. -/
structure Climbed (before after : StyledTree) (id : NodeId) (parent : Option NodeId)
    (answer : Except StyleError (Option Style)) : Prop where
  answer_eq : answer =
    (Cascade.ofSheet before.sheet before.config).styleAbove before.tree parent
  content : SameContent before after
  coherent : after.Coherent
  fed : ∀ {above}, answer = .ok above → after.ParentTrusted id
  younger : ∀ {other}, before.tree.age id ≤ before.tree.age other →
    after.tree.get? other = before.tree.get? other

theorem Climbed.root {styled : StyledTree} (coherent : styled.Coherent) {id : NodeId}
    (parentless : styled.tree.parentId? id = none) :
    Climbed styled styled id none (.ok none) where
  answer_eq := rfl
  content := .refl styled
  coherent := coherent
  fed := by
    intro above _ parent link
    rw [parentless] at link
    cases link
  younger _ := rfl

theorem Climbed.child {styled after : StyledTree} (formed : styled.WellFormed)
    (content : SameContent styled after) {id parent : NodeId}
    (link : styled.tree.parentId? id = some parent)
    {answer : Except StyleError (Option Style)} (answered : Answered styled after parent answer) :
    Climbed styled after id (some parent) answer where
  answer_eq := answered.answer_eq
  content := content
  coherent := answered.coherent
  fed := by
    intro above done
    have known := formed.tree.toLinked.contains_parent link
    cases above with
    | none =>
        rw [answered.answer_eq] at done
        exact absurd done (formed.tree.freshStyle_ne_none _ known)
    | some style =>
        have again := (content.tree.sameLinks.parents id).symm.trans link
        exact parentTrusted_of_trusted again (answered.trusted done)
  younger := by
    intro other order
    exact answered.younger (Int.lt_of_lt_of_le (formed.tree.parentOlder link) order)

/-- The style of a node is computed once its parent has been asked for. -/
theorem Climbed.answered {styled climbed : StyledTree} (formed : styled.WellFormed)
    {id : NodeId} {node : Node} {above : Option Style} (found : styled.tree.get? id = some node)
    (climb : Climbed styled climbed id node.parent (.ok above)) :
    Answered styled (climbed.prepare.computeBelow node).2 id
      ((climbed.prepare.computeBelow node).1.map some) := by
  have prepared := climb.content.trans (sameContent_prepare climbed)
  have preparedFormed := prepared.wellFormed formed
  have lookup : climbed.prepare.tree.get? id = some node :=
    (climb.younger (Int.le_refl _)).trans found
  have coherent : climbed.prepare.Coherent := climb.coherent
  have fed : climbed.prepare.ParentTrusted id := climb.fed rfl
  have fresh := computeBelow_eq preparedFormed coherent lookup fed
  rw [prepared.freshStyle_eq formed] at fresh
  cases computed : climbed.prepare.computeBelow node with
  | mk result after =>
      rw [computed] at fresh
      cases result with
      | error error =>
          have same := (computeBelow_error computed).1
          constructor
          · exact fresh
          · rw [same]
            exact coherent
          · intro style answer
            cases answer
          · intro other order
            rw [same]
            exact climb.younger (Int.le_of_lt order)
      | ok style =>
          have known := Tree.contains_of_get? lookup
          obtain ⟨styleFresh, same⟩ := computeBelow_ok preparedFormed coherent lookup fed computed
          constructor
          · exact fresh
          · rw [same]
            exact coherent_keepStyle preparedFormed coherent known styleFresh
          · intro other done
            cases done
            rw [same, trustedAt?_keepStyle known, if_pos rfl]
          · intro other order
            have different : other ≠ id := by
              intro equal
              rw [equal] at order
              exact Int.lt_irrefl _ order
            rw [same, get?_keepStyle, if_neg different]
            exact climb.younger (Int.le_of_lt order)

theorem answered_inheritedStyleWithin {styled : StyledTree} (formed : styled.WellFormed)
    (coherent : styled.Coherent) {bound : Nat} {id : NodeId}
    (enough : styled.tree.elders styled.tree.age id < bound) :
    Answered styled (styled.inheritedStyleWithin bound id).2 id
      (styled.inheritedStyleWithin bound id).1 := by
  induction bound generalizing id with
  | zero => cases enough
  | succ bound ih =>
      cases found : styled.tree.get? id with
      | none =>
          rw [inheritedStyleWithin_unknown found]
          constructor
          · exact (Tree.FormedBy.freshStyle_unknown _ found).symm
          · exact coherent
          · intro style answer
            cases answer
          · exact fun _ => rfl
      | some node =>
          cases handed : styled.trustedAt? id with
          | some style =>
              rw [inheritedStyleWithin_trusted handed]
              constructor
              · exact (coherent id style handed).symm
              · exact coherent
              · intro other same
                cases same
                exact handed
              · exact fun _ => rfl
          | none =>
              have link := Tree.parentId?_of_get? found
              have climb : Climbed styled (styled.inheritedAbove bound node).2 id node.parent
                  (styled.inheritedAbove bound node).1 := by
                rw [inheritedAbove]
                cases parented : node.parent with
                | none => exact .root coherent (link.trans parented)
                | some parent =>
                    rw [parented] at link
                    have fewer := Tree.elders_lt (formed.tree.toLinked.contains_parent link)
                      (formed.tree.parentOlder link)
                    exact .child formed (sameContent_inheritedStyleWithin styled bound parent) link
                      (ih (by omega))
              rw [inheritedStyleWithin_untrusted found handed]
              cases above : styled.inheritedAbove bound node with
              | mk result climbed =>
                  rw [above] at climb
                  cases result with
                  | ok style => exact climb.answered formed found
                  | error error =>
                      have fresh := formed.tree.freshStyle_of_get?
                        (Cascade.ofSheet styled.sheet styled.config) found
                      constructor
                      · rw [freshStyle, fresh, ← climb.answer_eq]
                      · exact climb.coherent
                      · intro style answer
                        cases answer
                      · intro other order
                        exact climb.younger (Int.le_of_lt order)

/-- In a coherent styled tree a query with inheritance answers with the style from
scratch, or with the error that stops it. -/
theorem answered_inheritedStyle {styled : StyledTree} (formed : styled.WellFormed)
    (coherent : styled.Coherent) (id : NodeId) :
    Answered styled (styled.inheritedStyle id).2 id (styled.inheritedStyle id).1 := by
  rw [inheritedStyle]
  cases found : styled.tree.get? id with
  | none =>
      rw [inheritedStyleWithin_unknown found]
      constructor
      · exact (Tree.FormedBy.freshStyle_unknown _ found).symm
      · exact coherent
      · intro style answer
        cases answer
      · exact fun _ => rfl
  | some node =>
      exact answered_inheritedStyleWithin formed coherent
        (Tree.elders_lt_size styled.tree.age (Tree.contains_of_get? found))

end WidgetStyle.StyledTree
