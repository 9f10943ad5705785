import WidgetStyle.Proofs.StyledTree.Queries

/-!
# Passes over the tree

What a pass from the root down does.  It never computes a trusted style anew, and
in a coherent styled tree it computes styles from scratch, because parents come
first.  It turns back at a trusted node that no dirty node lies below of, and what
lies below such a node is left as it was; everything else can be trusted after the
pass.
-/

namespace WidgetStyle.StyledTree

variable {styled : StyledTree} {paths stack : List NodeId} {bound : Nat} {id : NodeId}

/-! ## One node of a pass -/

theorem passOver_unknown (unknown : styled.tree.get? id = none) :
    styled.passOver paths (bound + 1) (id :: stack) = styled.passOver paths bound stack := by
  rw [passOver, unknown]

theorem passOver_trusted {style : Style} (trusted : styled.trustedAt? id = some style) :
    styled.passOver paths (bound + 1) (id :: stack) =
      styled.passOver paths bound
        (if paths.contains id then styled.tree.childrenOf id ++ stack else stack) := by
  obtain ⟨node, found, kept⟩ := Option.bind_eq_some_iff.mp trusted
  rw [passOver, found, Tree.childrenOf_of_get? found]
  simp only [kept, Option.isSome_some, if_true]

theorem passOver_stopped {node : Node} {error : StyleError} {stopped : StyledTree}
    (found : styled.tree.get? id = some node) (untrusted : styled.trustedAt? id = none)
    (failed : styled.computeBelow node = (.error error, stopped)) :
    styled.passOver paths (bound + 1) (id :: stack) = (.error error, stopped) := by
  rw [trustedAt?, found, Option.bind_some] at untrusted
  rw [passOver, found]
  simp only [untrusted, Option.isSome_none, Bool.false_eq_true, if_false, failed]

theorem passOver_computed {node : Node} {style : Style} {computed : StyledTree}
    (found : styled.tree.get? id = some node) (untrusted : styled.trustedAt? id = none)
    (done : styled.computeBelow node = (.ok style, computed)) :
    styled.passOver paths (bound + 1) (id :: stack) =
      ((computed.passOver paths bound (styled.tree.childrenOf id ++ stack)).1.map (· + 1),
        (computed.passOver paths bound (styled.tree.childrenOf id ++ stack)).2) := by
  rw [trustedAt?, found, Option.bind_some] at untrusted
  rw [passOver, found, Tree.childrenOf_of_get? found]
  simp only [untrusted, Option.isSome_none, Bool.false_eq_true, if_false, done]

/-- What is computed is cached under the node's id. -/
theorem computed_eq {node : Node} {style : Style} {computed : StyledTree}
    (found : styled.tree.get? id = some node)
    (done : styled.computeBelow node = (.ok style, computed)) :
    computed = styled.keepStyle id style := by
  rw [computeBelow, Tree.id_of_get? found] at done
  split at done
  · cases done
  · cases done
    rfl

/-- A pass as a relation, with one rule for each way in which it can go on from the
node on top of the stack. -/
inductive Pass (paths : List NodeId) :
    StyledTree → Nat → List NodeId → Except StyleError Nat → StyledTree → Prop where
  | done {styled : StyledTree} {bound : Nat} : Pass paths styled bound [] (.ok 0) styled
  | exhausted {styled : StyledTree} {id : NodeId} {stack : List NodeId} :
      Pass paths styled 0 (id :: stack) (.ok 0) styled
  | unknown {styled after : StyledTree} {bound : Nat} {id : NodeId} {stack : List NodeId}
      {outcome : Except StyleError Nat} :
      styled.tree.get? id = none → Pass paths styled bound stack outcome after →
        Pass paths styled (bound + 1) (id :: stack) outcome after
  | enter {styled after : StyledTree} {bound : Nat} {id : NodeId} {stack : List NodeId}
      {outcome : Except StyleError Nat} {style : Style} :
      styled.trustedAt? id = some style → id ∈ paths →
        Pass paths styled bound (styled.tree.childrenOf id ++ stack) outcome after →
          Pass paths styled (bound + 1) (id :: stack) outcome after
  | skip {styled after : StyledTree} {bound : Nat} {id : NodeId} {stack : List NodeId}
      {outcome : Except StyleError Nat} {style : Style} :
      styled.trustedAt? id = some style → id ∉ paths → Pass paths styled bound stack outcome after →
        Pass paths styled (bound + 1) (id :: stack) outcome after
  | stop {styled : StyledTree} {bound : Nat} {id : NodeId} {stack : List NodeId} {node : Node}
      {error : StyleError} :
      styled.tree.get? id = some node → styled.computeBelow node = (.error error, styled) →
        Pass paths styled (bound + 1) (id :: stack) (.error error) styled
  | compute {styled after : StyledTree} {bound : Nat} {id : NodeId} {stack : List NodeId}
      {outcome : Except StyleError Nat} {node : Node} {style : Style} :
      styled.tree.get? id = some node → styled.trustedAt? id = none →
        styled.computeBelow node = (.ok style, styled.keepStyle id style) →
          Pass paths (styled.keepStyle id style) bound (styled.tree.childrenOf id ++ stack)
            outcome after →
            Pass paths styled (bound + 1) (id :: stack) (outcome.map (· + 1)) after

theorem pass_passOver (styled : StyledTree) (paths : List NodeId) (bound : Nat)
    (stack : List NodeId) :
    Pass paths styled bound stack (styled.passOver paths bound stack).1
      (styled.passOver paths bound stack).2 := by
  induction bound generalizing styled stack with
  | zero =>
      cases stack with
      | nil => exact .done
      | cons id stack => exact .exhausted
  | succ bound ih =>
      cases stack with
      | nil => exact .done
      | cons id stack =>
          cases found : styled.tree.get? id with
          | none =>
              rw [passOver_unknown found]
              exact .unknown found (ih styled stack)
          | some node =>
              cases handed : styled.trustedAt? id with
              | some style =>
                  rw [passOver_trusted handed]
                  split
                  · rename_i listed
                    exact .enter handed (List.contains_iff_mem.mp listed) (ih styled _)
                  · rename_i unlisted
                    exact .skip handed (fun member => unlisted (List.contains_iff_mem.mpr member))
                      (ih styled stack)
              | none =>
                  cases computed : styled.computeBelow node with
                  | mk result after =>
                      cases result with
                      | error error =>
                          rw [passOver_stopped found handed computed]
                          have same := (computeBelow_error computed).1
                          rw [same] at computed ⊢
                          exact .stop found computed
                      | ok style =>
                          rw [passOver_computed found handed computed]
                          have same := computed_eq found computed
                          rw [same] at computed ⊢
                          exact .compute found handed computed (ih _ _)

theorem pass_refreshDown {root : NodeId} {set : SelectorSet}
    (rooted : styled.tree.root = some root) (read : styled.selectorSet = .ok set) :
    Pass styled.pathsToDirty styled.prepare styled.tree.size [root] styled.refreshDown.1
      styled.refreshDown.2 := by
  rw [refreshDown, rooted, read]
  exact pass_passOver _ _ _ _

theorem refreshDown_rootless (rootless : styled.tree.root = none) :
    styled.refreshDown = (.ok 0, styled) := by
  rw [refreshDown, rootless]

/-- Without selectors no pass starts. -/
theorem refreshDown_unread {root : NodeId} {excess : Text.TooManyDigits}
    (rooted : styled.tree.root = some root) (unread : styled.selectorSet = .error excess) :
    styled.refreshDown = (.error (.tooManyDigits excess), styled) := by
  rw [refreshDown, rooted, unread]

/-- A pass that comes to an end has read the selectors. -/
theorem exists_selectorSet_of_refreshDown {root : NodeId} {count : Nat} {after : StyledTree}
    (rooted : styled.tree.root = some root) (done : styled.refreshDown = (.ok count, after)) :
    ∃ set, styled.selectorSet = .ok set := by
  cases read : styled.selectorSet with
  | error excess =>
      rw [refreshDown_unread rooted read] at done
      cases done
  | ok set => exact ⟨set, rfl⟩

/-! ## What a pass leaves alone -/

theorem Pass.sameContent {after : StyledTree} {outcome : Except StyleError Nat}
    (pass : Pass paths styled bound stack outcome after) : SameContent styled after := by
  induction pass with
  | done => exact .refl _
  | exhausted => exact .refl _
  | unknown _ _ ih => exact ih
  | enter _ _ _ ih => exact ih
  | skip _ _ _ ih => exact ih
  | stop _ _ => exact .refl _
  | compute _ _ _ _ ih => exact (sameContent_keepStyle _ _ _).trans ih

theorem sameContent_refreshDown (styled : StyledTree) :
    SameContent styled styled.refreshDown.2 := by
  cases rooted : styled.tree.root with
  | none =>
      rw [refreshDown_rootless rooted]
      exact .refl styled
  | some root =>
      cases read : styled.selectorSet with
      | error excess =>
          rw [refreshDown_unread rooted read]
          exact .refl styled
      | ok set =>
          exact (sameContent_prepare styled).trans (pass_refreshDown rooted read).sameContent

theorem sameContent_refreshEach (styled : StyledTree) (ids : List NodeId) :
    SameContent styled (styled.refreshEach ids).2 := by
  induction ids generalizing styled with
  | nil => exact .refl styled
  | cons id rest ih =>
      rw [refreshEach]
      split
      · exact ih styled
      · have computed := sameContent_ownStyle styled id
        split
        · rename_i stopped failed
          rw [failed] at computed
          exact computed
        · rename_i done
          rw [done] at computed
          exact computed.trans (ih _)

theorem sameContent_refresh (styled : StyledTree) : SameContent styled styled.refresh.2 := by
  rw [refresh]
  split
  · exact sameContent_refreshDown styled
  · exact sameContent_refreshEach styled _

/-! ## Coherence -/

theorem parentTrusted_keepStyle {other : NodeId} {style : Style}
    (known : styled.tree.contains id = true) (fed : styled.ParentTrusted other) :
    (styled.keepStyle id style).ParentTrusted other := by
  intro parent link
  rw [← (sameContent_keepStyle styled id style).tree.sameLinks.parents] at link
  rw [trustedAt?_keepStyle known]
  split
  · rfl
  · exact fed parent link

/-- A pass keeps the cache coherent when the parents of all nodes that wait can be
trusted. -/
theorem Pass.coherent {after : StyledTree} {outcome : Except StyleError Nat}
    (pass : Pass paths styled bound stack outcome after) (formed : styled.WellFormed)
    (coherent : styled.Coherent) (fed : ∀ id, id ∈ stack → styled.ParentTrusted id) :
    after.Coherent := by
  induction pass with
  | done => exact coherent
  | exhausted => exact coherent
  | unknown _ _ ih =>
      exact ih formed coherent fun other member => fed other (List.mem_cons_of_mem _ member)
  | enter trusted _ _ ih =>
      apply ih formed coherent
      intro other member
      rcases List.mem_append.mp member with child | later
      · exact parentTrusted_of_trusted (formed.tree.childOf.mp child) trusted
      · exact fed other (List.mem_cons_of_mem _ later)
  | skip _ _ _ ih =>
      exact ih formed coherent fun other member => fed other (List.mem_cons_of_mem _ member)
  | stop _ _ => exact coherent
  | @compute styled _ _ id _ _ _ style found untrusted computed _ ih =>
      have known := Tree.contains_of_get? found
      have fresh := (computeBelow_ok formed coherent found (fed id List.mem_cons_self) computed).1
      have content := sameContent_keepStyle styled id style
      apply ih (content.wellFormed formed) (coherent_keepStyle formed coherent known fresh)
      intro other member
      rcases List.mem_append.mp member with child | later
      · have link := (content.tree.sameLinks.parents other).symm.trans
          (formed.tree.childOf.mp child)
        apply parentTrusted_of_trusted link
        rw [trustedAt?_keepStyle known, if_pos rfl]
      · exact parentTrusted_keepStyle known (fed other (List.mem_cons_of_mem _ later))

theorem coherent_refreshDown (formed : styled.WellFormed) (coherent : styled.Coherent) :
    styled.refreshDown.2.Coherent := by
  cases rooted : styled.tree.root with
  | none =>
      rw [refreshDown_rootless rooted]
      exact coherent
  | some root =>
      cases read : styled.selectorSet with
      | error excess =>
          rw [refreshDown_unread rooted read]
          exact coherent
      | ok set =>
          apply (pass_refreshDown rooted read).coherent formed.prepare coherent
          intro id member parent link
          rw [List.mem_singleton.mp member] at link
          have parentless := (formed.tree.rootFound rooted).2
          have same : styled.prepare.tree.parentId? root = styled.tree.parentId? root := rfl
          rw [same, parentless] at link
          cases link

/-! ## Passes that fail -/

/-- A pass fails only at a node that has no style from scratch. -/
theorem Pass.exists_error {after : StyledTree} {outcome : Except StyleError Nat}
    (pass : Pass paths styled bound stack outcome after) (formed : styled.WellFormed)
    {error : StyleError} (failed : outcome = .error error) :
    ∃ id error, styled.freshStyle id = .error error := by
  induction pass generalizing error with
  | done => cases failed
  | exhausted => cases failed
  | unknown _ _ ih => exact ih formed failed
  | enter _ _ _ ih => exact ih formed failed
  | skip _ _ _ ih => exact ih formed failed
  | @stop styled _ id _ node first found computed =>
      refine ⟨id, ?_⟩
      rw [freshStyle, ← formed.cascade_eq]
      exact formed.tree.exists_error_of_styleBelow found (computeBelow_error computed).2
  | @compute styled _ _ id _ outcome _ style _ _ _ _ ih =>
      have content := sameContent_keepStyle styled id style
      cases outcome with
      | ok count => cases failed
      | error later =>
          obtain ⟨other, cause, fresh⟩ := ih (content.wellFormed formed) rfl
          rw [content.freshStyle_eq formed] at fresh
          exact ⟨other, cause, fresh⟩

/-- Without selectors no node has a style from scratch. -/
theorem exists_error_of_unread (formed : styled.WellFormed) {excess : Text.TooManyDigits}
    (unread : styled.selectorSet = .error excess) (known : styled.tree.contains id = true) :
    ∃ error, styled.freshStyle id = .error error := by
  obtain ⟨node, found⟩ := Tree.contains_iff.mp known
  have fails : (Cascade.ofSheet styled.sheet styled.config).styleBelow none
      styled.tree.surroundings node = .error (.tooManyDigits excess) := by
    rw [← formed.cascade_eq, Cascade.styleBelow, Cascade.styleFrom, Cascade.matchesOf, cascade,
      unread]
  exact formed.tree.exists_error_of_styleBelow found fails

theorem exists_error_of_refreshDown (formed : styled.WellFormed) {error : StyleError}
    {stopped : StyledTree} (failed : styled.refreshDown = (.error error, stopped)) :
    ∃ id error, styled.freshStyle id = .error error := by
  cases rooted : styled.tree.root with
  | none =>
      rw [refreshDown_rootless rooted] at failed
      cases failed
  | some root =>
      cases read : styled.selectorSet with
      | error excess =>
          exact ⟨root, exists_error_of_unread formed read (formed.tree.rootFound rooted).1⟩
      | ok set =>
          have pass := pass_refreshDown rooted read
          rw [failed] at pass
          have fails := pass.exists_error formed.prepare rfl
          exact fails

/-! ## How far a pass gets -/

theorem isClean_keepStyle (id : NodeId) (style : Style) {other : NodeId}
    (cleaned : styled.tree.IsClean other) : (styled.keepStyle id style).tree.IsClean other := by
  rcases cleaned with ⟨node, found, clear⟩
  rw [Tree.IsClean, get?_keepStyle]
  split
  · rename_i same
    rw [← same, found]
    exact ⟨_, rfl, rfl⟩
  · exact ⟨node, found, clear⟩

/-- A pass turns back at the node: its style can be trusted, and nothing below it is
known to be dirty. -/
def Stops (styled : StyledTree) (paths : List NodeId) (id : NodeId) : Prop :=
  (styled.trustedAt? id).isSome = true ∧ id ∉ paths

/-- What a pass that comes to its end does to the styles of the nodes on its way. -/
structure Passed (before after : StyledTree) (paths visited : List NodeId) : Prop where
  kept : ∀ {id style}, before.trustedAt? id = some style → after.trustedAt? id = some style
  clean : ∀ {id}, before.tree.IsClean id → after.tree.IsClean id
  outside : ∀ {id}, id ∉ visited → after.trustedAt? id = before.trustedAt? id
  reached : ∀ {id}, id ∈ visited → ((after.trustedAt? id).isSome = true ↔
    (before.trustedAt? id).isSome = true ∨
      ∀ stop, stop ∈ visited → before.Stops paths stop → ¬before.tree.Below stop id)

namespace Passed

variable {before after : StyledTree} {rest : List NodeId}

/-- The pass goes on below a trusted node. -/
theorem enter {style : Style} (trusted : before.trustedAt? id = some style)
    (listed : id ∈ paths) (passed : Passed before after paths rest) :
    Passed before after paths (id :: rest) where
  kept := passed.kept
  clean := passed.clean
  outside := by
    intro other apart
    exact passed.outside fun member => apart (List.mem_cons_of_mem _ member)
  reached := by
    intro other member
    have goesOn : ¬before.Stops paths id := fun stops => stops.2 listed
    by_cases later : other ∈ rest
    · rw [passed.reached later]
      simp only [List.forall_mem_cons, goesOn, false_implies, true_and]
    · have same := (List.mem_cons.mp member).resolve_right later
      rw [same, passed.kept trusted, trusted]
      simp only [Option.isSome_some, true_or]

/-- The pass turns back at a trusted node. -/
theorem skip {birth : NodeId → Int} {inner outer : List NodeId}
    (linked : before.tree.LinkedBy birth)
    (walk : before.tree.Walk (before.tree.childrenOf id) inner)
    (distinct : (id :: (inner ++ outer)).Nodup) (stops : before.Stops paths id)
    (passed : Passed before after paths outer) :
    Passed before after paths (id :: (inner ++ outer)) where
  kept := passed.kept
  clean := passed.clean
  outside := by
    intro other apart
    apply passed.outside
    intro member
    exact apart (List.mem_cons_of_mem _ (List.mem_append_right _ member))
  reached := by
    have whole : before.tree.Walk [id] (id :: inner) :=
      .visit (by rwa [List.append_nil])
    have parts := List.nodup_append.mp (by rwa [← List.cons_append] at distinct :
      ((id :: inner) ++ outer).Nodup)
    have apart : ∀ {other}, other ∈ outer → ¬before.tree.Below id other := by
      intro other member below
      have met := (linked.mem_walk_iff whole).mpr ⟨id, List.mem_singleton_self id, below⟩
      exact parts.2.2 other met other member rfl
    intro other member
    by_cases later : other ∈ outer
    · rw [passed.reached later]
      apply or_congr_right
      constructor
      · intro free stop stopMember stopStops below
        rcases List.mem_append.mp (by rwa [List.cons_append] : stop ∈ (id :: inner) ++ outer)
          with under | waiting
        · obtain ⟨top, topMember, topBelow⟩ := (linked.mem_walk_iff whole).mp under
          rw [List.mem_singleton.mp topMember] at topBelow
          exact apart later (topBelow.trans below)
        · exact free stop waiting stopStops below
      · intro free stop stopMember
        exact free stop (List.mem_cons_of_mem _ (List.mem_append_right _ stopMember))
    · have under : other ∈ id :: inner := by
        rw [← List.cons_append] at member
        exact (List.mem_append.mp member).resolve_right later
      obtain ⟨top, topMember, below⟩ := (linked.mem_walk_iff whole).mp under
      rw [List.mem_singleton.mp topMember] at below
      rw [passed.outside later]
      constructor
      · exact .inl
      · intro either
        rcases either with trusted | free
        · exact trusted
        · exact absurd below (free id List.mem_cons_self stops)

/-- The pass computes the style of a node. -/
theorem compute {birth : NodeId → Int} {style : Style} (linked : before.tree.LinkedBy birth)
    (known : before.tree.contains id = true)
    (walk : before.tree.Walk (id :: stack) (id :: rest)) (fresh : id ∉ rest)
    (untrusted : before.trustedAt? id = none)
    (passed : Passed (before.keepStyle id style) after paths rest) :
    Passed before after paths (id :: rest) where
  kept := by
    intro other found trusted
    apply passed.kept
    rw [trustedAt?_keepStyle known, if_neg]
    · exact trusted
    · intro same
      rw [same, untrusted] at trusted
      cases trusted
  clean := by
    intro other cleaned
    exact passed.clean (isClean_keepStyle id style cleaned)
  outside := by
    intro other apart
    rw [List.mem_cons, not_or] at apart
    rw [passed.outside apart.2, trustedAt?_keepStyle known, if_neg apart.1]
  reached := by
    have goesOn : ¬before.Stops paths id := by
      intro stops
      rw [Stops, untrusted] at stops
      cases stops.1
    have below_iff : ∀ {top other},
        (before.keepStyle id style).tree.Below top other ↔ before.tree.Below top other := by
      intro top other
      exact (sameContent_keepStyle before id style).tree.sameLinks.symm.below_iff
    have restWalk : before.tree.Walk (before.tree.childrenOf id ++ stack) rest := by
      cases walk with
      | visit rest => exact rest
    intro other member
    by_cases later : other ∈ rest
    · have different : other ≠ id := fun same => fresh (same ▸ later)
      rw [passed.reached later, trustedAt?_keepStyle known, if_neg different]
      apply or_congr_right
      simp only [List.forall_mem_cons, goesOn, false_implies, true_and]
      apply forall_congr'
      intro stop
      apply forall_congr'
      intro stopMember
      have apart : stop ≠ id := fun same => fresh (same ▸ stopMember)
      rw [Stops, Stops, trustedAt?_keepStyle known, if_neg apart, below_iff]
    · have same := (List.mem_cons.mp member).resolve_right later
      have cached : (before.keepStyle id style).trustedAt? id = some style := by
        rw [trustedAt?_keepStyle known, if_pos rfl]
      rw [same, passed.kept cached]
      simp only [Option.isSome_some, true_iff]
      refine .inr ?_
      intro stop stopMember stops under
      rcases List.mem_cons.mp stopMember with rfl | waiting
      · exact goesOn stops
      · obtain ⟨top, topMember, topBelow⟩ := (linked.mem_walk_iff restWalk).mp waiting
        exact fresh ((linked.mem_walk_iff restWalk).mpr ⟨top, topMember, topBelow.trans under⟩)

end Passed

/-- A pass that comes to its end reaches all that it does not turn back from. -/
theorem Pass.passed {after : StyledTree} {outcome : Except StyleError Nat}
    {birth : NodeId → Int} (pass : Pass paths styled bound stack outcome after)
    {visited : List NodeId} {count : Nat} (linked : styled.tree.LinkedBy birth)
    (walk : styled.tree.Walk stack visited) (distinct : visited.Nodup)
    (alive : ∀ id, id ∈ visited → styled.tree.contains id = true)
    (enough : visited.length ≤ bound) (succeeds : outcome = .ok count) :
    Passed styled after paths visited := by
  induction pass generalizing visited count with
  | done =>
      cases walk with
      | done =>
          exact ⟨fun trusted => trusted, fun cleaned => cleaned, fun _ => rfl,
            fun member => by cases member⟩
  | exhausted =>
      cases walk with
      | visit rest => cases enough
  | @unknown _ _ _ id _ _ missing _ _ =>
      cases walk with
      | visit rest =>
          obtain ⟨node, found⟩ := Tree.contains_iff.mp (alive id List.mem_cons_self)
          rw [missing] at found
          cases found
  | enter trusted listed _ ih =>
      cases walk with
      | visit walk =>
          exact (ih linked walk (List.nodup_cons.mp distinct).2
            (fun other member => alive other (List.mem_cons_of_mem _ member))
            (Nat.le_of_succ_le_succ enough) succeeds).enter trusted listed
  | @skip _ _ _ id _ _ style trusted unlisted _ ih =>
      cases walk with
      | visit walk =>
          obtain ⟨inner, outer, rfl, innerWalk, outerWalk⟩ := walk.split
          have shorter := Nat.le_of_succ_le_succ enough
          rw [List.length_append] at shorter
          have outerDistinct := (List.nodup_append.mp (List.nodup_cons.mp distinct).2).2.1
          refine (ih linked outerWalk outerDistinct ?_ (Nat.le_of_add_left_le shorter)
            succeeds).skip linked innerWalk distinct ⟨by rw [trusted]; rfl, unlisted⟩
          intro other member
          exact alive other (List.mem_cons_of_mem _ (List.mem_append_right _ member))
  | stop _ _ => cases succeeds
  | @compute styled _ _ id _ outcome _ style found untrusted _ _ ih =>
      cases walk with
      | visit walk =>
          obtain ⟨fresh, restDistinct⟩ := List.nodup_cons.mp distinct
          have links := (sameContent_keepStyle styled id style).tree.sameLinks
          have again := walk.congr fun other _ => (links.children other).symm
          cases outcome with
          | error error => cases succeeds
          | ok inner =>
              refine (ih (links.linkedBy linked) again restDistinct ?_
                (Nat.le_of_succ_le_succ enough) rfl).compute linked (alive id List.mem_cons_self)
                (.visit walk) fresh untrusted
              intro other member
              rw [← links.contains_eq]
              exact alive other (List.mem_cons_of_mem _ member)

end WidgetStyle.StyledTree
