import WidgetStyle.Proofs.StyledTree.Upkeep
import WidgetStyle.Proofs.Tree.Attire

/-!
# Courses and their moves

A course is a sequence of requests, between which the selectors may be read ahead and the
sheet may be edited unannounced.  For the cached styles and the styles that nodes carry, all of
this comes down to a few moves: a style is kept or dropped, all of them are dropped, a node
comes or goes, or an inline style is set.  Every action of a course is made of such moves, so
what each move keeps holds after any course.
-/

namespace WidgetStyle

/-- What can happen to a styled tree: a request, the reading of selectors, and an edit of the
sheet that the styled tree does not get to know of. -/
inductive Action where
  | request (request : Request)
  | prepare
  | editSheetSilently (edit : Sheet → Sheet)

namespace TreeChange

/-- The change takes no node away. -/
def Spares (tree : Tree) : TreeChange → Prop
  | removeSubtree _ => False
  | plantRoot _ => tree.isEmpty = true
  | _ => True

/-- An inline style that the change sets is one of the given styles. -/
def Gives (given : Style → Prop) : TreeChange → Prop
  | replaceInlineStyle _ (some style) => given style
  | _ => True

theorem gives_of_forall {given : Style → Prop} (all : ∀ style, given style) (change : TreeChange) :
    change.Gives given := by
  unfold Gives
  split
  · exact all _
  · trivial

end TreeChange

namespace StyledTree

variable {given : Style → Prop} {lossless : Prop} {start styled after : StyledTree}

/-- The styled tree after an action. -/
def act (styled : StyledTree) : Action → StyledTree
  | .request request => styled.perform request
  | .prepare => styled.prepare
  | .editSheetSilently edit => styled.editSheetSilently edit

/-- A styled tree that is reached from another one by actions, each of them allowed in the
state in which it is made. -/
inductive Course (allowed : StyledTree → Action → Prop) (start : StyledTree) :
    StyledTree → Prop where
  | start : Course allowed start start
  | next {styled : StyledTree} {action : Action} :
      Course allowed start styled → allowed styled action →
        Course allowed start (styled.act action)

/-! ## Moves -/

/-- What the style of a node can start from: the default style, or what is taken over from a
cached one. -/
def Offers (styled : StyledTree) (base : Style) : Prop :=
  base = {} ∨ ∃ parent style fields, styled.styles.get? parent = some style ∧
    base = style.inherit fields

theorem offers_baseStyle (styled : StyledTree) (node : Node) :
    styled.Offers (styled.cascade.baseStyle (node.parent.bind styled.styles.get?)) := by
  cases above : node.parent.bind styled.styles.get? with
  | none => exact .inl rfl
  | some parentStyle =>
      rcases Option.bind_eq_some_iff.mp above with ⟨parent, -, cached⟩
      exact .inr ⟨parent, parentStyle, _, cached, rfl⟩

/-- What moves can have made of a styled tree.  The inline styles that are set are among the
given ones, and when nothing is to be lost, no node goes without its cached style. -/
inductive Moves (given : Style → Prop) (lossless : Prop) (start : StyledTree) :
    StyledTree → Prop where
  | start : Moves given lossless start start
  | leave {styled after : StyledTree} :
      Moves given lossless start styled → styled.tree.SameAttire after.tree →
        after.styles = styled.styles → Moves given lossless start after
  | grow {styled : StyledTree} {tree : Tree} :
      Moves given lossless start styled → styled.tree.Grows tree →
        Moves given lossless start { styled with tree }
  | dress {styled : StyledTree} {tree : Tree} {id : NodeId} {style : Option Style} :
      Moves given lossless start styled → (∀ own ∈ style, given own) →
        (styled.tree.modify id fun node => { node with inlineStyle := style }).SameAttire tree →
          Moves given lossless start { styled with tree }
  | cut {styled : StyledTree} (id : NodeId) :
      Moves given lossless start styled → ¬lossless →
        Moves given lossless start { styled with tree := (styled.tree.removeSubtree id).2 }
  | remove {styled : StyledTree} (id : NodeId) :
      Moves given lossless start styled → Moves given lossless start (styled.removeSubtree id).2
  | drop {styled : StyledTree} (id : NodeId) :
      Moves given lossless start styled → Moves given lossless start (styled.dropStyle id)
  | keep {styled : StyledTree} {node live : Node} {base style : Style} :
      Moves given lossless start styled → styled.tree.get? node.id = some live →
        live.inlineStyle = node.inlineStyle → styled.Offers base →
          styled.cascade.styleFrom base styled.surroundings node = .ok style →
            Moves given lossless start (styled.keepStyle node.id style)
  | strip {styled after : StyledTree} :
      Moves given lossless start styled →
        after.tree.attire.Sublist (styled.tree.attire.map fun worn => { worn with computed := none }) →
          after.tree.nextId = styled.tree.nextId → after.styles = {} →
            Moves given lossless start after

namespace Moves

/-! ## Changes of the tree -/

theorem withTree (moves : Moves given lossless start styled) {tree : Tree}
    (same : styled.tree.SameAttire tree) : Moves given lossless start { styled with tree } :=
  moves.leave same rfl

theorem plantRoot (moves : Moves given lossless start styled) (identity : Identity)
    (spares : lossless → styled.tree.isEmpty = true) :
    Moves given lossless start { styled with tree := (styled.tree.plantRoot identity).2 } := by
  rcases styled.tree.exists_grows_plantRoot identity with ⟨cleared, cases, grows⟩
  rcases cases with rfl | ⟨root, -, rfl⟩
  · exact moves.grow grows
  · by_cases losing : lossless
    · have nothing : styled.tree.nodes = [] := List.isEmpty_iff.mp (spares losing)
      have unknown : styled.tree.get? root = none := by rw [Tree.get?, nothing]; rfl
      rw [Tree.removeSubtree_unknown unknown] at grows
      exact moves.grow grows
    · have cleared := moves.cut root losing
      exact cleared.grow grows

theorem change (moves : Moves given lossless start styled) {change : TreeChange}
    (gives : change.Gives given) (spares : lossless → change.Spares styled.tree) :
    Moves given lossless start { styled with tree := change.apply styled.tree } := by
  refine @TreeChange.apply_of_outcome _ styled.tree change
    (fun tree => Moves given lossless start { styled with tree }) moves ?_
  intro tree done
  cases change with
  | plantRoot identity =>
      cases done
      exact moves.plantRoot identity spares
  | appendChild parent identity =>
      rcases exists_of_map_eq_ok done with ⟨pair, added, same⟩
      cases same
      exact moves.grow (Tree.grows_appendChild added)
  | removeSubtree id =>
      cases done
      exact moves.cut id spares
  | permuteChildren parent order => exact moves.withTree (Tree.sameAttire_permuteChildren done)
  | replaceClasses id classes =>
      rcases Tree.require_map_eq_ok done with ⟨node, -, rfl⟩
      exact moves.withTree (Tree.sameAttire_setIdentity _ node _)
  | insertClass id name =>
      rcases Tree.require_map_eq_ok done with ⟨node, -, rfl⟩
      split
      · exact moves
      · exact moves.withTree (Tree.sameAttire_setIdentity _ node _)
  | eraseClass id name =>
      rcases Tree.require_map_eq_ok done with ⟨node, -, rfl⟩
      split
      · exact moves.withTree (Tree.sameAttire_setIdentity _ node _)
      · exact moves
  | replaceElementId id elementId =>
      rcases Tree.require_map_eq_ok done with ⟨node, -, rfl⟩
      exact moves.withTree (Tree.sameAttire_setIdentity _ node _)
  | replaceInlineStyle id style =>
      rcases Tree.require_map_eq_ok done with ⟨node, -, rfl⟩
      refine @dress given lossless start styled _ id style moves ?_
        (Tree.sameAttire_dirtySubtree _ id)
      intro own set
      rw [Option.mem_def.mp set] at gives
      exact gives
  | writeFlags id changes =>
      simp only [TreeChange.outcome, Tree.writeFlags] at done
      split at done
      · cases done
      · rcases Tree.require_map_eq_ok done with ⟨node, -, rfl⟩
        exact moves.withTree (Tree.sameAttire_changed _ id _ fun _ => rfl)
  | replaceFlags id flags =>
      rcases Tree.require_map_eq_ok done with ⟨node, -, rfl⟩
      exact moves.withTree (Tree.sameAttire_changed _ id _ fun _ => rfl)
  | dirtySubtree id =>
      cases done
      exact moves.withTree (Tree.sameAttire_dirtySubtree _ id)
  | cleanAll =>
      cases done
      exact moves.withTree (Tree.sameAttire_cleanAll _)
  | giveFocus owner =>
      cases done
      exact moves.withTree (Tree.sameAttire_giveFlag _ .focused owner)
  | giveHover owner =>
      cases done
      exact moves.withTree (Tree.sameAttire_giveFlag _ .hovered owner)

/-! ## Builds -/

theorem clearTree (moves : Moves given lossless start styled) :
    Moves given lossless start styled.clearTree :=
  moves.strip (List.nil_sublist _) rfl rfl

theorem keptByRebuild (given : Style → Prop) (lossless : Prop) (start : StyledTree) :
    KeptByRebuild (Moves given lossless start) where
  append := by
    intro styled grown parent identity id moves added
    rcases appendChild_eq_ok added with ⟨tree, done, rfl⟩
    exact moves.grow (Tree.grows_appendChild done)
  adopt := by
    intro styled adopted id identity moves done
    rcases adopt?_eq_some done with rfl | ⟨tree, replaced, rfl⟩
    · exact moves
    · rcases Tree.require_map_eq_ok replaced with ⟨node, -, rfl⟩
      exact moves.withTree (Tree.sameAttire_setIdentity _ node _)
  remove := by
    intro styled id moves
    exact moves.remove id
  permute := by
    intro styled parent order tree moves permuted
    exact moves.withTree (Tree.sameAttire_permuteChildren permuted)

theorem planted (moves : Moves given lossless start styled) (identity : Identity) :
    Moves given lossless start
      { styled.clearTree with tree := (styled.clearTree.tree.plantRoot identity).2 } :=
  moves.clearTree.plantRoot identity fun _ => rfl

theorem buildAnew (moves : Moves given lossless start styled) {view : View} {root : NodeId}
    (done : styled.buildAnew view = .ok (root, after)) : Moves given lossless start after :=
  holds_buildAnew (keptByRebuild given lossless start).append (moves.planted view.identity) done

theorem rebuild (moves : Moves given lossless start styled) {view : View} {root : NodeId}
    (done : styled.rebuild view = .ok (root, after)) : Moves given lossless start after :=
  holds_rebuild (keptByRebuild given lossless start) moves (moves.planted view.identity) done

/-! ## Styles that are dropped -/

theorem foldl_drop (moves : Moves given lossless start styled) (ids : List NodeId) :
    Moves given lossless start (ids.foldl dropStyle styled) := by
  induction ids generalizing styled with
  | nil => exact moves
  | cons id rest ih => exact ih (moves.drop id)

theorem dirtySubtree (moves : Moves given lossless start styled) (id : NodeId) :
    Moves given lossless start (styled.dirtySubtree id) := by
  rw [StyledTree.dirtySubtree]
  split
  · exact (moves.foldl_drop _).withTree (Tree.sameAttire_dirtySubtree _ id)
  · exact moves

theorem giveFlag (moves : Moves given lossless start styled) (flag : Flag)
    (current : Option NodeId) (elementId : Option String) :
    Moves given lossless start (styled.giveFlag flag current elementId).2 := by
  have moved := moves.withTree
    (Tree.sameAttire_giveFlag styled.tree flag (elementId.bind styled.tree.idOfElement?))
  rw [StyledTree.giveFlag]
  simp only
  split
  · exact moved
  · exact moved.foldl_drop _

theorem forgetCascade (moves : Moves given lossless start styled) (sheet : Sheet) :
    Moves given lossless start { styled.forgetCascade with sheet } := by
  refine moves.strip ?_ rfl rfl
  simp only [StyledTree.forgetCascade, Tree.attire, List.map_map]
  exact .refl _

theorem dirtyAll (moves : Moves given lossless start styled) :
    Moves given lossless start styled.dirtyAll := by
  refine moves.strip ?_ rfl rfl
  simp only [StyledTree.dirtyAll, Tree.attire, List.map_map]
  exact .refl _

/-! ## Styles that are computed -/

theorem prepare (moves : Moves given lossless start styled) :
    Moves given lossless start styled.prepare :=
  moves.leave (.refl _) rfl

theorem computeBelow (moves : Moves given lossless start styled) {node live : Node}
    (found : styled.tree.get? node.id = some live) (same : live.inlineStyle = node.inlineStyle) :
    Moves given lossless start (styled.computeBelow node).2 := by
  rw [StyledTree.computeBelow]
  split
  · exact moves
  · rename_i style computed
    exact moves.keep found same (styled.offers_baseStyle node) computed

theorem computeEach (moves : Moves given lossless start styled) (ids : List NodeId) :
    Moves given lossless start (styled.computeEach ids).2 := by
  induction ids generalizing styled with
  | nil => exact moves
  | cons id rest ih =>
      rw [StyledTree.computeEach]
      split
      · exact ih moves
      · rename_i node found
        have named := Tree.id_of_get? found
        have computed := moves.computeBelow (named.symm ▸ found) rfl
        split
        · rename_i stopped failed
          rw [failed] at computed
          exact computed
        · rename_i below done
          rw [done] at computed
          exact ih computed

theorem ownStyle (moves : Moves given lossless start styled) (id : NodeId) :
    Moves given lossless start (styled.ownStyle id).2 := by
  rw [StyledTree.ownStyle]
  split
  · exact moves
  · rename_i node found
    split
    · exact moves
    · simp only
      split
      · exact moves.prepare
      · rename_i style computed
        have named := Tree.id_of_get? found
        rw [← named] at found ⊢
        exact moves.prepare.keep found rfl (.inl rfl) computed

theorem inheritedStyleWithin (moves : Moves given lossless start styled) (bound : Nat)
    (id : NodeId) : Moves given lossless start (styled.inheritedStyleWithin bound id).2 := by
  induction bound generalizing id with
  | zero => exact moves
  | succ bound ih =>
      cases found : styled.tree.get? id with
      | none =>
          rw [inheritedStyleWithin_unknown found]
          exact moves
      | some node =>
          cases trusted : styled.trustedAt? id with
          | some style =>
              rw [inheritedStyleWithin_trusted trusted]
              exact moves
          | none =>
              have climb : Moves given lossless start (styled.inheritedAbove bound node).2 ∧
                  SameContent styled (styled.inheritedAbove bound node).2 := by
                rw [inheritedAbove]
                cases node.parent with
                | none => exact ⟨moves, .refl styled⟩
                | some parent =>
                    exact ⟨ih parent, sameContent_inheritedStyleWithin styled bound parent⟩
              rw [inheritedStyleWithin_untrusted found trusted]
              split
              · rename_i climbed failed
                rw [failed] at climb
                exact climb.1
              · rename_i climbed done
                rw [done] at climb
                -- The climb leaves the node as it is but for its style and its mark.
                rcases climb.2.tree.exists_get? found with ⟨live, lookup, outlines⟩
                have inline : live.outline.inlineStyle = node.outline.inlineStyle := by
                  rw [outlines]
                rw [← Tree.id_of_get? found] at lookup
                exact @computeBelow _ _ _ _ climb.1.prepare node live lookup inline

theorem inheritedStyle (moves : Moves given lossless start styled) (id : NodeId) :
    Moves given lossless start (styled.inheritedStyle id).2 :=
  moves.inheritedStyleWithin _ id

theorem refreshEach (moves : Moves given lossless start styled) (ids : List NodeId) :
    Moves given lossless start (styled.refreshEach ids).2 := by
  induction ids generalizing styled with
  | nil => exact moves
  | cons id rest ih =>
      rw [StyledTree.refreshEach]
      split
      · exact ih moves
      · have computed := moves.ownStyle id
        split
        · rename_i stopped failed
          rw [failed] at computed
          exact computed
        · rename_i below done
          rw [done] at computed
          exact ih computed

theorem refreshDown (moves : Moves given lossless start styled) :
    Moves given lossless start styled.refreshDown.2 := by
  cases rooted : styled.tree.root with
  | none =>
      rw [refreshDown_rootless rooted]
      exact moves
  | some root =>
      cases read : styled.selectorSet with
      | error excess =>
          rw [refreshDown_unread rooted read]
          exact moves
      | ok set =>
          rw [refreshDown_eq_computeEach rooted read]
          exact moves.prepare.computeEach _

theorem refresh (moves : Moves given lossless start styled) :
    Moves given lossless start styled.refresh.2 := by
  rw [StyledTree.refresh]
  split
  · exact moves.refreshDown
  · exact moves.refreshEach _

/-! ## Requests and actions -/

theorem perform (moves : Moves given lossless start styled) (request : Request)
    (gives : ∀ change, request = .change change → change.Gives given)
    (spares : lossless → ∀ change, request = .change change → change.Spares styled.tree) :
    Moves given lossless start (styled.perform request) := by
  cases request with
  | change change => exact moves.change (gives change rfl) fun losing => spares losing change rfl
  | replaceSheet sheet =>
      have replaced : Moves given lossless start { styled with sheet } := moves.leave (.refl _) rfl
      exact replaced.forgetCascade sheet
  | editSheet edit => exact moves.forgetCascade _
  | dirtyAll => exact moves.dirtyAll
  | dirtySubtree id => exact moves.dirtySubtree id
  | focusElement elementId =>
      exact (moves.giveFlag .focused styled.focused elementId).leave (.refl _) rfl
  | hoverElement elementId =>
      exact (moves.giveFlag .hovered styled.hovered elementId).leave (.refl _) rfl
  | removeSubtree id => exact moves.remove id
  | clearTree => exact moves.clearTree
  | buildFlat identity children =>
      rw [StyledTree.perform]
      split
      · rename_i done
        exact moves.buildAnew done
      · exact moves
  | rebuild view =>
      rw [StyledTree.perform]
      split
      · rename_i done
        exact moves.rebuild done
      · exact moves
  | ownStyle id => exact moves.ownStyle id
  | inheritedStyle id => exact moves.inheritedStyle id
  | refresh => exact moves.refresh
  | refreshDown => exact moves.refreshDown

/-- Every action is made of moves. -/
theorem act (moves : Moves given lossless start styled) (action : Action)
    (gives : ∀ change, action = .request (.change change) → change.Gives given)
    (spares : lossless → ∀ change, action = .request (.change change) →
      change.Spares styled.tree) : Moves given lossless start (styled.act action) := by
  cases action with
  | request request =>
      exact moves.perform request (fun change same => gives change (congrArg _ same))
        fun losing change same => spares losing change (congrArg _ same)
  | prepare => exact moves.prepare
  | editSheetSilently edit => exact moves.leave (.refl _) rfl

end Moves

/-- Every course is made of moves. -/
theorem Course.moves {allowed : StyledTree → Action → Prop} (course : Course allowed start styled)
    (gives : ∀ {styled change}, allowed styled (.request (.change change)) → change.Gives given)
    (spares : lossless → ∀ {styled change}, allowed styled (.request (.change change)) →
      change.Spares styled.tree) : Moves given lossless start styled := by
  induction course with
  | start => exact .start
  | @next styled action _ permitted ih =>
      apply ih.act action
      · intro change same
        rw [same] at permitted
        exact gives permitted
      · intro losing change same
        rw [same] at permitted
        exact spares losing permitted

end StyledTree

end WidgetStyle
