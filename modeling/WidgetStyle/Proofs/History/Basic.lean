import WidgetStyle.Proofs.StyledTree.Runs
import WidgetStyle.Proofs.Tree.Restyling

/-!
# Histories

A history is any sequence of changes of a tree, with any arguments, made one after
the other on a tree without nodes.  A change that cannot be made is part of the
history and leaves the tree as it is.  What one change can come to is listed once,
for all that is said about histories.  The trees that histories lead to are the
reachable ones, and each of them is well-formed.  In all of them a node holds its state
by itself.
-/

namespace WidgetStyle

namespace Identity

theorem nodup_insertName {names : List String} (distinct : names.Nodup) (name : String) :
    (insertName names name).Nodup := by
  rw [insertName]
  split
  · exact distinct
  · rename_i new
    rw [List.nodup_append]
    refine ⟨distinct, by simp, ?_⟩
    intro other listed last single same
    rw [List.mem_singleton] at single
    simp [← single, ← same, listed] at new

theorem nodup_foldl_insertName {names : List String} (distinct : names.Nodup)
    (more : List String) : (more.foldl insertName names).Nodup := by
  induction more generalizing names with
  | nil => exact distinct
  | cons name later ih => exact ih (nodup_insertName distinct name)

end Identity

namespace TreeChange

open WidgetStyle.Tree

/-! ## What one change comes to -/

/-- What a change comes to: nodes come, go or move, or one node becomes another one, or
the tree is restyled at most.  A change that cannot be made restyles nothing. -/
inductive Effect (tree : Tree) : TreeChange → Tree → Prop where
  | planted (identity : Identity) : Effect tree (.plantRoot identity) (tree.plantRoot identity).2
  | appended {parent id : NodeId} {identity : Identity} {after : Tree} :
      tree.appendChild parent identity = .ok (id, after) →
        Effect tree (.appendChild parent identity) after
  | removed (id : NodeId) : Effect tree (.removeSubtree id) (tree.removeSubtree id).2
  | permuted {parent : NodeId} {order : List NodeId} {after : Tree} :
      tree.permuteChildren parent order = .ok after →
        Effect tree (.permuteChildren parent order) after
  | renamed {change : TreeChange} {id : NodeId} {node : Node} {identity : Identity} :
      tree.get? id = some node → (node.identity.classes.Nodup → identity.classes.Nodup) →
        Effect tree change (tree.setIdentity node identity)
  | restyled {change : TreeChange} {after : Tree} :
      tree.Restyled after → Effect tree change after

/-- Whether the change touches nothing but the state and the style of nodes. -/
def restyles : TreeChange → Bool
  | replaceInlineStyle _ _ | writeFlags _ _ | replaceFlags _ _ | dirtySubtree _ | cleanAll
  | giveFocus _ | giveHover _ => true
  | plantRoot _ | appendChild _ _ | removeSubtree _ | permuteChildren _ _ | replaceClasses _ _
  | insertClass _ _ | eraseClass _ _ | replaceElementId _ _ => false

theorem restyled_apply {change : TreeChange} (restyles : change.restyles = true) (tree : Tree) :
    tree.Restyled (change.apply tree) := by
  apply apply_of_outcome (.refl tree)
  intro after done
  cases change with
  | replaceInlineStyle id style =>
      rcases require_map_eq_ok done with ⟨node, -, rfl⟩
      have styled := restyled_modify tree id (fun node => { node with inlineStyle := style })
        fun _ => rfl
      exact styled.trans (restyled_dirtySubtree _ id)
  | writeFlags id changes =>
      simp only [outcome, Tree.writeFlags] at done
      split at done
      · cases done
      · rcases require_map_eq_ok done with ⟨node, -, rfl⟩
        exact restyled_changed tree id _ fun _ => rfl
  | replaceFlags id flags =>
      rcases require_map_eq_ok done with ⟨node, -, rfl⟩
      exact restyled_changed tree id _ fun _ => rfl
  | dirtySubtree id =>
      cases done
      exact restyled_dirtySubtree tree id
  | cleanAll =>
      cases done
      exact restyled_cleanAll tree
  | giveFocus owner =>
      cases done
      exact restyled_giveFlag tree .focused owner
  | giveHover owner =>
      cases done
      exact restyled_giveFlag tree .hovered owner
  | _ => cases restyles

theorem effect_apply (change : TreeChange) (tree : Tree) :
    Effect tree change (change.apply tree) := by
  by_cases restyles : change.restyles = true
  · exact .restyled (restyled_apply restyles tree)
  · apply apply_of_outcome (.restyled (.refl tree))
    intro after done
    cases change with
    | plantRoot identity =>
        cases done
        exact .planted identity
    | appendChild parent identity =>
        rcases exists_of_map_eq_ok done with ⟨pair, added, same⟩
        cases same
        exact .appended added
    | removeSubtree id =>
        cases done
        exact .removed id
    | permuteChildren parent order => exact .permuted done
    | replaceClasses id classes =>
        rcases require_map_eq_ok done with ⟨node, found, rfl⟩
        exact .renamed found fun _ => Identity.nodup_foldl_insertName .nil classes
    | insertClass id name =>
        rcases require_map_eq_ok done with ⟨node, found, rfl⟩
        split
        · exact .restyled (.refl tree)
        · exact .renamed found fun distinct => Identity.nodup_insertName distinct name
    | eraseClass id name =>
        rcases require_map_eq_ok done with ⟨node, found, rfl⟩
        split
        · exact .renamed found fun distinct => distinct.erase name
        · exact .restyled (.refl tree)
    | replaceElementId id elementId =>
        rcases require_map_eq_ok done with ⟨node, found, rfl⟩
        exact .renamed found fun distinct => distinct
    | _ => exact absurd rfl restyles

/-! ## Changes of an identity -/

section Renaming

variable {tree : Tree} {change : TreeChange} {id : NodeId}

/-- Whether the change sets the identity of a node. -/
def renames : TreeChange → Bool
  | replaceClasses _ _ | insertClass _ _ | eraseClass _ _ | replaceElementId _ _ => true
  | plantRoot _ | appendChild _ _ | removeSubtree _ | permuteChildren _ _
  | replaceInlineStyle _ _ | writeFlags _ _ | replaceFlags _ _ | dirtySubtree _ | cleanAll
  | giveFocus _ | giveHover _ => false

/-- The node whose identity a change sets, be it to what it was. -/
def renamed? (tree : Tree) : TreeChange → Option NodeId
  | replaceClasses id _ | replaceElementId id _ => (tree.get? id).map (·.id)
  | insertClass id name =>
      ((tree.get? id).filter fun node => !node.identity.hasClass name).map (·.id)
  | eraseClass id name =>
      ((tree.get? id).filter fun node => node.identity.hasClass name).map (·.id)
  | _ => none

theorem apply_of_get? (change : TreeChange) {result : Node → Tree} {node : Node}
    (asks : change.outcome tree = (tree.require id).map result)
    (found : tree.get? id = some node) : change.apply tree = result node := by
  rw [apply, asks, require, found]
  rfl

theorem apply_unknown (change : TreeChange) {result : Node → Tree}
    (asks : change.outcome tree = (tree.require id).map result)
    (unknown : tree.get? id = none) : change.apply tree = tree := by
  rw [apply, asks, require, unknown]
  rfl

/-- A change that renames a node sets its identity and does nothing else. -/
theorem apply_of_renamed? (renamed : change.renamed? tree = some id) :
    ∃ node identity, tree.get? id = some node ∧
      change.apply tree = tree.setIdentity node identity := by
  have found {other : NodeId} {node : Node} (lookup : tree.get? other = some node)
      (named : node.id = id) : tree.get? id = some node := by
    rwa [← named, id_of_get? lookup]
  cases change with
  | replaceClasses other classes =>
      rcases Option.map_eq_some_iff.mp renamed with ⟨node, lookup, named⟩
      have applied := apply_of_get? (replaceClasses other classes) rfl lookup
      exact ⟨node, _, found lookup named, applied⟩
  | replaceElementId other elementId =>
      rcases Option.map_eq_some_iff.mp renamed with ⟨node, lookup, named⟩
      have applied := apply_of_get? (replaceElementId other elementId) rfl lookup
      exact ⟨node, _, found lookup named, applied⟩
  | insertClass other name =>
      rcases Option.map_eq_some_iff.mp renamed with ⟨node, fitting, named⟩
      rcases Option.filter_eq_some_iff.mp fitting with ⟨lookup, lacks⟩
      have applied := apply_of_get? (insertClass other name) rfl lookup
      rw [if_neg (by simpa using lacks)] at applied
      exact ⟨node, _, found lookup named, applied⟩
  | eraseClass other name =>
      rcases Option.map_eq_some_iff.mp renamed with ⟨node, fitting, named⟩
      rcases Option.filter_eq_some_iff.mp fitting with ⟨lookup, has⟩
      have applied := apply_of_get? (eraseClass other name) rfl lookup
      rw [if_pos has] at applied
      exact ⟨node, _, found lookup named, applied⟩
  | _ => cases renamed

/-- A change that could rename a node and does not leaves the tree as it is. -/
theorem apply_of_not_renamed? (renames : change.renames = true)
    (idle : change.renamed? tree = none) : change.apply tree = tree := by
  cases change with
  | replaceClasses id classes =>
      exact apply_unknown (replaceClasses id classes) rfl (Option.map_eq_none_iff.mp idle)
  | replaceElementId id elementId =>
      exact apply_unknown (replaceElementId id elementId) rfl (Option.map_eq_none_iff.mp idle)
  | insertClass id name =>
      cases found : tree.get? id with
      | none => exact apply_unknown (insertClass id name) rfl found
      | some node =>
          have has : node.identity.hasClass name = true := by
            simpa [renamed?, found] using idle
          rw [apply_of_get? (insertClass id name) rfl found, if_pos has]
  | eraseClass id name =>
      cases found : tree.get? id with
      | none => exact apply_unknown (eraseClass id name) rfl found
      | some node =>
          have lacks : ¬node.identity.hasClass name = true := by
            simpa [renamed?, found] using idle
          rw [apply_of_get? (eraseClass id name) rfl found, if_neg lacks]
  | _ => cases renames

end Renaming

/-! ## Histories -/

/-- The tree after the changes of a history. -/
def replay (tree : Tree) (changes : List TreeChange) : Tree :=
  changes.foldl (fun current change => change.apply current) tree

/-- All trees that a history goes through, with the one it starts from. -/
def moments (tree : Tree) : List TreeChange → List Tree
  | [] => [tree]
  | change :: later => tree :: moments (change.apply tree) later

/-- The id that a change hands out, if it makes a node. -/
def issued? (tree : Tree) : TreeChange → Option NodeId
  | plantRoot identity => some (tree.plantRoot identity).1
  | appendChild parent identity => (tree.appendChild parent identity).toOption.map (·.1)
  | _ => none

/-- The ids that the changes of a history hand out, in order. -/
def issued (tree : Tree) : List TreeChange → List NodeId
  | [] => []
  | change :: later => (change.issued? tree).toList ++ issued (change.apply tree) later

/-- What each change of a history keeps holds at its end. -/
theorem replay_invariant {holds : Tree → Prop} {tree : Tree} {changes : List TreeChange}
    (initial : holds tree)
    (step : ∀ change ∈ changes, ∀ current, holds current → holds (change.apply current)) :
    holds (replay tree changes) := by
  induction changes generalizing tree with
  | nil => exact initial
  | cons change later ih =>
      apply ih
      · exact step change List.mem_cons_self tree initial
      · intro other member
        exact step other (List.mem_cons_of_mem _ member)

theorem wellFormed_replay {tree : Tree} (formed : tree.WellFormed) (changes : List TreeChange) :
    (replay tree changes).WellFormed :=
  replay_invariant formed fun change _ _ kept => wellFormed_apply kept change

end TreeChange

namespace Tree

/-- A history leads from a tree without nodes to the tree. -/
def Reachable (tree : Tree) : Prop :=
  ∃ first changes, tree = TreeChange.replay { nextId := first } changes

theorem Reachable.wellFormed {tree : Tree} (reachable : tree.Reachable) : tree.WellFormed := by
  rcases reachable with ⟨first, changes, rfl⟩
  exact TreeChange.wellFormed_replay (wellFormed_empty first) changes

end Tree

end WidgetStyle
