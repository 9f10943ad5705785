import WidgetStyle.Proofs.History.Shape

/-!
# The place of the root

A root has no siblings.  A new one is not placed, and of what may be done to it afterwards only
one thing touches its placement: when its state is replaced, the placement is derived anew from
index zero of none, which makes it the first and the last one.  So the pseudo-classes that ask
for a place hold of a root in three cases at most.  It is always the child with number one,
because its index is zero, and once its state was replaced it is the first and the last child.
-/

namespace WidgetStyle

/-! ## Placements of a root -/

/-- The pseudo-classes that ask for a place among siblings, counted from one. -/
inductive PseudoClass.AsksPlace : PseudoClass → Prop where
  | firstChild : AsksPlace (.state .firstChild)
  | lastChild : AsksPlace (.state .lastChild)
  | onlyChild : AsksPlace (.state .onlyChild)
  | nthChild {place : Int} : 1 ≤ place → AsksPlace (.nthChild (some place))
  | nthLastChild {place : Int} : 1 ≤ place → AsksPlace (.nthLastChild (some place))

/-- The placement derived anew from its index and its total. -/
def Placement.renew (placement : Placement) : Placement :=
  .ofIndex placement.index placement.total

/-- A placement at index zero of none, first and last if it was derived from that. -/
structure Placement.OfRoot (placement : Placement) (derived : Prop) : Prop where
  index : placement.index = 0
  total : placement.total = 0
  isFirst : placement.isFirst = true ↔ derived
  isLast : placement.isLast = true ↔ derived
  isOnly : placement.isOnly = false

section Placement

variable {placement : Placement} {derived now : Prop}

theorem Placement.OfRoot.unplaced (never : ¬derived) : Placement.OfRoot {} derived := by
  constructor <;> simp [never]

theorem Placement.OfRoot.renew (placed : placement.OfRoot derived) (yes : now) :
    placement.renew.OfRoot now := by
  rw [Placement.renew, placed.index, placed.total]
  constructor
  case index => rfl
  case total => rfl
  case isFirst => exact iff_of_true (by decide) yes
  case isLast => exact iff_of_true (by decide) yes
  case isOnly => decide

theorem PseudoClass.AsksPlace.holdsOf_iff {pseudoClass : PseudoClass} (asks : pseudoClass.AsksPlace)
    {node : Node} (placed : node.placement.OfRoot derived) :
    pseudoClass.holdsOf node = true ↔
      pseudoClass = .nthChild (some 1) ∨
        (pseudoClass = .state .firstChild ∨ pseudoClass = .state .lastChild) ∧ derived := by
  cases asks with
  | firstChild => simp [holdsOf, StateClass.holdsOf, placed.isFirst]
  | lastChild => simp [holdsOf, StateClass.holdsOf, placed.isLast]
  | onlyChild => simp [holdsOf, StateClass.holdsOf, placed.isOnly]
  | nthChild counted => simp [holdsOf, placed.index]
  | nthLastChild counted =>
      simp only [holdsOf, placed.index, placed.total, beq_iff_eq, Option.some.injEq, reduceCtorEq,
        or_self, false_and, iff_false]
      omega

end Placement

namespace Tree

variable {before middle after tree : Tree} {id root : NodeId}

/-! ## Changes that keep placements -/

/-- The placement of the node with the given id. -/
def placementOf? (tree : Tree) (id : NodeId) : Option Placement :=
  (tree.get? id).map (·.placement)

/-- Every node has the placement it had. -/
def SamePlaces (before after : Tree) : Prop :=
  after.placementOf? = before.placementOf?

theorem SamePlaces.refl (tree : Tree) : SamePlaces tree tree :=
  rfl

theorem SamePlaces.trans (first : SamePlaces before middle) (second : SamePlaces middle after) :
    SamePlaces before after :=
  Eq.trans second first

theorem SamePlaces.foldl {Item : Type} {step : Tree → Item → Tree}
    (each : ∀ tree item, SamePlaces tree (step tree item)) (tree : Tree) (items : List Item) :
    SamePlaces tree (items.foldl step tree) := by
  induction items generalizing tree with
  | nil => exact .refl tree
  | cons item later ih => exact (each tree item).trans (ih _)

theorem SameOutline.samePlaces (same : SameOutline before after) : SamePlaces before after := by
  funext id
  have outlines := congrArg (Option.map (·.placement)) (same.get? id)
  rw [Option.map_map, Option.map_map] at outlines
  exact outlines.symm

theorem samePlaces_modify (tree : Tree) (id : NodeId) (change : Node → Node)
    (keepsId : ∀ node, (change node).id = node.id)
    (keepsPlace : ∀ node, (change node).placement = node.placement) :
    SamePlaces tree (tree.modify id change) := by
  funext other
  rw [placementOf?, placementOf?, get?_modify tree id other change keepsId]
  split
  · rename_i same
    simp [same, Function.comp_def, keepsPlace]
  · rfl

/-- A change of one node with all that it makes dirty. -/
theorem samePlaces_changed (tree : Tree) (id : NodeId) (change : Node → Node)
    (keepsId : ∀ node, (change node).id = node.id)
    (keepsPlace : ∀ node, (change node).placement = node.placement) :
    SamePlaces tree ((tree.modify id change).dirtyDependents id) :=
  (samePlaces_modify tree id change keepsId keepsPlace).trans
    (sameOutline_dirtyDependents _ id).samePlaces

theorem samePlaces_setIdentity (tree : Tree) (node : Node) (identity : Identity) :
    SamePlaces tree (tree.setIdentity node identity) := by
  have modified := samePlaces_modify tree node.id (fun node => { node with identity })
    (fun _ => rfl) fun _ => rfl
  rw [setIdentity]
  exact modified.trans (sameOutline_dirtyDependents _ node.id).samePlaces

theorem samePlaces_turnFlag (tree : Tree) (flag : Flag) (value : Bool) (id : NodeId) :
    SamePlaces tree (tree.turnFlag flag value id) := by
  rw [turnFlag]
  split
  · split
    · exact .refl tree
    · exact samePlaces_changed tree id _ (fun _ => rfl) fun _ => rfl
  · exact .refl tree

theorem samePlaces_giveFlag (tree : Tree) (flag : Flag) (owner : Option NodeId) :
    SamePlaces tree (tree.giveFlag flag owner) := by
  have cleared := SamePlaces.foldl (samePlaces_turnFlag · flag false) tree
  cases owner with
  | none => exact cleared _
  | some id => exact (cleared _).trans (samePlaces_turnFlag _ flag true id)

/-- Without a parent the placement of a node is part of its core. -/
theorem placementOf?_of_core?_eq (same : after.core? id = before.core? id)
    (parentless : before.parentId? id = none) : after.placementOf? id = before.placementOf? id := by
  have parents := parentId?_eq_of_core?_eq same
  rw [core?, core?] at same
  rw [placementOf?, placementOf?]
  cases lookup : before.get? id with
  | none =>
      rw [lookup, Option.map_none, Option.map_eq_none_iff] at same
      rw [same]
  | some node =>
      rw [lookup, Option.map_some] at same
      rcases Option.map_eq_some_iff.mp same with ⟨other, found, cores⟩
      rw [parentId?_of_get? lookup] at parentless
      rw [parentId?_of_get? found, parentId?_of_get? lookup, parentless] at parents
      have placements := congrArg (·.placement) cores
      simp only [Node.core, Node.unplaced, Node.face, Node.outline, parentless, parents,
        Option.isNone_none, if_true] at placements
      rw [found, Option.map_some, Option.map_some, placements]

/-! ## The root through a change -/

/-- The node is the root, as it was before, and has the placement it had. -/
structure KeepsRoot (before after : Tree) (root : NodeId) : Prop where
  rooted : before.root = some root
  placement : after.placementOf? root = before.placementOf? root

theorem SamePlaces.keepsRoot (same : SamePlaces before after) (roots : after.root = before.root)
    (rooted : after.root = some root) : KeepsRoot before after root :=
  ⟨roots.symm.trans rooted, congrFun same root⟩

/-- A root with the core it had was the root. -/
theorem WellFormed.keepsRoot_of_core?_eq (formed : before.WellFormed) (formedAfter : after.WellFormed)
    (same : after.core? root = before.core? root) (rooted : after.root = some root) :
    KeepsRoot before after root := by
  have found := formedAfter.rootFound rooted
  rw [contains_eq_of_core?_eq same, parentId?_eq_of_core?_eq same] at found
  exact ⟨formed.rootOnly found.1 found.2, placementOf?_of_core?_eq same found.2⟩

end Tree

namespace TreeChange

open WidgetStyle.Tree

variable {tree : Tree} {change : TreeChange} {id root : NodeId}

/-- The node whose state a change replaces. -/
def replaced? (tree : Tree) : TreeChange → Option NodeId
  | replaceFlags id _ => (tree.get? id).map (·.id)
  | _ => none

/-- The nodes whose states the changes of a history replace, in order. -/
def replaced (tree : Tree) : List TreeChange → List NodeId
  | [] => []
  | change :: later => (change.replaced? tree).toList ++ replaced (change.apply tree) later

theorem exists_of_replaced? (replaced : change.replaced? tree = some id) :
    ∃ flags, change = .replaceFlags id flags ∧ tree.contains id = true := by
  cases change with
  | replaceFlags other flags =>
      rcases Option.map_eq_some_iff.mp replaced with ⟨node, found, named⟩
      rw [id_of_get? found] at named
      subst named
      exact ⟨flags, rfl, contains_of_get? found⟩
  | _ => cases replaced

theorem placementOf?_replaceFlags (flags : Flags) (known : tree.contains id = true)
    (other : NodeId) :
    ((replaceFlags id flags).apply tree).placementOf? other =
      if other = id then (tree.placementOf? id).map Placement.renew
      else tree.placementOf? other := by
  rcases contains_iff.mp known with ⟨node, found⟩
  let reset (holder : Node) : Node := { holder with flags, placement := node.placement.renew }
  have applied : (replaceFlags id flags).apply tree = (tree.modify id reset).dirtyDependents id :=
    apply_of_get? (replaceFlags id flags) rfl found
  have marked := (sameOutline_dirtyDependents (tree.modify id reset) id).samePlaces
  have modified := get?_modify tree id other reset fun _ => rfl
  rw [applied, marked, placementOf?, modified]
  split
  · rw [placementOf?, found]
    rfl
  · rfl

/-- Of the changes of state and style only the replacing of a state touches placements. -/
theorem samePlaces_apply (restyles : change.restyles = true) (quiet : change.replaced? tree = none) :
    SamePlaces tree (change.apply tree) := by
  apply apply_of_outcome (.refl tree)
  intro after done
  cases change with
  | replaceInlineStyle id style =>
      rcases require_map_eq_ok done with ⟨node, -, rfl⟩
      have styled := samePlaces_modify tree id (fun node => { node with inlineStyle := style })
        (fun _ => rfl) fun _ => rfl
      exact styled.trans (sameOutline_dirtySubtree _ id).samePlaces
  | writeFlags id changes =>
      simp only [outcome, Tree.writeFlags] at done
      split at done
      · cases done
      · rcases require_map_eq_ok done with ⟨node, -, rfl⟩
        exact samePlaces_changed tree id _ (fun _ => rfl) fun _ => rfl
  | replaceFlags id flags =>
      rcases require_map_eq_ok done with ⟨node, found, rfl⟩
      simp [replaced?, found] at quiet
  | dirtySubtree id =>
      cases done
      exact (sameOutline_dirtySubtree tree id).samePlaces
  | cleanAll =>
      cases done
      exact (sameOutline_cleanAll tree).samePlaces
  | giveFocus owner =>
      cases done
      exact samePlaces_giveFlag tree .focused owner
  | giveHover owner =>
      cases done
      exact samePlaces_giveFlag tree .hovered owner
  | _ => cases restyles

/-- Where the root after a change comes from, and where its placement does. -/
inductive RootFrom (tree after : Tree) (root : NodeId) (change : TreeChange) : Prop where
  | planted : root = tree.nextId → after.placementOf? root = some {} →
      RootFrom tree after root change
  | derived : change.replaced? tree = some root → tree.root = some root →
      after.placementOf? root = (tree.placementOf? root).map Placement.renew →
        RootFrom tree after root change
  | kept : change.replaced? tree ≠ some root → KeepsRoot tree after root →
      RootFrom tree after root change

theorem rootFrom_of_samePlaces {after : Tree} (quiet : change.replaced? tree = none)
    (places : SamePlaces tree after) (roots : after.root = tree.root)
    (rooted : after.root = some root) : RootFrom tree after root change :=
  .kept (by simp [quiet]) (places.keepsRoot roots rooted)

theorem rootFrom_of_restyles (restyles : change.restyles = true)
    (rooted : (change.apply tree).root = some root) :
    RootFrom tree (change.apply tree) root change := by
  have roots := (restyled_apply restyles tree).links.root
  cases replacing : change.replaced? tree with
  | none =>
      have places := samePlaces_apply restyles replacing
      exact rootFrom_of_samePlaces replacing places roots.symm rooted
  | some id =>
      rcases exists_of_replaced? replacing with ⟨flags, rfl, known⟩
      have placements := placementOf?_replaceFlags flags known root
      by_cases own : id = root
      · subst own
        rw [if_pos rfl] at placements
        exact .derived replacing (roots.trans rooted) placements
      · rw [if_neg (Ne.symm own)] at placements
        exact .kept (by simpa [replacing] using own) ⟨roots.trans rooted, placements⟩

theorem rootFrom_of_renames (renames : change.renames = true)
    (rooted : (change.apply tree).root = some root) :
    RootFrom tree (change.apply tree) root change := by
  have quiet : change.replaced? tree = none := by
    cases change <;> first | rfl | cases renames
  cases renamed : change.renamed? tree with
  | none =>
      rw [apply_of_not_renamed? renames renamed] at rooted ⊢
      exact rootFrom_of_samePlaces quiet (.refl tree) rfl rooted
  | some id =>
      rcases apply_of_renamed? renamed with ⟨node, identity, -, applied⟩
      rw [applied] at rooted ⊢
      have places := samePlaces_setIdentity tree node identity
      have roots := (sameLinks_setIdentity tree node identity).root
      exact rootFrom_of_samePlaces quiet places roots.symm rooted

/-- A change of the nodes or of their links plants a root or keeps the one there is. -/
theorem rootFrom_of_outcome (formed : tree.WellFormed) (moves : ¬change.restyles = true)
    (leaves : ¬change.renames = true) {after : Tree} (formedAfter : after.WellFormed)
    (rooted : after.root = some root) (done : change.outcome tree = .ok after) :
    RootFrom tree after root change := by
  have kept (quiet : change.replaced? tree = none) (core : after.core? root = tree.core? root) :
      RootFrom tree after root change :=
    .kept (by simp [quiet]) (formed.keepsRoot_of_core?_eq formedAfter core rooted)
  cases change with
  | plantRoot identity =>
      cases done
      rcases formed.plantRoot_eq identity with ⟨registry, planted⟩
      rw [planted] at rooted ⊢
      cases rooted
      exact .planted rfl (by simp [placementOf?, get?, newNode])
  | appendChild parent identity =>
      rcases exists_of_map_eq_ok done with ⟨pair, added, same⟩
      cases same
      have core := (formed.appended added).core root
      have other : root ≠ pair.1 := by
        intro same
        have parentless := (formedAfter.rootFound rooted).2
        rw [parentId?_eq_core?, core, if_pos same] at parentless
        cases parentless
      rw [if_neg other] at core
      exact kept rfl core
  | removeSubtree id =>
      cases done
      apply kept rfl
      cases found : tree.get? id with
      | none => rw [removeSubtree_unknown found]
      | some node =>
          have known := contains_of_get? found
          apply formed.core?_removeSubtree known
          intro below
          have present := (formedAfter.rootFound rooted).1
          simp [contains, (formed.removed known).dropped below] at present
  | permuteChildren parent order => exact kept rfl ((formed.permuted done).core root)
  | _ =>
      first
      | exact absurd rfl moves
      | exact absurd rfl leaves

theorem rootFrom_apply (formed : tree.WellFormed) (rooted : (change.apply tree).root = some root) :
    RootFrom tree (change.apply tree) root change := by
  by_cases restyles : change.restyles = true
  · exact rootFrom_of_restyles restyles rooted
  · by_cases renames : change.renames = true
    · exact rootFrom_of_renames renames rooted
    · have formedAfter := wellFormed_apply formed change
      cases done : change.outcome tree with
      | error error =>
          have same : change.apply tree = tree := by rw [apply, done]
          have quiet : change.replaced? tree = none := by
            cases change <;> first | rfl | exact absurd rfl restyles
          rw [same] at rooted ⊢
          exact rootFrom_of_samePlaces quiet (.refl tree) rfl rooted
      | ok after =>
          have same : change.apply tree = after := by rw [apply, done]
          rw [same] at rooted formedAfter ⊢
          exact rootFrom_of_outcome formed restyles renames formedAfter rooted done

/-! ## The root through a history -/

/-- The placement of the root was derived if its state was among those that were replaced, and
no later node can be mistaken for one of these. -/
structure RootPlaced (tree : Tree) (done : List NodeId) : Prop where
  older : ∀ id ∈ done, id.value < tree.nextId.value
  placed : ∀ {root : NodeId}, tree.root = some root →
    ∃ placement, tree.placementOf? root = some placement ∧ placement.OfRoot (root ∈ done)

theorem rootPlaced_apply (formed : tree.WellFormed) {done : List NodeId}
    (placed : RootPlaced tree done) (change : TreeChange) :
    RootPlaced (change.apply tree) (done ++ (change.replaced? tree).toList) := by
  have older : ∀ id ∈ done ++ (change.replaced? tree).toList, id.value < tree.nextId.value := by
    intro id member
    rw [List.mem_append, Option.mem_toList] at member
    rcases member with earlier | now
    · exact placed.older id earlier
    · rcases exists_of_replaced? now with ⟨flags, -, known⟩
      exact formed.beforeNext known
  constructor
  case older =>
    intro id member
    exact Int.lt_of_lt_of_le (older id member) (nextId_le_apply formed change)
  case placed =>
    intro root rooted
    cases rootFrom_apply formed rooted with
    | planted new unplaced =>
        -- Whatever had its state replaced has an older id than the new root.
        have never : root ∉ done ++ (change.replaced? tree).toList := by
          intro member
          have before := older root member
          rw [new] at before
          exact Int.lt_irrefl _ before
        exact ⟨{}, unplaced, .unplaced never⟩
    | derived replacing was after =>
        rcases placed.placed was with ⟨placement, found, ofRoot⟩
        rw [found] at after
        refine ⟨placement.renew, after, ofRoot.renew ?_⟩
        simp [replacing]
    | kept other keeps =>
        rcases placed.placed keeps.rooted with ⟨placement, found, ofRoot⟩
        refine ⟨placement, keeps.placement.trans found, ?_⟩
        have same : root ∈ done ++ (change.replaced? tree).toList ↔ root ∈ done := by
          simp [other]
        rwa [same]

theorem rootPlaced_replay (formed : tree.WellFormed) {done : List NodeId}
    (placed : RootPlaced tree done) (changes : List TreeChange) :
    RootPlaced (replay tree changes) (done ++ replaced tree changes) := by
  induction changes generalizing tree done with
  | nil => simpa [replay, replaced] using placed
  | cons change later ih =>
      have next := ih (wellFormed_apply formed change) (rootPlaced_apply formed placed change)
      rw [replaced, ← List.append_assoc]
      exact next

/-- At the end of any history in which every node has a state of its own the root is the child
with number one, and it is the first and the last child exactly if its state was ever replaced.
Nothing else that asks for a place holds of it. -/
theorem asksPlace_replay_iff (first : NodeId) (changes : List TreeChange)
    (rooted : (replay { nextId := first } changes).root = some root) {pseudoClass : PseudoClass}
    (asks : pseudoClass.AsksPlace) :
    ∃ node, (replay { nextId := first } changes).get? root = some node ∧
      (pseudoClass.holdsOf node = true ↔
        pseudoClass = .nthChild (some 1) ∨
          (pseudoClass = .state .firstChild ∨ pseudoClass = .state .lastChild) ∧
            root ∈ replaced { nextId := first } changes) := by
  have nothing : RootPlaced { nextId := first } [] := by
    constructor
    · simp
    · intro root rooted
      cases rooted
  have placed := rootPlaced_replay (wellFormed_empty first) nothing changes
  rcases placed.placed rooted with ⟨placement, found, ofRoot⟩
  rcases Option.map_eq_some_iff.mp found with ⟨node, lookup, rfl⟩
  exact ⟨node, lookup, asks.holdsOf_iff ofRoot⟩

/-- A root whose state is replaced once. -/
def resetRoot : List TreeChange :=
  [.plantRoot { widgetType := "App" }, .replaceFlags ⟨1⟩ { focused := true }]

theorem resetRoot_last :
    replaced { nextId := ⟨1⟩ } resetRoot = [⟨1⟩] ∧
      ∃ node, (replay { nextId := ⟨1⟩ } resetRoot).get? ⟨1⟩ = some node ∧
        (PseudoClass.state .lastChild).holdsOf node = true := by
  have rooted : (replay { nextId := ⟨1⟩ } resetRoot).root = some ⟨1⟩ := rfl
  have once : replaced { nextId := ⟨1⟩ } resetRoot = [⟨1⟩] := rfl
  rcases asksPlace_replay_iff ⟨1⟩ resetRoot rooted .lastChild with ⟨node, found, holds⟩
  refine ⟨once, node, found, holds.mpr (.inr ⟨.inr rfl, ?_⟩)⟩
  simp [once]

/-- A root that was only just planted is the child with number one, and the same root is the
first child besides when its state is replaced. -/
theorem plantedRoot_numberOne :
    (replay { nextId := ⟨1⟩ } (resetRoot.take 1)).root = some ⟨1⟩ ∧
      ((replay { nextId := ⟨1⟩ } (resetRoot.take 1)).get? ⟨1⟩).map
        (PseudoClass.nthChild (some 1)).holdsOf = some true ∧
      (replay { nextId := ⟨1⟩ } resetRoot).root = some ⟨1⟩ ∧
      ((replay { nextId := ⟨1⟩ } resetRoot).get? ⟨1⟩).map
        (PseudoClass.state .firstChild).holdsOf = some true := by
  decide +kernel

end TreeChange

/-- A root that is given the state of its child, which is the first of two children then. -/
def SharedTree.crowdedRoot : SharedTree :=
  replay { tree := { nextId := ⟨1⟩ } }
    [ .change (.plantRoot { widgetType := "App" }),
      .change (.appendChild ⟨1⟩ { widgetType := "Row" }),
      .shareState ⟨1⟩ ⟨2⟩,
      .change (.appendChild ⟨1⟩ { widgetType := "Row" }) ]

/-- A root that holds the state of a child has the place of the child. -/
theorem SharedTree.crowdedRoot_lastButOne :
    crowdedRoot.tree.root = some ⟨1⟩ ∧
      (crowdedRoot.tree.get? ⟨1⟩).map (PseudoClass.nthLastChild (some 2)).holdsOf = some true := by
  decide +kernel

end WidgetStyle
