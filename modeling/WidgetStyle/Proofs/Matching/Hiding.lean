import WidgetStyle.Proofs.History.Sharing
import WidgetStyle.Proofs.Matching.Siblings

/-!
# Hidden nodes

Matching may look nodes up by id where some of them are hidden.  A hidden node ends each walk
that comes to it: nothing above a hidden parent is reached, a node with a hidden parent has no
siblings, and nothing before a hidden sibling is reached.  So a walk is the beginning of the
walk with fewer nodes hidden, and a selector that selects a node goes on selecting it.

What a search does step by step is said here with the faults it could run into, a place off
a list of children and a walk without an end.  In a well-formed tree it runs into neither.
-/

namespace WidgetStyle

/-! ## Searching with faults -/

namespace Search

/-- What can go wrong in a search. -/
inductive Fault where
  | noSuchPlace
  | outOfSteps
deriving DecidableEq, Repr

/-- The child at a place.  Before the list and behind it there is none, which is a fault. -/
def childAt (children : List NodeId) (place : Int) : Except Fault NodeId :=
  if place < 0 then .error .noSuchPlace
  else
    match children[place.toNat]? with
    | some child => .ok child
    | none => .error .noSuchPlace

/-- The sibling before a node.  The first child has none, and neither has a node whose parent
is not found. -/
def siblingBefore (lookup : NodeId → Option Node) (node : Node) : Except Fault (Option Node) :=
  match node.parent.bind lookup with
  | none => .ok none
  | some parent =>
      if node.placement.index = 0 then .ok none
      else (childAt parent.children (node.placement.index - 1)).map lookup

/-- Whether a test succeeds at a node, if there is one. -/
def anyOf (test : Node → Except Fault Bool) : Option Node → Except Fault Bool
  | none => .ok false
  | some node => test node

/-- Whether a test succeeds at one of the nodes reached by repeating a step.  Once it has, no
further step is taken. -/
def anyAlong (step : Node → Except Fault (Option Node)) (test : Node → Except Fault Bool) :
    Nat → Node → Except Fault Bool
  | 0, _ => .error .outOfSteps
  | bound + 1, node => do
      match ← step node with
      | none => return false
      | some next => if ← test next then return true else anyAlong step test bound next

/-- Whether a test succeeds at a node that can stand to the left of a combinator. -/
def anyLeftOf (lookup : NodeId → Option Node) (bound : Nat) (test : Node → Except Fault Bool)
    (combinator : Combinator) (node : Node) : Except Fault Bool :=
  match combinator with
  | .descendant => anyAlong (fun node => .ok (node.parent.bind lookup)) test bound node
  | .generalSibling => anyAlong (siblingBefore lookup) test bound node
  | .child => anyOf test (node.parent.bind lookup)
  | .adjacentSibling => do anyOf test (← siblingBefore lookup node)

end Search

namespace Selector

open Search

/-- Whether a node meets a compound and nodes are found for the links before it. -/
def searchFrom (lookup : NodeId → Option Node) (bound : Nat) (compound : Compound) :
    List Link → Node → Except Fault Bool
  | [], node => .ok (compound.holdsOf node)
  | link :: before, node =>
      if compound.holdsOf node then
        match link.combinator with
        | none => .ok false
        | some combinator =>
            anyLeftOf lookup bound (searchFrom lookup bound link.compound before) combinator node
      else .ok false

/-- Whether the selector selects the node, as a search finds out whose walks are bounded. -/
def search (selector : Selector) (lookup : NodeId → Option Node) (bound : Nat) (node : Node) :
    Except Fault Bool :=
  match selector.links.reverse with
  | [] => .ok false
  | target :: before => searchFrom lookup bound target.compound before node

end Selector

/-! ## Lookups that find less -/

namespace Surroundings

/-- What the first lookup finds, the second finds as well. -/
def Within (fewer more : NodeId → Option Node) : Prop :=
  ∀ ⦃id node⦄, fewer id = some node → more id = some node

variable {fewer more : NodeId → Option Node} {node other : Node}

theorem Within.bind (within : Within fewer more) {id : Option NodeId}
    (found : id.bind fewer = some node) : id.bind more = some node := by
  obtain ⟨known, rfl, found⟩ := Option.bind_eq_some_iff.mp found
  exact within found

theorem Within.parent? (within : Within fewer more) (reach : Nat)
    (step : (ofLookup fewer reach).parent? node = some other) :
    (ofLookup more reach).parent? node = some other :=
  within.bind step

theorem Within.previous? (within : Within fewer more) (reach : Nat)
    (step : (ofLookup fewer reach).previous? node = some other) :
    (ofLookup more reach).previous? node = some other := by
  simp only [ofLookup] at step ⊢
  cases above : node.parent.bind fewer with
  | none => rw [above] at step; cases step
  | some parent =>
      rw [above] at step
      rw [within.bind above]
      simp only at step ⊢
      split at step
      · cases step
      · rename_i later
        rw [if_neg later]
        exact within.bind step

section Walks

variable {short long : Node → Option Node}

/-- A walk whose steps another walk takes as well is the beginning of the other one. -/
theorem chain_prefix (steps : ∀ {node other}, short node = some other → long node = some other)
    (bound : Nat) (node : Node) : chain short bound node <+: chain long bound node := by
  induction bound generalizing node with
  | zero => exact List.prefix_rfl
  | succ bound ih =>
      cases step : short node with
      | none =>
          rw [chain_of_none step]
          exact List.nil_prefix
      | some other =>
          rw [chain_of_some step, chain_of_some (steps step)]
          exact List.cons_prefix_cons.mpr ⟨rfl, ih other⟩

/-- Such a walk also comes to an end where the other one does. -/
theorem Ends.shorter (steps : ∀ {node other}, short node = some other → long node = some other)
    {bound : Nat} {node : Node} (ends : Ends long bound node) : Ends short bound node := by
  induction ends with
  | @stop bound node last =>
      cases step : short node with
      | none => exact .stop step
      | some other => rw [steps step] at last; cases last
  | @next bound node other link _ ih =>
      cases step : short node with
      | none => exact .stop step
      | some next =>
          cases (steps step).symm.trans link
          exact .next step ih

theorem toList_prefix {first second : Option Node}
    (known : ∀ node, first = some node → second = some node) :
    first.toList <+: second.toList := by
  cases first with
  | none => exact List.nil_prefix
  | some node => exact known node rfl ▸ List.prefix_rfl

end Walks

/-- The candidates seen are the first ones of those that a lookup that finds more shows. -/
theorem Within.leftOf_prefix (within : Within fewer more) (reach : Nat) (combinator : Combinator)
    (node : Node) :
    (ofLookup fewer reach).leftOf combinator node <+:
      (ofLookup more reach).leftOf combinator node := by
  cases combinator with
  | descendant => exact chain_prefix (within.parent? reach) reach node
  | generalSibling => exact chain_prefix (within.previous? reach) reach node
  | child => exact toList_prefix fun _ => within.parent? reach
  | adjacentSibling => exact toList_prefix fun _ => within.previous? reach

end Surroundings

namespace Search

open Surroundings

theorem anyOf_eq {test : Node → Except Fault Bool} {verdict : Node → Bool}
    {candidate : Option Node}
    (tests : ∀ node, candidate = some node → test node = .ok (verdict node)) :
    anyOf test candidate = .ok (candidate.toList.any verdict) := by
  cases candidate with
  | none => rfl
  | some node =>
      rw [anyOf, tests node rfl]
      simp

/-- Trying a test along a walk that ends before the bound is trying it on the chain of nodes,
given that all steps and tests from known nodes are without faults. -/
theorem anyAlong_eq {step : Node → Except Fault (Option Node)} {leads : Node → Option Node}
    {test : Node → Except Fault Bool} {verdict : Node → Bool} {Known : Node → Prop}
    (steps : ∀ node, Known node → step node = .ok (leads node))
    (stays : ∀ node other, Known node → leads node = some other → Known other)
    (tests : ∀ node, Known node → test node = .ok (verdict node)) {reach bound : Nat}
    {node : Node} (ends : Ends leads reach node) (enough : reach < bound) (known : Known node) :
    anyAlong step test bound node = .ok ((chain leads reach node).any verdict) := by
  induction ends generalizing bound with
  | stop last =>
      obtain ⟨bound, rfl⟩ := Nat.exists_eq_succ_of_ne_zero (Nat.ne_zero_of_lt enough)
      rw [anyAlong, steps _ known, last, chain_of_none last]
      rfl
  | @next reach node other link _ ih =>
      obtain ⟨bound, rfl⟩ := Nat.exists_eq_succ_of_ne_zero (Nat.ne_zero_of_lt enough)
      have further := stays node other known link
      have later := ih (Nat.lt_of_succ_lt_succ enough) further
      rw [anyAlong, steps node known, link, chain_of_some link, List.any_cons]
      change (test other >>= fun found => if found then pure true else
        anyAlong step test bound other) = _
      rw [tests other further]
      cases verdict other with
      | true => rfl
      | false => exact later

end Search

namespace Selector

open Surroundings

variable {fewer more : NodeId → Option Node}

theorem matchesFrom_of_within (within : Within fewer more) (reach : Nat) {compound : Compound}
    {before : List Link} {node : Node}
    (matched : matchesFrom (.ofLookup fewer reach) compound before node = true) :
    matchesFrom (.ofLookup more reach) compound before node = true := by
  induction before generalizing compound node with
  | nil => exact matched
  | cons link before ih =>
      rw [matchesFrom, Bool.and_eq_true] at matched ⊢
      refine ⟨matched.1, ?_⟩
      have further := matched.2
      split at further
      · cases further
      · rename_i combinator _
        obtain ⟨other, candidate, later⟩ := List.any_eq_true.mp further
        have seen := (within.leftOf_prefix reach combinator node).subset candidate
        exact List.any_eq_true.mpr ⟨other, seen, ih later⟩

/-- A selector goes on selecting a node when more nodes are found. -/
theorem selects_of_within (within : Within fewer more) (reach : Nat) {selector : Selector}
    {node : Node} (selected : selector.selects (.ofLookup fewer reach) node = true) :
    selector.selects (.ofLookup more reach) node = true := by
  rw [selects] at selected ⊢
  split at selected
  · cases selected
  · exact matchesFrom_of_within within reach selected

end Selector

/-! ## Searching in a well-formed tree -/

namespace Tree.FormedBy

open Surroundings Search

variable {birth : NodeId → Int} {tree : Tree} {lookup : NodeId → Option Node} {id : NodeId}
  {node : Node}

theorem ends_ofLookup (formed : tree.FormedBy birth) (within : Within lookup tree.get?)
    (found : tree.get? id = some node) :
    Ends (ofLookup lookup tree.size).parent? tree.size node ∧
      Ends (ofLookup lookup tree.size).previous? tree.size node := by
  have ends := formed.ends_surroundings found
  exact ⟨ends.1.shorter (within.parent? tree.size),
    ends.2.shorter (within.previous? tree.size)⟩

/-- The place before a node is on the list of children of its parent. -/
theorem siblingBefore_eq (formed : tree.FormedBy birth) (within : Within lookup tree.get?)
    (found : tree.get? id = some node) :
    siblingBefore lookup node = .ok ((ofLookup lookup tree.size).previous? node) := by
  simp only [siblingBefore, ofLookup]
  cases above : node.parent.bind lookup with
  | none => rfl
  | some parent =>
      obtain ⟨parentId, link, lookedUp⟩ := Option.bind_eq_some_iff.mp above
      rw [← parentId?_of_get? found] at link
      obtain ⟨place, listed⟩ := formed.exists_place link
      have index : node.placement.index = place := by
        rw [formed.placed listed found]
        rfl
      rw [childrenOf_of_get? (within lookedUp)] at listed
      have inside := (List.getElem?_eq_some_iff.mp listed).1
      simp only [index]
      split
      · rfl
      · have before : ((place : Int) - 1).toNat = place - 1 := by omega
        have onList := List.getElem?_eq_getElem (show place - 1 < parent.children.length by omega)
        rw [childAt, if_neg (by omega), before, onList]
        rfl

/-- A search among the nodes that can stand to the left of a combinator comes to an answer. -/
theorem anyLeftOf_eq (formed : tree.FormedBy birth) (within : Within lookup tree.get?)
    {bound : Nat} (enough : tree.size < bound) {test : Node → Except Fault Bool}
    {verdict : Node → Bool}
    (tests : ∀ other, tree.get? other.id = some other → test other = .ok (verdict other))
    (combinator : Combinator) (found : tree.get? node.id = some node) :
    anyLeftOf lookup bound test combinator node =
      .ok (((ofLookup lookup tree.size).leftOf combinator node).any verdict) := by
  have ends := formed.ends_ofLookup within found
  have above {node other : Node} (found : tree.get? node.id = some node)
      (step : (ofLookup lookup tree.size).parent? node = some other) :
      tree.get? other.id = some other :=
    ((parent?_eq_some_iff found).mp (within.parent? tree.size step)).1
  have before {node other : Node} (step : (ofLookup lookup tree.size).previous? node = some other) :
      tree.get? other.id = some other :=
    get?_of_previous? (within.previous? tree.size step)
  cases combinator with
  | descendant =>
      exact anyAlong_eq (fun _ _ => rfl) (fun _ _ found step => above found step) tests ends.1
        enough found
  | generalSibling =>
      exact anyAlong_eq (fun _ found => formed.siblingBefore_eq within found)
        (fun _ _ _ step => before step) tests ends.2 enough found
  | child => exact anyOf_eq fun other step => tests other (above found step)
  | adjacentSibling =>
      rw [anyLeftOf, formed.siblingBefore_eq within found]
      exact anyOf_eq fun other step => tests other (before step)

theorem searchFrom_eq (formed : tree.FormedBy birth) (within : Within lookup tree.get?)
    {bound : Nat} (enough : tree.size < bound) (compound : Compound) (before : List Link)
    (found : tree.get? node.id = some node) :
    Selector.searchFrom lookup bound compound before node =
      .ok (Selector.matchesFrom (.ofLookup lookup tree.size) compound before node) := by
  induction before generalizing compound node with
  | nil => rfl
  | cons link before ih =>
      rw [Selector.searchFrom, Selector.matchesFrom]
      cases compound.holdsOf node with
      | false => rfl
      | true =>
          cases link.combinator with
          | none => rfl
          | some combinator =>
              exact formed.anyLeftOf_eq within enough (fun other known => ih link.compound known)
                combinator found

/-- In a well-formed tree a search comes to the answer that matching gives. -/
theorem search_eq (formed : tree.FormedBy birth) (within : Within lookup tree.get?)
    {bound : Nat} (enough : tree.size < bound) (selector : Selector)
    (found : tree.get? node.id = some node) :
    selector.search lookup bound node =
      .ok (selector.selects (.ofLookup lookup tree.size) node) := by
  rw [Selector.search, Selector.selects]
  cases selector.links.reverse with
  | nil => rfl
  | cons target before => exact formed.searchFrom_eq within enough target.compound before found

end Tree.FormedBy

/-! ## Hiding nodes of a tree -/

namespace Tree

open Surroundings

variable {tree : Tree} {id : NodeId} {node : Node}

/-- The nodes of the tree by their ids, some of them hidden. -/
def lookupWithout (tree : Tree) (hidden : NodeId → Bool) (id : NodeId) : Option Node :=
  if hidden id then none else tree.get? id

theorem surroundingsWithout_eq (tree : Tree) (hidden : List NodeId) :
    tree.surroundingsWithout hidden = .ofLookup (tree.lookupWithout hidden.contains) tree.size :=
  rfl

theorem within_lookupWithout {hidden fewer : NodeId → Bool}
    (hides : ∀ id, fewer id = true → hidden id = true) :
    Within (tree.lookupWithout hidden) (tree.lookupWithout fewer) := by
  intro id node found
  rw [lookupWithout] at found ⊢
  split at found
  · cases found
  · rename_i shown
    rwa [if_neg fun same => shown (hides id same)]

theorem within_get? (hidden : NodeId → Bool) : Within (tree.lookupWithout hidden) tree.get? := by
  have all : tree.get? = tree.lookupWithout fun _ => false := rfl
  rw [all]
  exact within_lookupWithout fun _ hides => nomatch hides

/-- With any nodes of a reachable tree hidden, whose nodes have states of their own, a search
comes to an answer and meets no fault.  A node that it selects it selects with fewer nodes hidden as well, and with none. -/
theorem Reachable.search_without_eq_and_selects_mono (reachable : tree.Reachable)
    (found : tree.get? id = some node) (selector : Selector) (hidden : NodeId → Bool) :
    (∀ bound, tree.size < bound →
        selector.search (tree.lookupWithout hidden) bound node =
          .ok (selector.selects (.ofLookup (tree.lookupWithout hidden) tree.size) node)) ∧
      (selector.selects (.ofLookup (tree.lookupWithout hidden) tree.size) node = true →
        (∀ fewer : NodeId → Bool, (∀ id, fewer id = true → hidden id = true) →
            selector.selects (.ofLookup (tree.lookupWithout fewer) tree.size) node = true) ∧
          selector.selects (.ofLookup tree.get? tree.size) node = true) := by
  have known : tree.get? node.id = some node := by grind
  constructor
  · intro bound enough
    exact reachable.wellFormed.search_eq (within_get? hidden) enough selector known
  · intro selected
    constructor
    · intro fewer hides
      exact Selector.selects_of_within (within_lookupWithout hides) tree.size selected
    · exact Selector.selects_of_within (within_get? hidden) tree.size selected

/-- Four items in a box. -/
def items : Tree :=
  TreeChange.replay { nextId := ⟨1⟩ }
    [ .plantRoot { classes := ["box"] }, .appendChild ⟨1⟩ {},
      .appendChild ⟨1⟩ { classes := ["mark"] }, .appendChild ⟨1⟩ {}, .appendChild ⟨1⟩ {} ]

/-- Anything behind a mark in a box. -/
def behindMark : Selector :=
  ((Selector.ofCompound { classes := ["box"] }).child { classes := ["mark"] }).joined
    .generalSibling { universal := true }

/-- The last item is selected with the first one hidden, and not with the third one hidden,
which lies between it and the mark. -/
theorem items_hidden :
    items.Reachable ∧ ∃ node, items.get? ⟨5⟩ = some node ∧ items.size < 6 ∧
      behindMark.search (items.lookupWithout [⟨2⟩].contains) 6 node = .ok true ∧
      behindMark.selects (items.surroundingsWithout []) node = true ∧
      behindMark.selects (.ofLookup items.get? items.size) node = true ∧
      behindMark.selects (items.surroundingsWithout [⟨4⟩]) node = false := by
  have reachable : items.Reachable := ⟨_, _, rfl⟩
  have small : items.size < 6 := by decide +kernel
  let last : Node :=
    { id := ⟨5⟩, identity := {}, flags := { dirty := true }, placement := .ofIndex 3 4,
      parent := some ⟨1⟩ }
  have found : items.get? ⟨5⟩ = some last := by decide +kernel
  have selected : behindMark.selects (items.surroundingsWithout [⟨2⟩]) last = true := by
    decide +kernel
  rw [surroundingsWithout_eq] at selected
  have sound := reachable.search_without_eq_and_selects_mono found behindMark [⟨2⟩].contains
  have answer := sound.1 6 small
  rw [selected] at answer
  have fewer := sound.2 selected
  have shown := fewer.1 [].contains fun _ hides => nomatch hides
  exact ⟨reachable, last, found, small, answer, shown, fewer.2, by decide +kernel⟩

end Tree

namespace SharedTree

open Search

/-- Three rows, and in the first one a cell whose state is given to the third row. -/
def strayCell : SharedTree :=
  replay { tree := { nextId := ⟨1⟩ } }
    [ .change (.plantRoot { widgetType := "App" }),
      .change (.appendChild ⟨1⟩ { widgetType := "Row" }),
      .change (.appendChild ⟨1⟩ { widgetType := "Row" }),
      .change (.appendChild ⟨1⟩ { widgetType := "Row" }),
      .change (.appendChild ⟨2⟩ { widgetType := "Cell" }),
      .shareState ⟨4⟩ ⟨5⟩ ]

/-- Anything right behind anything. -/
def rightBehind : Selector :=
  (Selector.ofCompound { universal := true }).joined .adjacentSibling { universal := true }

/-- The cell has the place of the third row, and the list it stands in is not that long. -/
theorem strayCell_faulty :
    ∃ cell, strayCell.tree.get? ⟨5⟩ = some cell ∧ ∀ bound,
      rightBehind.search (strayCell.tree.snapshot.lookupWithout fun _ => false) bound cell =
        .error .noSuchPlace := by
  have missing : (strayCell.tree.get? ⟨5⟩).map
      (siblingBefore (strayCell.tree.snapshot.lookupWithout fun _ => false)) =
        some (.error .noSuchPlace) := by
    decide +kernel
  rcases Option.map_eq_some_iff.mp missing with ⟨cell, found, faulty⟩
  refine ⟨cell, found, ?_⟩
  intro bound
  change (siblingBefore (strayCell.tree.snapshot.lookupWithout fun _ => false) cell >>=
    anyOf _) = _
  rw [faulty]
  rfl

end SharedTree

end WidgetStyle
