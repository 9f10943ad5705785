import Mathlib.Data.List.Chain
import WidgetStyle.Matching.Selector
import WidgetStyle.Proofs.History.Sharing
import WidgetStyle.Proofs.Matching.Siblings

/-!
# What selectors mean

A selector selects a node when one node can be chosen for each of its compounds, the
selected node for the last one, so that each meets its compound and neighbours stand
to each other as the combinator between them says.  How they stand is read from
parents and lists of children only.  Matching walks backwards from the node, tries
what it meets nearest first, and finds such a choice whenever there is one.
-/

namespace WidgetStyle

namespace Tree

open Surroundings

variable {tree : Tree} {id : NodeId} {node : Node}

/-! ## Where nodes stand -/

/-- The first node stands to the second one as the left side of the combinator stands
to its right side. -/
def StandsLeft (tree : Tree) : Combinator → NodeId → NodeId → Prop
  | .descendant, left, right => tree.StrictlyBelow left right
  | .child, left, right => tree.parentId? right = some left
  | .adjacentSibling, left, right =>
      ∃ parent, ∃ place : Nat, (tree.childrenOf parent)[place]? = some left ∧
        (tree.childrenOf parent)[place + 1]? = some right
  | .generalSibling, left, right =>
      ∃ parent, ∃ earlier later : Nat, earlier < later ∧
        (tree.childrenOf parent)[earlier]? = some left ∧
        (tree.childrenOf parent)[later]? = some right

/-- From each node of the tree the surroundings lead to the nodes that stand left of
it, and to no others. -/
def IsShownBy (tree : Tree) (surroundings : Surroundings) : Prop :=
  ∀ {id : NodeId} {node : Node} (combinator : Combinator) (other : Node),
    tree.get? id = some node →
      (other ∈ surroundings.leftOf combinator node ↔
        tree.get? other.id = some other ∧ tree.StandsLeft combinator other.id id)

namespace WellFormed

/-- The chain of siblings before a node is the list of children up to the node, read
backwards. -/
theorem chain_previous?_eq (formed : tree.WellFormed) {parent : NodeId} {place reach : Nat}
    (listed : (tree.childrenOf parent)[place]? = some id) (found : tree.get? id = some node)
    (enough : place ≤ reach) :
    chain tree.previous? reach node =
      ((tree.childrenOf parent).take place).reverse.filterMap tree.get? := by
  induction place generalizing id node reach with
  | zero =>
      apply chain_of_none
      rw [formed.previous?_of_listed listed found, if_pos rfl]
  | succ place ih =>
      rcases formed.exists_previous? listed found with
        ⟨sibling, before, listedBefore, beforeFound, step⟩
      cases reach with
      | zero => cases enough
      | succ reach =>
          rw [chain_of_some step, ih listedBefore beforeFound (Nat.le_of_succ_le_succ enough),
            List.take_add_one, listedBefore, Option.toList_some, List.reverse_concat,
            List.filterMap_cons_some beforeFound]

theorem mem_chain_previous?_iff (formed : tree.WellFormed) {reach : Nat}
    (found : tree.get? id = some node) (enough : tree.size ≤ reach) {other : Node} :
    other ∈ chain tree.previous? reach node ↔
      tree.get? other.id = some other ∧ tree.StandsLeft .generalSibling other.id id := by
  cases link : tree.parentId? id with
  | none =>
      have last : tree.previous? node = none := by
        rw [previous?_eq found, FormedBy.previousId?_root link]
        rfl
      rw [chain_of_none last]
      constructor
      · intro member
        cases member
      · rintro ⟨-, parent, earlier, later, -, -, listed⟩
        rw [formed.childOf.mp (List.mem_of_getElem? listed)] at link
        cases link
  | some parent =>
      rcases formed.exists_place link with ⟨place, listed⟩
      have inside := (List.getElem?_eq_some_iff.mp listed).1
      have bounded := formed.length_childrenOf_le parent
      rw [formed.chain_previous?_eq listed found (by omega)]
      simp only [List.mem_filterMap, List.mem_reverse]
      constructor
      · rintro ⟨elder, member, lookup⟩
        rw [id_of_get? lookup]
        rcases List.mem_iff_getElem?.mp member with ⟨earlier, listedBefore⟩
        rw [List.getElem?_take] at listedBefore
        split at listedBefore
        · rename_i before
          exact ⟨lookup, parent, earlier, place, before, listedBefore, listed⟩
        · cases listedBefore
      · rintro ⟨lookup, upper, earlier, later, before, listedBefore, listedAgain⟩
        rcases formed.toLinked.same_place listed listedAgain with ⟨rfl, rfl⟩
        refine ⟨other.id, ?_, lookup⟩
        apply List.mem_iff_getElem?.mpr
        exact ⟨earlier, by rw [List.getElem?_take, if_pos before, listedBefore]⟩

theorem previous?_eq_some_iff (formed : tree.WellFormed) (found : tree.get? id = some node)
    {before : Node} :
    tree.previous? node = some before ↔
      tree.get? before.id = some before ∧ tree.StandsLeft .adjacentSibling before.id id := by
  constructor
  · intro step
    have lookup := get?_of_previous? step
    have previous : tree.previousId? id = some before.id := by
      rw [previousId?, found, Option.bind_some, step, Option.map_some]
    exact ⟨lookup, formed.listed_of_previousId? previous⟩
  · rintro ⟨lookup, parent, place, listedBefore, listed⟩
    rw [formed.previous?_of_listed listed found, if_neg (Nat.succ_ne_zero place),
      Nat.add_sub_cancel, listedBefore]
    exact lookup

/-- A bound of the size of the tree, or any larger one, makes no difference. -/
theorem isShownBy (formed : tree.WellFormed) {reach : Nat} (enough : tree.size ≤ reach) :
    tree.IsShownBy { tree.surroundings with reach } := by
  intro id node combinator other found
  cases combinator with
  | descendant =>
      have ends := (formed.ends_surroundings found).1.mono enough
      exact formed.mem_chain_parent?_iff found ends
  | generalSibling => exact formed.mem_chain_previous?_iff found enough
  | child => exact Option.mem_toList.trans (parent?_eq_some_iff found)
  | adjacentSibling => exact Option.mem_toList.trans (formed.previous?_eq_some_iff found)

end WellFormed

/-! ## Choices of nodes -/

/-- The node chosen for a link of a selector meets its compound. -/
def Meets (tree : Tree) (choice : Link × NodeId) : Prop :=
  ∃ node, tree.get? choice.2 = some node ∧ choice.1.compound.holdsOf node = true

/-- The nodes chosen for two neighbouring links stand as the combinator between the
links says. -/
def Joined (tree : Tree) (left right : Link × NodeId) : Prop :=
  ∃ combinator, left.1.combinator = some combinator ∧ tree.StandsLeft combinator left.2 right.2

/-- A choice of a node for each link of a selector that ends in a node and shows that
the selector describes it. -/
structure Explains (tree : Tree) (selector : Selector) (id : NodeId)
    (chosen : List (Link × NodeId)) : Prop where
  links : chosen.map (·.1) = selector.links
  target : (chosen.map (·.2)).getLast? = some id
  met : ∀ choice ∈ chosen, tree.Meets choice
  joined : chosen.IsChain tree.Joined

theorem meets_iff (found : tree.get? id = some node) (link : Link) :
    tree.Meets (link, id) ↔ link.compound.holdsOf node = true := by
  simp [Meets, found]

/-- Choices for the links before the one of the last choice, read backwards. -/
structure Retraces (tree : Tree) (last : Link × NodeId) (before : List Link)
    (rest : List (Link × NodeId)) : Prop where
  links : rest.map (·.1) = before
  met : ∀ choice ∈ last :: rest, tree.Meets choice
  joined : (last :: rest).IsChain fun right left => tree.Joined left right

theorem exists_retraces_nil_iff {last : Link × NodeId} :
    (∃ rest, tree.Retraces last [] rest) ↔ tree.Meets last := by
  constructor
  · rintro ⟨rest, retraces⟩
    exact retraces.met last List.mem_cons_self
  · intro met
    exact ⟨[], rfl, by simpa using met, .singleton last⟩

theorem exists_retraces_cons_iff {last : Link × NodeId} {link : Link} {before : List Link} :
    (∃ rest, tree.Retraces last (link :: before) rest) ↔
      tree.Meets last ∧ ∃ other, tree.Joined (link, other) last ∧
        ∃ rest, tree.Retraces (link, other) before rest := by
  constructor
  · rintro ⟨rest, links, met, joined⟩
    cases rest with
    | nil => cases links
    | cons choice rest =>
        rcases List.cons.inj links with ⟨rfl, earlier⟩
        rw [List.forall_mem_cons] at met
        rw [List.isChain_cons_cons] at joined
        exact ⟨met.1, choice.2, joined.1, rest, earlier, met.2, joined.2⟩
  · rintro ⟨met, other, join, rest, retraces⟩
    refine ⟨(link, other) :: rest, ?_, ?_, ?_⟩
    · rw [List.map_cons, retraces.links]
    · exact List.forall_mem_cons.mpr ⟨met, retraces.met⟩
    · exact List.isChain_cons_cons.mpr ⟨join, retraces.joined⟩

/-- The links of a selector are explained forwards as they are retraced backwards. -/
theorem exists_explains_iff {selector : Selector} {target : Link} {before : List Link}
    (backwards : selector.links.reverse = target :: before) :
    (∃ chosen, tree.Explains selector id chosen) ↔
      ∃ rest, tree.Retraces (target, id) before rest := by
  have forwards : selector.links = (target :: before).reverse := by
    rw [← backwards, List.reverse_reverse]
  constructor
  · rintro ⟨chosen, explains⟩
    have links := explains.links
    have last := explains.target
    cases turned : chosen.reverse with
    | nil =>
        rw [List.reverse_eq_nil_iff.mp turned] at last
        cases last
    | cons choice rest =>
        rw [List.reverse_eq_iff.mp turned] at links last explains
        rw [forwards, List.map_reverse, List.reverse_inj, List.map_cons] at links
        rcases List.cons.inj links with ⟨rfl, earlier⟩
        have same : choice.2 = id := by simpa using last
        rw [← same]
        refine ⟨rest, earlier, ?_, List.isChain_reverse.mp explains.joined⟩
        intro other member
        exact explains.met other (List.mem_reverse.mpr member)
  · rintro ⟨rest, retraces⟩
    refine ⟨((target, id) :: rest).reverse, ?_, ?_, ?_, ?_⟩
    · rw [forwards, List.map_reverse, List.map_cons, retraces.links]
    · simp
    · intro choice member
      exact retraces.met choice (List.mem_reverse.mp member)
    · exact List.isChain_reverse.mpr retraces.joined

/-- Matching backwards from a node finds a choice for the links before it whenever
there is one. -/
theorem matchesFrom_iff {surroundings : Surroundings} (shown : tree.IsShownBy surroundings)
    (target : Link) (before : List Link) (found : tree.get? id = some node) :
    Selector.matchesFrom surroundings target.compound before node = true ↔
      ∃ rest, tree.Retraces (target, id) before rest := by
  induction before generalizing target id node with
  | nil => rw [exists_retraces_nil_iff, meets_iff found, Selector.matchesFrom]
  | cons link before ih =>
      rw [exists_retraces_cons_iff, meets_iff found, Selector.matchesFrom, Bool.and_eq_true]
      apply and_congr_right
      intro _
      constructor
      · intro further
        split at further
        · cases further
        · rename_i combinator join
          rcases List.any_eq_true.mp further with ⟨other, candidate, matched⟩
          rcases (shown combinator other found).mp candidate with ⟨otherFound, stands⟩
          exact ⟨other.id, ⟨combinator, join, stands⟩, (ih link otherFound).mp matched⟩
      · rintro ⟨otherId, ⟨combinator, join, stands⟩, rest, retraces⟩
        rcases retraces.met _ List.mem_cons_self with ⟨other, otherFound, -⟩
        rw [join]
        apply List.any_eq_true.mpr
        refine ⟨other, ?_, (ih link otherFound).mpr ⟨rest, retraces⟩⟩
        rw [shown combinator other found, id_of_get? otherFound]
        exact ⟨otherFound, stands⟩

/-- Surroundings that show where nodes stand make a selector select the nodes that it
describes. -/
theorem IsShownBy.selects_iff {surroundings : Surroundings} (shown : tree.IsShownBy surroundings)
    (selector : Selector) (found : tree.get? id = some node) :
    selector.selects surroundings node = true ↔ ∃ chosen, tree.Explains selector id chosen := by
  rw [Selector.selects]
  split
  · rename_i empty
    rw [List.reverse_eq_nil_iff] at empty
    constructor
    · intro selected
      cases selected
    · rintro ⟨chosen, explains⟩
      have target := explains.target
      have none : chosen = [] := by simpa [empty] using explains.links
      rw [none] at target
      cases target
  · rename_i target before backwards
    rw [matchesFrom_iff shown target before found, exists_explains_iff backwards]

/-- In a reachable tree, whose nodes have states of their own, a selector selects the nodes
that it describes, whether matching follows the links of the tree or looks nodes up by id, and
however large the bound on its walks is. -/
theorem Reachable.selects_iff_exists_explains (reachable : tree.Reachable)
    (found : tree.get? id = some node) (selector : Selector) {reach : Nat}
    (enough : tree.size ≤ reach) :
    (selector.selects tree.surroundings node = true ↔
        ∃ chosen, tree.Explains selector id chosen) ∧
      (selector.selects (.ofLookup tree.get? reach) node = true ↔
        ∃ chosen, tree.Explains selector id chosen) := by
  have formed := reachable.wellFormed
  have direct : tree.IsShownBy tree.surroundings := formed.isShownBy (Nat.le_refl _)
  have lookedUp : tree.IsShownBy (.ofLookup tree.get? reach) := formed.isShownBy enough
  exact ⟨direct.selects_iff selector found, lookedUp.selects_iff selector found⟩

/-- A cell in a row in a row in a box. -/
def nested : Tree :=
  TreeChange.replay { nextId := ⟨1⟩ }
    [ .plantRoot { classes := ["box"] }, .appendChild ⟨1⟩ { classes := ["row"] },
      .appendChild ⟨2⟩ { classes := ["row"] }, .appendChild ⟨3⟩ { classes := ["cell"] } ]

/-- A cell somewhere in a row that is directly in a box.  Of the two rows above the
cell the nearer one is not. -/
def cellInOuterRow : Selector :=
  ((Selector.ofCompound { classes := ["box"] }).child { classes := ["row"] }).descendant
    { classes := ["cell"] }

theorem nested_explained :
    nested.Reachable ∧ nested.size ≤ 9 ∧ ∃ node, nested.get? ⟨4⟩ = some node ∧
      cellInOuterRow.selects nested.surroundings node = true ∧
      (∃ chosen, nested.Explains cellInOuterRow ⟨4⟩ chosen) ∧
      cellInOuterRow.selects (.ofLookup nested.get? 9) node = true := by
  have reachable : nested.Reachable := ⟨_, _, rfl⟩
  have small : nested.size ≤ 9 := by decide +kernel
  let cell : Node :=
    { id := ⟨4⟩, identity := { classes := ["cell"] }, flags := { dirty := true },
      placement := .ofIndex 0 1, parent := some ⟨3⟩ }
  have found : nested.get? ⟨4⟩ = some cell := by decide +kernel
  have selected : cellInOuterRow.selects nested.surroundings cell = true := by decide +kernel
  have meaning := reachable.selects_iff_exists_explains found cellInOuterRow small
  have explained := meaning.1.mp selected
  exact ⟨reachable, small, cell, found, selected, explained, meaning.2.mpr explained⟩

end Tree

/-- A row right behind a row. -/
def rowBehindRow : Selector :=
  (Selector.ofCompound { element := some "Row" }).joined .adjacentSibling
    { element := some "Row" }

/-- The first of two rows that hold one state is taken to stand right behind itself, by its own
links as by a lookup. -/
theorem SharedTree.twinRows_unexplained :
    ∃ first, twinRows.tree.get? ⟨2⟩ = some first ∧
      rowBehindRow.selects twinRows.tree.surroundings first = true ∧
      rowBehindRow.selects (.ofLookup twinRows.tree.get? 3) first = true ∧
      ¬∃ chosen, twinRows.tree.snapshot.Explains rowBehindRow ⟨2⟩ chosen := by
  have selected : (twinRows.tree.get? ⟨2⟩).map (fun node =>
      rowBehindRow.selects twinRows.tree.surroundings node &&
        rowBehindRow.selects (.ofLookup twinRows.tree.get? 3) node) = some true := by
    decide +kernel
  rcases Option.map_eq_some_iff.mp selected with ⟨first, found, both⟩
  rw [Bool.and_eq_true] at both
  refine ⟨first, found, both.1, both.2, ?_⟩
  rw [Tree.exists_explains_iff rfl, Tree.exists_retraces_cons_iff]
  rintro ⟨-, other, ⟨combinator, behind, stands⟩, -⟩
  cases behind
  rcases stands with ⟨parent, place, -, listed⟩
  have front : (twinRows.tree.snapshot.childrenOf ⟨1⟩)[0]? = some ⟨2⟩ := by decide +kernel
  cases ((linked_replay ⟨1⟩ _).same_place front listed).2

end WidgetStyle
