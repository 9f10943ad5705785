import WidgetStyle.Proofs.Matching.Likeness

/-!
# Surroundings that resemble each other

Matching walks from a node to its parent and to the sibling before it.  When two
nodes look alike, and the walks from them keep meeting nodes that look alike, a
selector selects both or neither.  How far the two walks may go is no matter, as
long as both come to an end by themselves.
-/

namespace WidgetStyle

namespace Surroundings

variable {step leftStep rightStep : Node → Option Node}

theorem chain_of_none {node : Node} (last : step node = none) (bound : Nat) :
    chain step bound node = [] := by
  cases bound with
  | zero => rfl
  | succ bound => rw [chain, last]

theorem chain_of_some {node other : Node} (link : step node = some other) (bound : Nat) :
    chain step (bound + 1) node = other :: chain step bound other := by
  rw [chain, link]

/-- Repeating a step from a node comes to an end within the bound. -/
inductive Ends (step : Node → Option Node) : Nat → Node → Prop where
  | stop {bound : Nat} {node : Node} : step node = none → Ends step bound node
  | next {bound : Nat} {node other : Node} :
      step node = some other → Ends step bound other → Ends step (bound + 1) node

/-- A chain that comes to an end does not depend on its bound. -/
theorem Ends.chain_eq {least bound : Nat} {node : Node} (ends : Ends step least node)
    (enough : least ≤ bound) : chain step bound node = chain step least node := by
  induction ends generalizing bound with
  | stop last => rw [chain_of_none last, chain_of_none last]
  | next link _ ih =>
      cases bound with
      | zero => cases enough
      | succ bound =>
          rw [chain_of_some link, chain_of_some link, ih (Nat.le_of_succ_le_succ enough)]

theorem Ends.mono {least bound : Nat} {node : Node} (ends : Ends step least node)
    (enough : least ≤ bound) : Ends step bound node := by
  induction ends generalizing bound with
  | stop last => exact .stop last
  | next link _ ih =>
      cases bound with
      | zero => cases enough
      | succ bound => exact .next link (ih (Nat.le_of_succ_le_succ enough))

/-- Steps that lead from related nodes to related nodes give related chains. -/
theorem Ends.chain_related {Related : Node → Node → Prop}
    (steps : ∀ {left right}, Related left right →
      Option.Rel Related (leftStep left) (rightStep right))
    {leftBound rightBound : Nat} {left right : Node} (leftEnds : Ends leftStep leftBound left)
    (rightEnds : Ends rightStep rightBound right) (related : Related left right) :
    List.Forall₂ Related (chain leftStep leftBound left) (chain rightStep rightBound right) := by
  induction leftEnds generalizing rightBound right with
  | stop last =>
      have links := steps related
      rw [last] at links
      cases leads : rightStep right with
      | some other => rw [leads] at links; cases links
      | none =>
          rw [chain_of_none last, chain_of_none leads]
          exact .nil
  | next link _ ih =>
      have links := steps related
      rw [link] at links
      cases rightEnds with
      | stop last => rw [last] at links; cases links
      | next rightLink rightEnds =>
          rw [rightLink] at links
          rw [chain_of_some link, chain_of_some rightLink]
          cases links with
          | some nearer => exact .cons nearer (ih rightEnds nearer)

/-- Related nodes give related chains, however far the chains may go. -/
theorem chain_related {Related : Node → Node → Prop}
    (steps : ∀ {left right}, Related left right →
      Option.Rel Related (leftStep left) (rightStep right))
    (bound : Nat) {left right : Node} (related : Related left right) :
    List.Forall₂ Related (chain leftStep bound left) (chain rightStep bound right) := by
  induction bound generalizing left right with
  | zero => exact .nil
  | succ bound ih =>
      have links := steps related
      rw [chain, chain]
      generalize leftStep left = one, rightStep right = other at links
      cases links with
      | none => exact .nil
      | some nearer => exact .cons nearer (ih nearer)

/-- From related nodes each combinator leads to nodes that are related one by one. -/
def LeadsAlike (left right : Surroundings) (Related : Node → Node → Prop) : Prop :=
  ∀ ⦃first second⦄, Related first second → ∀ combinator,
    List.Forall₂ Related (left.leftOf combinator first) (right.leftOf combinator second)

/-- Related nodes have related parents and related siblings before them, and the walks from
them end. -/
structure Parallel (left right : Surroundings) (Related : Node → Node → Prop) : Prop where
  parent : ∀ {first second}, Related first second →
    Option.Rel Related (left.parent? first) (right.parent? second)
  previous : ∀ {first second}, Related first second →
    Option.Rel Related (left.previous? first) (right.previous? second)
  leftEnds : ∀ {first second}, Related first second →
    Ends left.parent? left.reach first ∧ Ends left.previous? left.reach first
  rightEnds : ∀ {first second}, Related first second →
    Ends right.parent? right.reach second ∧ Ends right.previous? right.reach second

section Walks

variable {left right : Surroundings} {Related : Node → Node → Prop}

theorem toList_related {first second : Option Node} (related : Option.Rel Related first second) :
    List.Forall₂ Related first.toList second.toList := by
  cases related with
  | none => exact .nil
  | some related => exact .cons related .nil

/-- Where the walks end by themselves, their bounds may differ. -/
theorem Parallel.leadsAlike (parallel : Parallel left right Related) :
    LeadsAlike left right Related := by
  intro first second related combinator
  have leftEnds := parallel.leftEnds related
  have rightEnds := parallel.rightEnds related
  cases combinator with
  | descendant => exact leftEnds.1.chain_related parallel.parent rightEnds.1 related
  | generalSibling => exact leftEnds.2.chain_related parallel.previous rightEnds.2 related
  | child => exact toList_related (parallel.parent related)
  | adjacentSibling => exact toList_related (parallel.previous related)

/-- Under one bound the walks need not end by themselves. -/
theorem leadsAlike_of_steps (sameReach : left.reach = right.reach)
    (parent : ∀ {first second}, Related first second →
      Option.Rel Related (left.parent? first) (right.parent? second))
    (previous : ∀ {first second}, Related first second →
      Option.Rel Related (left.previous? first) (right.previous? second)) :
    LeadsAlike left right Related := by
  intro first second related combinator
  cases combinator with
  | descendant =>
      rw [leftOf, leftOf, ancestors, ancestors, sameReach]
      exact chain_related parent right.reach related
  | generalSibling =>
      rw [leftOf, leftOf, precedingSiblings, precedingSiblings, sameReach]
      exact chain_related previous right.reach related
  | child => exact toList_related (parent related)
  | adjacentSibling => exact toList_related (previous related)

end Walks

/-- Related nodes look alike, have related parents and related siblings before
them, and the walks from them end. -/
structure Resemble (left right : Surroundings) (Related : Node → Node → Prop) : Prop where
  like : ∀ {first second}, Related first second → first.Like second
  parent : ∀ {first second}, Related first second →
    Option.Rel Related (left.parent? first) (right.parent? second)
  previous : ∀ {first second}, Related first second →
    Option.Rel Related (left.previous? first) (right.previous? second)
  leftEnds : ∀ {first second}, Related first second →
    Ends left.parent? left.reach first ∧ Ends left.previous? left.reach first
  rightEnds : ∀ {first second}, Related first second →
    Ends right.parent? right.reach second ∧ Ends right.previous? right.reach second

theorem Resemble.parallel {left right : Surroundings} {Related : Node → Node → Prop}
    (resemble : Resemble left right Related) : Parallel left right Related where
  parent := resemble.parent
  previous := resemble.previous
  leftEnds := resemble.leftEnds
  rightEnds := resemble.rightEnds

end Surroundings

namespace Selector

open Surroundings

variable {left right : Surroundings} {Related : Node → Node → Prop}

theorem any_eq_of_related {leftTest rightTest : Node → Bool}
    (same : ∀ {first second}, Related first second → leftTest first = rightTest second)
    {firsts seconds : List Node} (related : List.Forall₂ Related firsts seconds) :
    firsts.any leftTest = seconds.any rightTest := by
  induction related with
  | nil => rfl
  | cons nearest _ ih => rw [List.any_cons, List.any_cons, same nearest, ih]

/-- A chain matches related nodes alike when none of its compounds tells them apart. -/
theorem matchesFrom_eq (leads : LeadsAlike left right Related) {target : Link}
    {before : List Link}
    (agrees : ∀ {first second}, Related first second → ∀ link ∈ target :: before,
      link.compound.holdsOf first = link.compound.holdsOf second)
    {first second : Node} (related : Related first second) :
    matchesFrom left target.compound before first =
      matchesFrom right target.compound before second := by
  have same := agrees related target List.mem_cons_self
  induction before generalizing target first second with
  | nil => exact same
  | cons link before ih =>
      rw [matchesFrom, matchesFrom, same]
      cases link.combinator with
      | none => rfl
      | some combinator =>
          have later {one other : Node} (paired : Related one other) :=
            ih (fun paired _ member => agrees paired _ (List.mem_cons_of_mem target member)) paired
              (agrees paired link (List.mem_cons_of_mem target List.mem_cons_self))
          have candidates := leads related combinator
          have found := any_eq_of_related (fun paired => later paired) candidates
          exact congrArg (target.compound.holdsOf second && ·) found

/-- A selector selects related nodes alike when none of its compounds tells them apart. -/
theorem selects_eq_of_agrees (leads : LeadsAlike left right Related) (selector : Selector)
    (agrees : ∀ {first second}, Related first second → ∀ link ∈ selector.links,
      link.compound.holdsOf first = link.compound.holdsOf second)
    {first second : Node} (related : Related first second) :
    selector.selects left first = selector.selects right second := by
  rw [selects, selects]
  cases backwards : selector.links.reverse with
  | nil => rfl
  | cons target before =>
      refine matchesFrom_eq leads (fun paired link member => ?_) related
      exact agrees paired link (List.mem_reverse.mp (backwards ▸ member))

/-- A selector selects nodes alike that look alike and so do their surroundings. -/
theorem selects_eq (resemble : Resemble left right Related) (selector : Selector)
    {first second : Node} (related : Related first second) :
    selector.selects left first = selector.selects right second :=
  selects_eq_of_agrees resemble.parallel.leadsAlike selector
    (fun paired link _ => link.compound.holdsOf_eq (resemble.like paired)) related

end Selector

end WidgetStyle
