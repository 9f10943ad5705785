import Mathlib.Data.Finset.Basic
import WidgetStyle.Proofs.Cascade.Activity
import WidgetStyle.Proofs.Cascade.Pruning

/-!
# Regrouping rules

A rule may be split into rules with one selector each, and a rule that does not select a
node may be left out, without a change to the style of the node.  Either one moves the
rules that follow to other places, and a split tells places apart that were one.  The
matches of the two sheets are therefore paired, so that partners have the same
declarations and the same weight, and the places in the one sheet never contradict those
in the other: then sorting the pairs by the ranks in the first sheet sorts them by the
ranks in the second one as well.  A sheet with a rule whose reading fails styles no node, and
neither does the other sheet, which has this rule too.
-/

namespace WidgetStyle

open WidgetStyle.Selector

/-! ## Ranks that differ in their places -/

theorem isLE_then_of_imp {decided lower higher : Ordering}
    (kept : lower.isLE = true → higher.isLE = true) (atMost : (decided.then lower).isLE = true) :
    (decided.then higher).isLE = true := by
  cases decided with
  | lt => rfl
  | eq => exact kept atMost
  | gt => exact atMost

namespace Specificity

/-- The same rank at another place. -/
def placed (specificity : Specificity) (order : Int) : Specificity :=
  { specificity with order }

theorem atMost_placed {left right : Specificity} {first second : Int}
    (kept : left.order ≤ right.order → first ≤ second) (lower : left.atMost right = true) :
    (left.placed first).atMost (right.placed second) = true := by
  have places : (Ord.compare left.order right.order).isLE = true →
      (Ord.compare first second).isLE = true := by
    rw [Std.isLE_compare, Std.isLE_compare]
    exact kept
  -- The five fields above the place are the same, so each of them decides as before.
  exact isLE_then_of_imp (isLE_then_of_imp (isLE_then_of_imp (isLE_then_of_imp
    (isLE_then_of_imp places)))) lower

end Specificity

/-! ## Matches of rules in order -/

/-- The match of the rule at its place through one of its selectors. -/
def Rule.matchBy (rule : Rule) (place : Nat) (selector : Selector) : RuleMatch :=
  ⟨selector, rule, .ofSelector selector place⟩

/-- The matches that the rule has at its place. -/
def Rule.matchesAt (rule : Rule) (surroundings : Surroundings) (node : Node) (place : Nat) :
    List RuleMatch :=
  ((rule.active place).filter fun entry => entry.selector.selects surroundings node).map
    fun entry => rule.matchBy place entry.selector

/-- The matches of some rules, the first of which is at the given place. -/
def Sheet.matchesFrom (surroundings : Surroundings) (node : Node) (place : Nat) :
    List Rule → List RuleMatch
  | [] => []
  | rule :: rest =>
      rule.matchesAt surroundings node place ++ matchesFrom surroundings node (place + 1) rest

variable {surroundings : Surroundings} {node : Node} {rule : Rule} {place : Nat}

namespace Rule

theorem matchesAt_of_parseGroup {group : List Selector}
    (read : parseGroup rule.selector = .ok group) (place : Nat) :
    rule.matchesAt surroundings node place =
      (group.filter fun selector => selector.selects surroundings node).map
        (rule.matchBy place) := by
  rw [matchesAt, active, read, List.filter_map, List.map_map]
  rfl

theorem matchesAt_of_error {failure : SelectorFailure}
    (fails : parseGroup rule.selector = .error failure) (place : Nat) :
    rule.matchesAt surroundings node place = [] := by
  rw [matchesAt, active, fails]
  rfl

theorem order_of_mem_matchesAt {found : RuleMatch}
    (member : found ∈ rule.matchesAt surroundings node place) :
    found.specificity.order = place := by
  obtain ⟨entry, -, rfl⟩ := List.mem_map.mp member
  rfl

end Rule

namespace Sheet

variable {rules : List Rule}

theorem order_of_mem_matchesFrom {found : RuleMatch}
    (member : found ∈ matchesFrom surroundings node place rules) :
    place ≤ found.specificity.order ∧ found.specificity.order < place + rules.length := by
  induction rules generalizing place with
  | nil => cases member
  | cons rule rest ih =>
      rw [List.length_cons]
      rcases List.mem_append.mp member with here | there
      · rw [Rule.order_of_mem_matchesAt here]
        omega
      · have bounds := ih there
        omega

theorem filterMap_found?_active {sheet : Sheet} (listed : sheet.rules[place]? = some rule) :
    (rule.active place).filterMap (Cascade.found? sheet surroundings node) =
      rule.matchesAt surroundings node place := by
  rw [Rule.matchesAt, ← List.filterMap_eq_map, List.filterMap_filter]
  apply List.filterMap_congr
  intro entry member
  rw [Cascade.found?, Rule.rule_of_mem_active member, listed]
  rfl

theorem filterMap_found?_gatherFrom {sheet : Sheet} {before : List Rule}
    (parts : sheet.rules = before ++ rules) :
    (gatherFrom Rule.active before.length rules).filterMap
        (Cascade.found? sheet surroundings node) =
      matchesFrom surroundings node before.length rules := by
  induction rules generalizing before with
  | nil => rfl
  | cons rule rest ih =>
      have listed : sheet.rules[before.length]? = some rule := by
        rw [parts, List.getElem?_append_right le_rfl, Nat.sub_self]
        rfl
      have onwards : sheet.rules = (before ++ [rule]) ++ rest := by
        rw [parts, List.append_assoc]
        rfl
      have later := ih onwards
      rw [List.length_append, List.length_singleton] at later
      rw [gatherFrom_cons, List.filterMap_append, filterMap_found?_active listed, later]
      rfl

theorem exists_perm_matchesFrom {sheet : Sheet} (readable : sheet.excess? = none)
    (config : Config) (surroundings : Surroundings) (node : Node) :
    ∃ matched, (Cascade.ofSheet sheet config).matchesOf surroundings node = .ok matched ∧
      matched.Perm (matchesFrom surroundings node 0 sheet.rules) := by
  obtain ⟨matched, done, same⟩ :=
    Cascade.matchesOf_ofSheet readable config surroundings node
  have parts : sheet.rules = [] ++ sheet.rules := rfl
  exact ⟨matched, done, same.trans (.of_eq (filterMap_found?_gatherFrom parts))⟩

end Sheet

/-! ## Paired matches -/

/-- The matches have the same declarations, and ranks that differ at most in their places. -/
structure RuleMatch.Alike (fine coarse : RuleMatch) : Prop where
  declarations : fine.rule.declarations = coarse.rule.declarations
  specificity : coarse.specificity = fine.specificity.placed coarse.specificity.order

/-- Of two pairs, the later one comes later in both sheets, and matches at one place in the
first sheet are at one place in the second sheet. -/
structure Follows (earlier later : RuleMatch × RuleMatch) : Prop where
  coarse : earlier.2.specificity.order ≤ later.2.specificity.order
  together : later.1.specificity.order ≤ earlier.1.specificity.order →
    later.2.specificity.order ≤ earlier.2.specificity.order

/-- The pairs are of matches that can stand for each other in the cascade. -/
structure Tallies (pairs : List (RuleMatch × RuleMatch)) : Prop where
  alike : ∀ pair ∈ pairs, pair.1.Alike pair.2
  follows : pairs.Pairwise Follows

namespace Tallies

variable {pairs heads tails : List (RuleMatch × RuleMatch)}

theorem nil : Tallies [] :=
  ⟨List.forall_mem_nil _, .nil⟩

theorem append (front : Tallies heads) (back : Tallies tails)
    (across : ∀ earlier ∈ heads, ∀ later ∈ tails, Follows earlier later) :
    Tallies (heads ++ tails) where
  alike := by
    intro pair member
    rcases List.mem_append.mp member with here | there
    · exact front.alike pair here
    · exact back.alike pair there
  follows := List.pairwise_append.mpr ⟨front.follows, back.follows, across⟩

/-- A pair that is not above another one in the first sheet is not in the second one. -/
theorem order_le (tallies : Tallies pairs) {one other : RuleMatch × RuleMatch}
    (oneListed : one ∈ pairs) (otherListed : other ∈ pairs)
    (lower : one.1.specificity.order ≤ other.1.specificity.order) :
    one.2.specificity.order ≤ other.2.specificity.order := by
  refine List.Pairwise.forall_of_forall_of_flip
    (R := fun one other => one.1.specificity.order ≤ other.1.specificity.order →
      one.2.specificity.order ≤ other.2.specificity.order)
    ?_ ?_ ?_ oneListed otherListed lower
  · exact fun _ _ _ => le_rfl
  · exact tallies.follows.imp fun follows _ => follows.coarse
  · exact tallies.follows.imp fun follows => follows.together

theorem atMost (tallies : Tallies pairs) {one other : RuleMatch × RuleMatch}
    (oneListed : one ∈ pairs) (otherListed : other ∈ pairs)
    (lower : one.1.specificity.atMost other.1.specificity = true) :
    one.2.specificity.atMost other.2.specificity = true := by
  rw [(tallies.alike one oneListed).specificity, (tallies.alike other otherListed).specificity]
  exact Specificity.atMost_placed (tallies.order_le oneListed otherListed) lower

end Tallies

namespace Cascade

theorem declarationsOf_map_eq {important : Bool} {pairs : List (RuleMatch × RuleMatch)}
    (alike : ∀ pair ∈ pairs, pair.1.Alike pair.2) :
    declarationsOf important (pairs.map Prod.fst) =
      declarationsOf important (pairs.map Prod.snd) := by
  rw [declarationsOf, declarationsOf, List.flatMap_map, List.flatMap_map]
  apply List.flatMap_congr
  intro pair member
  rw [(alike pair member).declarations]

/-- When the matches of two readable sheets with the same bindings can be paired, the sheets
style the node alike. -/
theorem styleFrom_eq_of_tallies {fine coarse : Sheet} {config : Config}
    (fineReadable : fine.excess? = none) (coarseReadable : coarse.excess? = none)
    {pairs : List (RuleMatch × RuleMatch)} (tallies : Tallies pairs)
    (fineMatches : pairs.map Prod.fst = Sheet.matchesFrom surroundings node 0 fine.rules)
    (coarseMatches : pairs.map Prod.snd = Sheet.matchesFrom surroundings node 0 coarse.rules)
    (bindings : fine.bindings = coarse.bindings) (base : Style) :
    (ofSheet fine config).styleFrom base surroundings node =
      (ofSheet coarse config).styleFrom base surroundings node := by
  let sorted := pairs.mergeSort fun one other =>
    one.1.specificity.atMost other.1.specificity
  have reordered : sorted.Perm pairs := List.mergeSort_perm _ _
  have ascending : sorted.Pairwise fun one other =>
      one.1.specificity.atMost other.1.specificity = true :=
    List.pairwise_mergeSort (fun one other third => Specificity.atMost_trans one.1.specificity _ _)
      (fun one other => Specificity.atMost_total one.1.specificity _) pairs
  obtain ⟨fineMatched, fineDone, finePerm⟩ :=
    Sheet.exists_perm_matchesFrom fineReadable config surroundings node
  obtain ⟨coarseMatched, coarseDone, coarsePerm⟩ :=
    Sheet.exists_perm_matchesFrom coarseReadable config surroundings node
  have fineRanked : (sorted.map Prod.fst).map ranked = fineMatched.map ranked := by
    refine ranked_eq_of_perm fineDone ?_ (List.pairwise_map.mpr ascending)
    refine (reordered.map Prod.fst).trans ?_
    rw [fineMatches]
    exact finePerm.symm
  have coarseRanked : (sorted.map Prod.snd).map ranked = coarseMatched.map ranked := by
    refine ranked_eq_of_perm coarseDone ?_ (List.pairwise_map.mpr ?_)
    · refine (reordered.map Prod.snd).trans ?_
      rw [coarseMatches]
      exact coarsePerm.symm
    · refine ascending.imp_of_mem fun oneListed otherListed lower => ?_
      exact tallies.atMost (reordered.mem_iff.mp oneListed) (reordered.mem_iff.mp otherListed) lower
  have declarations (important : Bool) :
      declarationsOf important fineMatched = declarationsOf important coarseMatched := by
    rw [← declarationsOf_eq_of_ranked fineRanked, ← declarationsOf_eq_of_ranked coarseRanked]
    exact declarationsOf_map_eq fun pair listed =>
      tallies.alike pair (reordered.mem_iff.mp listed)
  have sameBindings : (ofSheet fine config).sheet.bindings =
      (ofSheet coarse config).sheet.bindings := bindings
  simp only [styleFrom, fineDone, coarseDone, declarations, sameBindings]

end Cascade

/-! ## Regrouped rules -/

/-- Wherever the rules are, their matches can be paired with those of the one rule, and their
reading fails as that of the rule does. -/
structure Rule.GivenBy (surroundings : Surroundings) (node : Node) (parts : List Rule)
    (rule : Rule) : Prop where
  excess : parts.findSome? Rule.excess? = rule.excess?
  paired : ∀ finePlace coarsePlace : Nat, ∃ pairs, Tallies pairs ∧
    pairs.map Prod.fst = Sheet.matchesFrom surroundings node finePlace parts ∧
      pairs.map Prod.snd = rule.matchesAt surroundings node coarsePlace

/-- Instead of each rule of the second list, the first one has rules that give its matches. -/
inductive Regroups (surroundings : Surroundings) (node : Node) : List Rule → List Rule → Prop
  | nil : Regroups surroundings node [] []
  | cons {parts fine coarse : List Rule} {rule : Rule} :
      Rule.GivenBy surroundings node parts rule → Regroups surroundings node fine coarse →
        Regroups surroundings node (parts ++ fine) (rule :: coarse)

theorem Sheet.matchesFrom_append (place : Nat) (before rest : List Rule) :
    matchesFrom surroundings node place (before ++ rest) =
      matchesFrom surroundings node place before ++
        matchesFrom surroundings node (place + before.length) rest := by
  induction before generalizing place with
  | nil => rfl
  | cons rule before ih =>
      rw [List.cons_append, matchesFrom, matchesFrom, ih, List.append_assoc, List.length_cons,
        Nat.add_assoc, Nat.add_comm 1]

/-- The matches of regrouped rules can be paired, wherever the rules start. -/
theorem Regroups.exists_tallies {fine coarse : List Rule}
    (regroups : Regroups surroundings node fine coarse) (finePlace coarsePlace : Nat) :
    ∃ pairs, Tallies pairs ∧
      pairs.map Prod.fst = Sheet.matchesFrom surroundings node finePlace fine ∧
        pairs.map Prod.snd = Sheet.matchesFrom surroundings node coarsePlace coarse := by
  induction regroups generalizing finePlace coarsePlace with
  | nil => exact ⟨[], .nil, rfl, rfl⟩
  | @cons parts fine coarse rule given _ ih =>
      obtain ⟨heads, front, headsFine, headsCoarse⟩ := given.paired finePlace coarsePlace
      obtain ⟨tails, back, tailsFine, tailsCoarse⟩ :=
        ih (finePlace + parts.length) (coarsePlace + 1)
      refine ⟨heads ++ tails, front.append back ?_, ?_, ?_⟩
      · intro earlier early later late
        have earlyFine := Sheet.order_of_mem_matchesFrom
          (headsFine ▸ List.mem_map_of_mem (f := Prod.fst) early)
        have lateFine := Sheet.order_of_mem_matchesFrom
          (tailsFine ▸ List.mem_map_of_mem (f := Prod.fst) late)
        have earlyCoarse := Rule.order_of_mem_matchesAt
          (headsCoarse ▸ List.mem_map_of_mem (f := Prod.snd) early)
        have lateCoarse := Sheet.order_of_mem_matchesFrom
          (tailsCoarse ▸ List.mem_map_of_mem (f := Prod.snd) late)
        constructor <;> omega
      · rw [List.map_append, headsFine, tailsFine, Sheet.matchesFrom_append]
      · rw [List.map_append, headsCoarse, tailsCoarse, Sheet.matchesFrom]

/-- The reading of regrouped rules fails on the same number. -/
theorem Regroups.excess_eq {fine coarse : List Rule}
    (regroups : Regroups surroundings node fine coarse) :
    fine.findSome? Rule.excess? = coarse.findSome? Rule.excess? := by
  induction regroups with
  | nil => rfl
  | cons given _ ih =>
      rw [List.findSome?_append, given.excess, ih, List.findSome?_cons]
      split <;> rename_i same <;> rw [same] <;> rfl

theorem Regroups.styleBelow_eq {fine coarse : Sheet}
    (regroups : Regroups surroundings node fine.rules coarse.rules)
    (bindings : fine.bindings = coarse.bindings) (config : Config) (parentStyle : Option Style) :
    (Cascade.ofSheet fine config).styleBelow parentStyle surroundings node =
      (Cascade.ofSheet coarse config).styleBelow parentStyle surroundings node := by
  have same : fine.excess? = coarse.excess? := regroups.excess_eq
  cases readable : coarse.excess? with
  | some excess =>
      rw [readable] at same
      simp only [Cascade.styleBelow, Cascade.styleFrom, Cascade.matchesOf_of_excess readable,
        Cascade.matchesOf_of_excess same]
  | none =>
      obtain ⟨pairs, tallies, fineMatches, coarseMatches⟩ := regroups.exists_tallies 0 0
      exact Cascade.styleFrom_eq_of_tallies (same.trans readable) readable tallies fineMatches
        coarseMatches bindings _

namespace Rule

variable {parts : List Rule}

/-- Pairs of matches of the same selectors, one after the other at the same two places, tally. -/
theorem tallies_map (fine coarse : Rule) (same : fine.declarations = coarse.declarations)
    (finePlace coarsePlace : Nat) (selectors : List Selector) :
    Tallies (selectors.map fun selector =>
      (fine.matchBy finePlace selector, coarse.matchBy coarsePlace selector)) where
  alike := by
    intro pair listed
    obtain ⟨selector, -, rfl⟩ := List.mem_map.mp listed
    exact ⟨same, rfl⟩
  follows := List.pairwise_map.mpr
    (List.pairwise_of_forall_mem_list fun _ _ _ _ => ⟨le_rfl, fun _ => le_rfl⟩)

theorem givenBy_self (surroundings : Surroundings) (node : Node) (rule : Rule) :
    GivenBy surroundings node [rule] rule := by
  refine ⟨by rw [List.findSome?_singleton], fun finePlace coarsePlace => ?_⟩
  cases read : parseGroup rule.selector with
  | error error =>
      refine ⟨[], .nil, ?_, (matchesAt_of_error read _).symm⟩
      rw [Sheet.matchesFrom, matchesAt_of_error read]
      rfl
  | ok group =>
      refine ⟨_, tallies_map rule rule rfl finePlace coarsePlace
        (group.filter fun selector => selector.selects surroundings node), ?_, ?_⟩
      · rw [List.map_map, Sheet.matchesFrom, matchesAt_of_parseGroup read, Sheet.matchesFrom,
          List.append_nil]
        rfl
      · rw [List.map_map, matchesAt_of_parseGroup read]
        rfl

/-- The rule drops out, or none of its selectors selects the node. -/
def Inert (surroundings : Surroundings) (node : Node) (rule : Rule) : Prop :=
  (∃ error, parseGroup rule.selector = .error (.refused error)) ∨
    ∃ group, parseGroup rule.selector = .ok group ∧
      ∀ selector ∈ group, selector.selects surroundings node = false

instance : Decidable (rule.Inert surroundings node) :=
  match read : parseGroup rule.selector with
  | .error (.refused error) => isTrue (.inl ⟨error, read⟩)
  | .error (.excess _) => isFalse (by simp [Inert, read])
  | .ok group =>
      decidable_of_iff (∀ selector ∈ group, selector.selects surroundings node = false)
        (by simp [Inert, read])

theorem givenBy_of_inert (inert : rule.Inert surroundings node) :
    GivenBy surroundings node [] rule := by
  rcases inert with ⟨error, refused⟩ | ⟨group, read, unselected⟩
  · constructor
    · rw [excess?, refused]
      rfl
    · exact fun _ _ => ⟨[], .nil, rfl, (matchesAt_of_error refused _).symm⟩
  · have none : (group.filter fun selector => selector.selects surroundings node) = [] :=
      List.filter_eq_nil_iff.mpr fun selector listed => by simp [unselected selector listed]
    constructor
    · rw [excess?, read]
      rfl
    · intro finePlace coarsePlace
      refine ⟨[], .nil, rfl, ?_⟩
      rw [matchesAt_of_parseGroup read, none]
      rfl

/-- The parts have the declarations of the rule, and each has one of its selectors, in the
order of its group. -/
def SplitInto (rule : Rule) (parts : List Rule) : Prop :=
  ∃ group, parseGroup rule.selector = .ok group ∧
    List.Forall₂ (fun part selector =>
      part.declarations = rule.declarations ∧ parseGroup part.selector = .ok [selector]) parts group

theorem excess?_of_parseGroup {group : List Selector}
    (read : parseGroup rule.selector = .ok group) : rule.excess? = none := by
  rw [excess?, read]

theorem SplitInto.excess_eq (split : rule.SplitInto parts) :
    parts.findSome? Rule.excess? = rule.excess? := by
  obtain ⟨group, read, each⟩ := split
  rw [excess?_of_parseGroup read, List.findSome?_eq_none_iff]
  clear read
  induction each with
  | nil => exact List.forall_mem_nil _
  | cons same _ ih => exact List.forall_mem_cons.mpr ⟨excess?_of_parseGroup same.2, ih⟩

theorem givenBy_of_splitInto (split : rule.SplitInto parts) :
    GivenBy surroundings node parts rule := by
  refine ⟨split.excess_eq, fun finePlace coarsePlace => ?_⟩
  obtain ⟨group, read, each⟩ := split
  rw [matchesAt_of_parseGroup read]
  clear read
  induction each generalizing finePlace with
  | nil => exact ⟨[], .nil, rfl, rfl⟩
  | @cons part selector parts group same _ ih =>
      obtain ⟨tails, back, tailsFine, tailsCoarse⟩ := ih (finePlace + 1)
      refine ⟨_ ++ tails, (tallies_map part rule same.1 finePlace coarsePlace
        ([selector].filter fun selector => selector.selects surroundings node)).append back ?_,
        ?_, ?_⟩
      · intro earlier early later late
        obtain ⟨_, -, rfl⟩ := List.mem_map.mp early
        have lateFine := Sheet.order_of_mem_matchesFrom
          (tailsFine ▸ List.mem_map_of_mem (f := Prod.fst) late)
        have lateCoarse : later.2.specificity.order = coarsePlace := by
          have listed := tailsCoarse ▸ List.mem_map_of_mem (f := Prod.snd) late
          obtain ⟨_, -, same⟩ := List.mem_map.mp listed
          rw [← same]
          rfl
        constructor
        · exact lateCoarse.ge
        · exact fun _ => lateCoarse.le
      · rw [List.map_append, List.map_map, tailsFine, Sheet.matchesFrom,
          matchesAt_of_parseGroup same.2]
        rfl
      · have whole : selector :: group = [selector] ++ group := rfl
        rw [List.map_append, List.map_map, tailsCoarse, whole, List.filter_append,
          List.map_append]
        rfl

end Rule

namespace Regroups

variable {fine coarse : List Rule}

theorem keep (rule : Rule) (regroups : Regroups surroundings node fine coarse) :
    Regroups surroundings node (rule :: fine) (rule :: coarse) :=
  .cons (Rule.givenBy_self surroundings node rule) regroups

theorem skip (inert : rule.Inert surroundings node)
    (regroups : Regroups surroundings node fine coarse) :
    Regroups surroundings node fine (rule :: coarse) :=
  .cons (Rule.givenBy_of_inert inert) regroups

theorem refl (surroundings : Surroundings) (node : Node) (rules : List Rule) :
    Regroups surroundings node rules rules := by
  induction rules with
  | nil => exact .nil
  | cons rule rest ih => exact ih.keep rule

theorem append_left (regroups : Regroups surroundings node fine coarse) (before : List Rule) :
    Regroups surroundings node (before ++ fine) (before ++ coarse) := by
  induction before with
  | nil => exact regroups
  | cons rule before ih => exact ih.keep rule

end Regroups

/-! ## Splitting a rule -/

namespace Cascade

/-- A rule with a group of selectors is shorthand for rules with one selector each, whatever
the other rules are: no node is styled otherwise when the rule is split. -/
theorem styleBelow_splitInto {sheet : Sheet} {before after parts : List Rule}
    (rules : sheet.rules = before ++ rule :: after) (split : rule.SplitInto parts)
    (config : Config) (parentStyle : Option Style) (surroundings : Surroundings) (node : Node) :
    (ofSheet { sheet with rules := before ++ parts ++ after } config).styleBelow parentStyle
        surroundings node =
      (ofSheet sheet config).styleBelow parentStyle surroundings node := by
  have regroups : Regroups surroundings node (before ++ parts ++ after) sheet.rules := by
    rw [rules, List.append_assoc]
    exact (Regroups.cons (Rule.givenBy_of_splitInto split)
      (.refl surroundings node after)).append_left before
  exact @Regroups.styleBelow_eq _ _ { sheet with rules := before ++ parts ++ after } sheet
    regroups rfl config parentStyle

/-- A rule for all buttons and one element. -/
def buttonRule : Rule where
  selector := "Button, #save"
  declarations :=
    [ { property := "gap", value := "1" },
      { property := "color", value := "red", important := true } ]

/-- The rules of its two selectors. -/
def buttonParts : List Rule :=
  [{ buttonRule with selector := "Button" }, { buttonRule with selector := "#save" }]

/-- The rule between two others. -/
def buttons : Sheet where
  rules :=
    [ { selector := "Button", declarations := [{ property := "gap", value := "2" }] },
      buttonRule,
      { selector := "Button", declarations := [{ property := "gap", value := "3" }] } ]

/-- A button that both selectors of the rule select, and the other rules as well. -/
def saveButton : Node where
  id := ⟨1⟩
  identity := { widgetType := "Button", elementId := some "save" }

/-- Below a parent in blue, too, the button is styled as if the rule had been split. -/
theorem buttons_splitInto :
    buttonRule.SplitInto buttonParts ∧
      (ofSheet { buttons with rules := buttons.rules.take 1 ++ buttonParts ++ buttons.rules.drop 2 }
          {}).styleBelow (some { color := .opaqueOf 0 0 255 }) ({} : Tree).surroundings saveButton =
        (ofSheet buttons {}).styleBelow (some { color := .opaqueOf 0 0 255 })
          ({} : Tree).surroundings saveButton := by
  have split : buttonRule.SplitInto buttonParts := by
    refine ⟨[.ofCompound { element := some "Button" }, .ofCompound { id := some "save" }],
      by decide +kernel, .cons ⟨rfl, ?_⟩ (.cons ⟨rfl, ?_⟩ .nil)⟩
    · decide +kernel
    · decide +kernel
  exact ⟨split, styleBelow_splitInto rfl split {} _ _ _⟩

end Cascade

/-! ## Leaving out rules -/

/-- The sheet without the rules at the given places. -/
def Sheet.without (sheet : Sheet) (places : Finset Nat) : Sheet :=
  { sheet with
    rules := (sheet.rules.zipIdx.filter fun entry => decide (entry.2 ∉ places)).map (·.1) }

theorem regroups_filter_zipIdx {places : Finset Nat} {rules : List Rule} {start : Nat}
    (inert : ∀ entry ∈ rules.zipIdx start, entry.2 ∈ places → entry.1.Inert surroundings node) :
    Regroups surroundings node
      (((rules.zipIdx start).filter fun entry => decide (entry.2 ∉ places)).map (·.1)) rules := by
  induction rules generalizing start with
  | nil => exact .nil
  | cons rule rest ih =>
      rw [List.zipIdx_cons, List.forall_mem_cons] at inert
      have later := ih inert.2
      rw [List.zipIdx_cons, List.filter_cons]
      by_cases left : start ∈ places
      · rw [if_neg (by simpa using left)]
        exact later.skip (inert.1 left)
      · rw [if_pos (by simpa using left)]
        exact later.keep rule

namespace Cascade

/-- The buttons' sheet with a rule that cannot be read and one for labels between the others. -/
def padded : Sheet where
  rules :=
    { selector := "Button >", declarations := [{ property := "gap", value := "4" }] } ::
      buttons.rules ++
        [{ selector := "Label", declarations := [{ property := "gap", value := "5" }] }]

end Cascade

end WidgetStyle
