import WidgetStyle.Cascade.Basic
import WidgetStyle.Proofs.Cascade.Filing
import WidgetStyle.Proofs.Matching.Resemblance
import WidgetStyle.Proofs.Outcomes

/-!
# Agreement of styles

Nodes in surroundings that resemble each other are matched by the same rules in
the same order, and so they get the same style from the same start.  The index is
asked with the classes of the node in some order, and a rule may match through
another of its selectors; neither shows in the rules sorted by rank, since a rank
tells which rule it belongs to.
-/

namespace WidgetStyle

/-! ## Ranks -/

namespace Specificity

theorem atMost_total (left right : Specificity) :
    (left.atMost right || right.atMost left) = true := by
  have total : Std.OrientedCmp compare := by
    unfold compare
    infer_instance
  rw [Bool.or_eq_true, atMost, atMost, total.eq_swap (a := left), Ordering.isLE_swap]
  cases compare right left <;> simp

theorem atMost_trans (first second third : Specificity)
    (lower : first.atMost second = true) (upper : second.atMost third = true) :
    first.atMost third = true := by
  have transitive : Std.TransCmp compare := by
    unfold compare
    infer_instance
  exact transitive.isLE_trans lower upper

theorem atMost_antisymm {left right : Specificity} (lower : left.atMost right = true)
    (upper : right.atMost left = true) : left = right := by
  have oriented : Std.OrientedCmp compare := by
    unfold compare
    infer_instance
  have equal : compare left right = .eq := by
    rw [atMost] at lower upper
    rw [oriented.eq_swap, Ordering.isLE_swap] at upper
    cases result : compare left right <;> simp_all
  simp only [compare, compareLex_eq_eq, compareOn, Std.compare_eq_iff_eq] at equal
  cases left
  cases right
  simp_all

end Specificity

/-! ## Candidates -/

/-- The selectors to be tried on a node do not depend on the order of its classes, but for
their own order. -/
theorem SelectorSet.candidatesFor_perm (set : SelectorSet) {left right : Node}
    (like : left.Like right) :
    (set.candidatesFor left.identity).Perm (set.candidatesFor right.identity) := by
  refine ((List.perm_ext_iff_of_nodup (eraseDups_nodup _) (eraseDups_nodup _)).mpr ?_).filterMap _
  intro position
  simp only [List.mem_eraseDups, List.mem_append, List.mem_flatMap, like.elementId,
    like.widgetType, like.classes.mem_iff]

namespace Cascade

variable {left right : Surroundings} {Related : Node → Node → Prop} {first second : Node}

/-! ## Matches -/

section Candidates

variable (sheet : Sheet) (surroundings : Surroundings) (node : Node)

/-- The selector selects the node, but its rule is not there. -/
def lacksRule (entry : RuleSelector) : Bool :=
  entry.selector.selects surroundings node && (sheet.rules[entry.rule]?).isNone

/-- The match of the selector, if it selects the node and its rule is there. -/
def found? (entry : RuleSelector) : Option RuleMatch :=
  if entry.selector.selects surroundings node then
    (sheet.rules[entry.rule]?).map fun rule =>
      { selector := entry.selector
        rule
        specificity := .ofSelector entry.selector entry.rule }
  else none

/-- Matching fails if any selector that selects the node lacks its rule, and otherwise finds
what each selector gives. -/
theorem matchesAmong_eq (entries : List RuleSelector) :
    matchesAmong sheet surroundings node entries =
      if entries.any (lacksRule sheet surroundings node) then .error .missingRule
      else .ok (entries.filterMap (found? sheet surroundings node)) := by
  induction entries with
  | nil => rfl
  | cons entry rest ih =>
      rw [matchesAmong, ih, List.any_cons, List.filterMap_cons, matchOf?, lacksRule, found?]
      cases entry.selector.selects surroundings node with
      | false =>
          simp only [Bool.false_eq_true, if_false, Bool.false_and, Bool.false_or]
          split <;> rfl
      | true =>
          cases sheet.rules[entry.rule]? with
          | none => rfl
          | some rule =>
              simp only [if_true, Option.isNone_some, Bool.and_false, Bool.false_or]
              split <;> rfl

/-- The matches of the selectors, by ascending specificity. -/
def sortedMatches (entries : List RuleSelector) : List RuleMatch :=
  (entries.filterMap (found? sheet surroundings node)).mergeSort fun left right =>
    left.specificity.atMost right.specificity

end Candidates

theorem matchesOf_eq (cascade : Cascade) (surroundings : Surroundings) (node : Node) :
    cascade.matchesOf surroundings node =
      match cascade.set with
      | .error excess => .error (.tooManyDigits excess)
      | .ok set =>
          if (set.candidatesFor node.identity).any (lacksRule cascade.sheet surroundings node) then
            .error .missingRule
          else
            .ok (sortedMatches cascade.sheet surroundings node
              (set.candidatesFor node.identity)) := by
  rw [matchesOf]
  cases cascade.set with
  | error excess => rfl
  | ok set =>
      simp only [matchesAmong_eq]
      split <;> rfl

/-- What a match comes down to: its rank and its rule. -/
def ranked (entry : RuleMatch) : Specificity × Rule :=
  (entry.specificity, entry.rule)

theorem order_of_found? {sheet : Sheet} {surroundings : Surroundings} {node : Node}
    {entry : RuleSelector} {found : RuleMatch}
    (matched : found? sheet surroundings node entry = some found) :
    found.specificity.order = entry.rule ∧ sheet.rules[entry.rule]? = some found.rule := by
  rw [found?] at matched
  split at matched
  · obtain ⟨rule, there, rfl⟩ := Option.map_eq_some_iff.mp matched
    exact ⟨rfl, there⟩
  · cases matched

section Order

variable {cascade : Cascade} {surroundings : Surroundings} {node : Node}
  {matched : List RuleMatch}

/-- What is found on a node comes from the candidates for it, one match for each that
selects it, and is sorted by rank. -/
theorem matchesOf_eq_ok (done : cascade.matchesOf surroundings node = .ok matched) :
    ∃ set, cascade.set = .ok set ∧
      (∀ entry ∈ set.candidatesFor node.identity,
        lacksRule cascade.sheet surroundings node entry = false) ∧
      matched = sortedMatches cascade.sheet surroundings node
        (set.candidatesFor node.identity) := by
  rw [matchesOf_eq] at done
  split at done
  · cases done
  · rename_i set same
    split at done
    · cases done
    · rename_i complete
      exact ⟨set, same, by simpa using complete, (Except.ok.inj done).symm⟩

theorem matchesOf_of_complete {set : SelectorSet} (kept : cascade.set = .ok set)
    (complete : (set.candidatesFor node.identity).any
      (lacksRule cascade.sheet surroundings node) = false) :
    cascade.matchesOf surroundings node =
      .ok (sortedMatches cascade.sheet surroundings node (set.candidatesFor node.identity)) := by
  rw [matchesOf_eq, kept]
  simp only [complete]
  exact if_neg Bool.false_ne_true

/-- The rank of a match tells its rule. -/
theorem rule_of_mem_matchesOf (done : cascade.matchesOf surroundings node = .ok matched)
    {entry : RuleMatch} (member : entry ∈ matched) :
    ∃ place : Nat, entry.specificity.order = place ∧
      cascade.sheet.rules[place]? = some entry.rule := by
  obtain ⟨set, -, -, rfl⟩ := matchesOf_eq_ok done
  rw [sortedMatches, List.mem_mergeSort, List.mem_filterMap] at member
  obtain ⟨candidate, -, found⟩ := member
  exact ⟨candidate.rule, order_of_found? found⟩

theorem pairwise_matchesOf (done : cascade.matchesOf surroundings node = .ok matched) :
    matched.Pairwise fun first second =>
      first.specificity.atMost second.specificity = true := by
  obtain ⟨set, -, -, rfl⟩ := matchesOf_eq_ok done
  apply List.pairwise_mergeSort
  · intro first second third
    exact Specificity.atMost_trans _ _ _
  · intro first second
    exact Specificity.atMost_total _ _

/-- Matches in the order of their ranks do not show the order in which they were found. -/
theorem ranked_eq_of_perm (done : cascade.matchesOf surroundings node = .ok matched)
    {other : List RuleMatch} (same : other.Perm matched)
    (sorted : other.Pairwise fun first second =>
      first.specificity.atMost second.specificity = true) :
    other.map ranked = matched.map ranked := by
  have sortedLeft : (other.map ranked).Pairwise fun one other => one.1.atMost other.1 = true :=
    List.pairwise_map.mpr sorted
  have sortedRight : (matched.map ranked).Pairwise fun one other =>
      one.1.atMost other.1 = true :=
    List.pairwise_map.mpr (pairwise_matchesOf done)
  refine List.Perm.eq_of_pairwise ?_ sortedLeft sortedRight (same.map ranked)
  intro one other oneMember otherMember lower upper
  obtain ⟨entry, member, rfl⟩ := List.mem_map.mp oneMember
  obtain ⟨entry', member', rfl⟩ := List.mem_map.mp otherMember
  have ranks : entry.specificity = entry'.specificity := Specificity.atMost_antisymm lower upper
  obtain ⟨place, order, rule⟩ := rule_of_mem_matchesOf done (same.mem_iff.mp member)
  obtain ⟨place', order', rule'⟩ := rule_of_mem_matchesOf done member'
  rw [ranks, order', Int.ofNat_inj] at order
  rw [order, rule] at rule'
  rw [ranked, ranked, ranks, Option.some.inj rule']

end Order

/-- The ranks and rules of what is found on a node, in order. -/
def rankedMatches (cascade : Cascade) (surroundings : Surroundings) (node : Node) :
    Except StyleError (List (Specificity × Rule)) :=
  (cascade.matchesOf surroundings node).map (·.map ranked)

/-- Nodes that look alike and that the same selectors select are matched by the same rules in
the same order, or matching fails on both alike. -/
theorem rankedMatches_eq_of_selects (cascade : Cascade) (like : first.Like second)
    (selected : ∀ selector : Selector,
      selector.selects left first = selector.selects right second) :
    cascade.rankedMatches left first = cascade.rankedMatches right second := by
  have lacks : lacksRule cascade.sheet left first = lacksRule cascade.sheet right second := by
    funext entry
    rw [lacksRule, lacksRule, selected]
  have found : found? cascade.sheet left first = found? cascade.sheet right second := by
    funext entry
    rw [found?, found?, selected]
  cases kept : cascade.set with
  | error excess => rw [rankedMatches, rankedMatches, matchesOf_eq, matchesOf_eq, kept]
  | ok set =>
      have candidates := set.candidatesFor_perm like
      have complete :
          (set.candidatesFor first.identity).any (lacksRule cascade.sheet right second) =
            (set.candidatesFor second.identity).any (lacksRule cascade.sheet right second) :=
        candidates.any_eq
      cases missing : (set.candidatesFor second.identity).any
          (lacksRule cascade.sheet right second) with
      | true =>
          simp only [rankedMatches, matchesOf_eq, kept, lacks, complete, missing, if_true]
      | false =>
          have present := complete.trans missing
          rw [← lacks] at present
          have one := matchesOf_of_complete kept present
          have other := matchesOf_of_complete kept missing
          rw [rankedMatches, rankedMatches, one, other]
          refine congrArg Except.ok (ranked_eq_of_perm other ?_ (pairwise_matchesOf one))
          rw [sortedMatches, sortedMatches, found]
          exact (List.mergeSort_perm _ _).trans
            ((candidates.filterMap _).trans (List.mergeSort_perm _ _).symm)

/-- Related nodes are matched by the same rules in the same order. -/
theorem rankedMatches_eq (cascade : Cascade)
    (resemble : Surroundings.Resemble left right Related) (related : Related first second) :
    cascade.rankedMatches left first = cascade.rankedMatches right second :=
  cascade.rankedMatches_eq_of_selects (resemble.like related) fun selector =>
    Selector.selects_eq resemble selector related

/-! ## Styles -/

theorem declarationsOf_eq_of_ranked {important : Bool} {matched matched' : List RuleMatch}
    (same : matched.map ranked = matched'.map ranked) :
    declarationsOf important matched = declarationsOf important matched' := by
  have through : ∀ entries : List RuleMatch, declarationsOf important entries =
      (entries.map ranked).flatMap fun entry =>
        entry.2.declarations.filter fun declaration => declaration.important == important := by
    intro entries
    rw [List.flatMap_map]
    rfl
  rw [through, through, same]

/-- Nodes with the same inline style that are matched by the same rules in the same order are
styled alike from the same start. -/
theorem styleFrom_eq_of_ranked {cascade : Cascade}
    (matched : cascade.rankedMatches left first = cascade.rankedMatches right second)
    (inlineStyles : first.inlineStyle = second.inlineStyle) (base : Style) :
    cascade.styleFrom base left first = cascade.styleFrom base right second := by
  rw [rankedMatches, rankedMatches] at matched
  rw [styleFrom, styleFrom, inlineStyles]
  cases one : cascade.matchesOf left first with
  | error error =>
      rw [one] at matched
      rw [error_of_map_eq_error matched.symm]
  | ok found =>
      rw [one] at matched
      obtain ⟨other, same, ranks⟩ := exists_of_map_eq_ok matched.symm
      rw [same]
      simp only [declarationsOf_eq_of_ranked ranks]

/-- Related nodes with the same inline style are styled alike from the same
start. -/
theorem styleFrom_eq (cascade : Cascade) (resemble : Surroundings.Resemble left right Related)
    (related : Related first second) (inlineStyles : first.inlineStyle = second.inlineStyle)
    (base : Style) :
    cascade.styleFrom base left first = cascade.styleFrom base right second :=
  styleFrom_eq_of_ranked (cascade.rankedMatches_eq resemble related) inlineStyles base

end Cascade

end WidgetStyle
