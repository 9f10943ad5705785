import WidgetStyle.Proofs.Cascade.Activity
import WidgetStyle.Proofs.Cascade.Agreement
import WidgetStyle.Proofs.Cascade.Filing
import WidgetStyle.Proofs.Selector.Names

/-!
# Pruning by the index

The selectors that the index leaves out could not have selected the node: a target
that a node meets goes by a name that the node has, or by none.  Selectors that were
read ask for no empty name, so this covers the empty element id, by which no node is
looked up.  Hence matching finds what trying all selectors one by one finds, each
match once.
-/

namespace WidgetStyle

variable {surroundings : Surroundings} {node : Node}

/-! ## Targets and their keys -/

/-- A node that meets a target has the name that the target goes by. -/
theorem Compound.fits_filingKey {compound : Compound} (named : compound.Named)
    (met : compound.holdsOf node = true) : compound.filingKey.Fits node.identity := by
  simp only [holdsOf, Bool.and_eq_true] at met
  rcases met with ⟨⟨⟨⟨element, id⟩, classes⟩, -⟩, -⟩
  rw [filingKey]
  split
  · rename_i name asked
    rw [asked] at id
    have inhabited := named.id
    rw [asked] at inhabited
    exact ⟨by simpa using id, fun empty => inhabited (congrArg some empty)⟩
  · rename_i name _ asked
    rw [asked] at element
    simpa [FilingKey.Fits] using element
  · rename_i name others _ _ asked
    rw [asked] at classes
    have first := List.all_eq_true.mp classes name List.mem_cons_self
    simpa [FilingKey.Fits, Identity.hasClass] using first
  · exact trivial

namespace Selector

variable {selector : Selector}

/-- A selected node meets the target. -/
theorem exists_target_of_selects (selected : selector.selects surroundings node = true) :
    ∃ target, selector.target? = some target ∧ target.holdsOf node = true := by
  rw [selects] at selected
  split at selected
  · cases selected
  · rename_i target before backwards
    refine ⟨target.compound, ?_, ?_⟩
    · rw [target?, ← List.head?_reverse, backwards]
      rfl
    · cases before with
      | nil => exact selected
      | cons link before =>
          rw [matchesFrom, Bool.and_eq_true] at selected
          exact selected.1

theorem exists_filingKey_of_selects (named : selector.Named)
    (selected : selector.selects surroundings node = true) :
    ∃ key, selector.filingKey? = some key ∧ key.Fits node.identity := by
  rcases exists_target_of_selects selected with ⟨target, last, met⟩
  refine ⟨target.filingKey, ?_, Compound.fits_filingKey (named.target last) met⟩
  rw [filingKey?, last, Option.map_some]

end Selector

/-! ## Selectors of a sheet -/

namespace Sheet

variable {sheet : Sheet} {entry : RuleSelector}

theorem exists_group_of_mem_active (member : entry ∈ sheet.active) :
    ∃ rule group, sheet.rules[entry.rule]? = some rule ∧
      Selector.parseGroup rule.selector = .ok group ∧ entry.selector ∈ group := by
  rcases List.mem_flatMap.mp member with ⟨⟨rule, place⟩, listed, given⟩
  have there := List.mk_mem_zipIdx_iff_getElem?.mp listed
  simp only [Rule.active] at given
  split at given
  · rename_i group read
    rcases List.mem_map.mp given with ⟨selector, chosen, rfl⟩
    exact ⟨rule, group, there, read, chosen⟩
  · cases given

/-- A selector of a sheet stands for one of its rules, and asks for no empty name. -/
theorem rule_of_mem_active (member : entry ∈ sheet.active) :
    (∃ rule, sheet.rules[entry.rule]? = some rule) ∧ entry.selector.Named := by
  rcases exists_group_of_mem_active member with ⟨rule, group, listed, read, chosen⟩
  exact ⟨⟨rule, listed⟩, Selector.named_of_mem_parseGroup read chosen⟩

end Sheet

/-! ## Matches -/

/-- The match is the one of a selector of the sheet, with its rule and its rank. -/
structure RuleMatch.IsOf (sheet : Sheet) (entry : RuleSelector) (found : RuleMatch) : Prop where
  selector : found.selector = entry.selector
  rule : sheet.rules[entry.rule]? = some found.rule
  specificity : found.specificity = .ofSelector entry.selector entry.rule

namespace Cascade

variable {sheet : Sheet} {config : Config} {excess : Text.TooManyDigits}

theorem set_ofSheet (readable : sheet.excess? = none) :
    (ofSheet sheet config).set = .ok (.ofSelectors sheet.active) := by
  rw [ofSheet, SelectorSet.ofSheet, Sheet.readSelectors_eq_ok_iff.mpr ⟨readable, rfl⟩]
  rfl

theorem set_ofSheet_of_excess (fails : sheet.excess? = some excess) :
    (ofSheet sheet config).set = .error excess := by
  rw [ofSheet, SelectorSet.ofSheet, Sheet.readSelectors_eq_error_iff.mpr fails]
  rfl

theorem matchesOf_of_excess (fails : sheet.excess? = some excess) :
    (ofSheet sheet config).matchesOf surroundings node = .error (.tooManyDigits excess) := by
  rw [matchesOf, set_ofSheet_of_excess fails]

theorem filterMap_range_eq {Member Result : Type} (members : List Member)
    (change : Member → Option Result) :
    ((List.range members.length).filterMap fun place => members[place]?.bind change) =
      members.filterMap change := by
  induction members with
  | nil => rfl
  | cons first rest ih =>
      rw [List.length_cons, List.range_succ_eq_map, List.filterMap_cons, List.filterMap_cons,
        List.filterMap_map, ← ih]
      rfl

theorem perm_filterMap {Result : Type} {left right : List Nat} {change : Nat → Option Result}
    (leftDistinct : left.Nodup) (rightDistinct : right.Nodup)
    (same : ∀ member, (change member).isSome = true → (member ∈ left ↔ member ∈ right)) :
    (left.filterMap change).Perm (right.filterMap change) := by
  have narrowed : ∀ members : List Nat,
      members.filterMap change =
        (members.filter fun member => (change member).isSome).filterMap change := by
    intro members
    rw [List.filterMap_filter]
    apply List.filterMap_congr
    intro member _
    cases change member <;> rfl
  rw [narrowed left, narrowed right]
  apply List.Perm.filterMap
  apply (List.perm_ext_iff_of_nodup (leftDistinct.filter _) (rightDistinct.filter _)).mpr
  intro member
  simp only [List.mem_filter]
  constructor
  · rintro ⟨listed, some⟩
    exact ⟨(same member some).mp listed, some⟩
  · rintro ⟨listed, some⟩
    exact ⟨(same member some).mpr listed, some⟩

/-- Every selector that selects a node is among those that the index gives. -/
theorem mem_positionsFor_of_found? {entries : List RuleSelector} {position : Nat}
    (named : ∀ entry ∈ entries, entry.selector.Named)
    (found : (entries[position]?.bind (found? sheet surroundings node)).isSome = true) :
    position ∈ (SelectorSet.ofSelectors entries).index.positionsFor node.identity ∧
      position < entries.length := by
  cases listed : entries[position]? with
  | none =>
      rw [listed] at found
      cases found
  | some entry =>
      have inside := (List.getElem?_eq_some_iff.mp listed).1
      rw [listed, Option.bind_some, found?] at found
      split at found
      · rename_i selected
        rcases Selector.exists_filingKey_of_selects (named entry (List.mem_of_getElem? listed))
          selected with ⟨key, filed, fits⟩
        refine ⟨(TargetIndex.mem_positionsFor_iff _).mpr ⟨key, fits, ?_⟩, inside⟩
        apply TargetIndex.mem_positionsAt_ofSelectors_iff.mpr
        refine ⟨entry.selector, ?_, filed⟩
        rw [List.getElem?_map]
        exact congrArg (Option.map _) listed
      · cases found

/-- What is tried with the index gives the matches of all selectors. -/
theorem sortedMatches_candidatesFor_perm {entries : List RuleSelector}
    (named : ∀ entry ∈ entries, entry.selector.Named) :
    (sortedMatches sheet surroundings node
        ((SelectorSet.ofSelectors entries).candidatesFor node.identity)).Perm
      (entries.filterMap (found? sheet surroundings node)) := by
  rw [sortedMatches, SelectorSet.candidatesFor, List.filterMap_filterMap,
    ← filterMap_range_eq entries]
  refine (List.mergeSort_perm _ _).trans (perm_filterMap (eraseDups_nodup _) List.nodup_range ?_)
  intro position found
  have both := mem_positionsFor_of_found? named found
  rw [List.mem_range]
  exact iff_of_true both.1 both.2

theorem mem_of_mem_candidatesFor {entries : List RuleSelector} {entry : RuleSelector}
    {identity : Identity}
    (member : entry ∈ (SelectorSet.ofSelectors entries).candidatesFor identity) :
    entry ∈ entries := by
  rcases List.mem_filterMap.mp member with ⟨position, -, listed⟩
  exact List.mem_of_getElem? listed

theorem any_lacksRule_eq_false {entries : List RuleSelector}
    (ruled : ∀ entry ∈ entries, ∃ rule, sheet.rules[entry.rule]? = some rule) :
    entries.any (lacksRule sheet surroundings node) = false := by
  rw [List.any_eq_false]
  intro entry member
  rcases ruled entry member with ⟨rule, found⟩
  rw [lacksRule, found, Option.isNone_some, Bool.and_false]
  exact Bool.false_ne_true

/-- Unless the reading of a sheet fails, no node fails to be matched, and what is found on it
are the matches of all selectors of the sheet. -/
theorem matchesOf_ofSheet (readable : sheet.excess? = none) (config : Config)
    (surroundings : Surroundings) (node : Node) :
    ∃ matched, (ofSheet sheet config).matchesOf surroundings node = .ok matched ∧
      matched.Perm (sheet.active.filterMap (found? sheet surroundings node)) := by
  refine ⟨_, matchesOf_of_complete (set_ofSheet readable) (any_lacksRule_eq_false ?_),
    sortedMatches_candidatesFor_perm ?_⟩
  · exact fun entry member =>
      (Sheet.rule_of_mem_active (mem_of_mem_candidatesFor member)).1
  · exact fun entry member => (Sheet.rule_of_mem_active member).2

/-- Every selector that selects the node has a match, which has its rule and its
rank. -/
theorem forall₂_isOf (surroundings : Surroundings) (node : Node) {entries : List RuleSelector}
    (ruled : ∀ entry ∈ entries, ∃ rule, sheet.rules[entry.rule]? = some rule) :
    List.Forall₂ (RuleMatch.IsOf sheet)
      (entries.filter fun entry => entry.selector.selects surroundings node)
      (entries.filterMap (found? sheet surroundings node)) := by
  induction entries with
  | nil => exact .nil
  | cons entry rest ih =>
      rw [List.forall_mem_cons] at ruled
      rcases ruled with ⟨⟨rule, found⟩, later⟩
      rw [List.filter_cons, List.filterMap_cons, found?]
      split
      · simp only [found, Option.map_some]
        exact .cons ⟨rfl, found, rfl⟩ (ih later)
      · exact ih later

end Cascade

end WidgetStyle
