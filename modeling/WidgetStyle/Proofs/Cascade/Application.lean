import WidgetStyle.Proofs.Cascade.Pruning
import WidgetStyle.Proofs.Style.Writing

/-!
# Applying declarations

A declaration has a value for a slot or none, or it fails, and this does not depend
on the style that it is applied to.  So declarations applied one after the other leave
in a slot the value of the last one that has one for it, and they fail when one of
them does.  A node is styled by the declarations of the rules whose selectors select
it, and by no others; no node is styled by a sheet whose selectors cannot be read.
-/

namespace WidgetStyle

/-! ## One declaration -/

namespace Declaration

/-- What the declaration assigns, nothing when it does not apply. -/
def assignments? (bindings : Variables) (declaration : Declaration) :
    Except StyleError (Option (List Assignment)) :=
  declarationAssignments? declaration.property declaration.value bindings

/-- The declaration cannot be applied, and styling stops at it. -/
def Fails (bindings : Variables) (declaration : Declaration) : Prop :=
  ∃ error, declaration.assignments? bindings = .error error

instance (bindings : Variables) (declaration : Declaration) :
    Decidable (declaration.Fails bindings) :=
  match read : declaration.assignments? bindings with
  | .error error => isTrue ⟨error, read⟩
  | .ok _ => isFalse fun ⟨_, failed⟩ => by rw [read] at failed; cases failed

/-- The value that the declaration writes into a slot, if it applies and governs the
slot. -/
def valueFor? (bindings : Variables) (slot : Slot) (declaration : Declaration) :
    Option slot.Value :=
  match declaration.assignments? bindings with
  | .ok (some assignments) => (assignments.filterMap (·.valueFor? slot)).getLast?
  | .ok none | .error _ => none

end Declaration

namespace Cascade

variable {bindings : Variables} {style after : Style} {declaration : Declaration}

theorem apply_eq_map (bindings : Variables) (style : Style) (declaration : Declaration) :
    apply bindings style declaration =
      (declaration.assignments? bindings).map fun assignments =>
        (assignments.map style.assignAll).getD style := by
  rw [apply, Style.declare?, Declaration.assignments?]
  cases declarationAssignments? declaration.property declaration.value bindings <;> rfl

theorem read_apply (done : apply bindings style declaration = .ok after) (slot : Slot) :
    after.read slot = (declaration.valueFor? bindings slot).getD (style.read slot) := by
  rw [apply_eq_map] at done
  rcases exists_of_map_eq_ok done with ⟨assignments, read, rfl⟩
  rw [Declaration.valueFor?, read]
  cases assignments with
  | none => rfl
  | some assignments => exact style.read_assignAll assignments slot

theorem apply_fails_iff :
    (∃ error, apply bindings style declaration = .error error) ↔ declaration.Fails bindings := by
  rw [apply_eq_map, Declaration.Fails]
  cases declaration.assignments? bindings with
  | error error => simp [Except.map]
  | ok assignments => simp [Except.map]

/-! ## Declarations in order -/

/-- Of the declarations with a value for a slot the last one counts. -/
theorem read_applyAll {declarations : List Declaration}
    (done : applyAll bindings style declarations = .ok after) (slot : Slot) :
    after.read slot =
      ((declarations.filterMap (·.valueFor? bindings slot)).getLast?).getD (style.read slot) := by
  induction declarations generalizing style with
  | nil =>
      cases done
      rfl
  | cons declaration rest ih =>
      rw [applyAll] at done
      split at done
      · cases done
      · rename_i next applied
        rw [ih done, read_apply applied, List.filterMap_cons]
        cases declaration.valueFor? bindings slot with
        | none => rfl
        | some value =>
            rw [List.getLast?_cons]
            cases (rest.filterMap (·.valueFor? bindings slot)).getLast? <;> rfl

theorem applyAll_fails_iff {declarations : List Declaration} :
    (∃ error, applyAll bindings style declarations = .error error) ↔
      ∃ declaration ∈ declarations, declaration.Fails bindings := by
  induction declarations generalizing style with
  | nil => simp [applyAll]
  | cons declaration rest ih =>
      rw [applyAll, List.exists_mem_cons_iff, ← @apply_fails_iff bindings style]
      cases applied : apply bindings style declaration with
      | error error => simp
      | ok next => simp [ih]

end Cascade

/-! ## The declarations of a node -/

/-- A rule that makes the declaration has a selector that selects the node. -/
def Sheet.Declares (sheet : Sheet) (surroundings : Surroundings) (node : Node)
    (declaration : Declaration) : Prop :=
  ∃ read, sheet.readSelectors = .ok read ∧
    ∃ entry ∈ read.1, entry.selector.selects surroundings node = true ∧
      ∃ rule, sheet.rules[entry.rule]? = some rule ∧ declaration ∈ rule.declarations

theorem Sheet.Declares.exists_rule {sheet : Sheet} {surroundings : Surroundings} {node : Node}
    {declaration : Declaration} (declares : sheet.Declares surroundings node declaration) :
    ∃ rule ∈ sheet.rules, declaration ∈ rule.declarations := by
  rcases declares with ⟨read, -, entry, -, -, rule, listed, member⟩
  exact ⟨rule, List.mem_of_getElem? listed, member⟩

namespace Cascade

variable {sheet : Sheet} {config : Config} {surroundings : Surroundings} {node : Node}
  {declaration : Declaration}

theorem mem_declarationsOf_iff {important : Bool} {matched : List RuleMatch} :
    declaration ∈ declarationsOf important matched ↔
      declaration.important = important ∧
        ∃ found ∈ matched, declaration ∈ found.rule.declarations := by
  simp only [declarationsOf, List.mem_flatMap, List.mem_filter, beq_iff_eq]
  constructor
  · rintro ⟨found, member, listed, same⟩
    exact ⟨same, found, member, listed⟩
  · rintro ⟨same, found, member, listed⟩
    exact ⟨found, member, listed, same⟩

theorem found?_eq_some_iff {entry : RuleSelector} {found : RuleMatch} :
    found? sheet surroundings node entry = some found ↔
      entry.selector.selects surroundings node = true ∧ RuleMatch.IsOf sheet entry found := by
  rw [found?]
  split
  · rename_i selected
    simp only [selected, true_and, Option.map_eq_some_iff]
    constructor
    · rintro ⟨rule, listed, rfl⟩
      exact ⟨rfl, listed, rfl⟩
    · rintro ⟨selector, listed, specificity⟩
      rcases found with ⟨own, rule, rank⟩
      cases selector
      cases specificity
      exact ⟨rule, listed, rfl⟩
  · rename_i unselected
    simp [unselected]

/-- Where a node is matched, the selectors of the sheet have been read. -/
theorem readable_of_matchesOf {matched : List RuleMatch}
    (done : (ofSheet sheet config).matchesOf surroundings node = .ok matched) :
    sheet.excess? = none := by
  cases readable : sheet.excess? with
  | none => rfl
  | some excess =>
      rw [matchesOf_of_excess readable] at done
      cases done

/-- A match comes from a selector of the sheet that selects the node. -/
theorem mem_matchesOf_iff {matched : List RuleMatch} {found : RuleMatch}
    (done : (ofSheet sheet config).matchesOf surroundings node = .ok matched) :
    found ∈ matched ↔
      ∃ entry ∈ sheet.active, entry.selector.selects surroundings node = true ∧
        RuleMatch.IsOf sheet entry found := by
  rcases matchesOf_ofSheet (readable_of_matchesOf done) config surroundings node with
    ⟨matched, again, same⟩
  rw [done] at again
  cases again
  simp only [same.mem_iff, List.mem_filterMap, found?_eq_some_iff]

theorem declares_iff {matched : List RuleMatch}
    (done : (ofSheet sheet config).matchesOf surroundings node = .ok matched) :
    sheet.Declares surroundings node declaration ↔
      ∃ found ∈ matched, declaration ∈ found.rule.declarations := by
  constructor
  · rintro ⟨read, done', entry, member, selected, rule, listed, declared⟩
    rw [(Sheet.readSelectors_eq_ok_iff.mp done').2] at member
    refine ⟨⟨entry.selector, rule, .ofSelector entry.selector entry.rule⟩, ?_, declared⟩
    exact (mem_matchesOf_iff done).mpr ⟨entry, member, selected, rfl, listed, rfl⟩
  · rintro ⟨found, matched, declared⟩
    rcases (mem_matchesOf_iff done).mp matched with ⟨entry, member, selected, isOf⟩
    exact ⟨_, Sheet.readSelectors_eq_ok_iff.mpr ⟨readable_of_matchesOf done, rfl⟩, entry, member,
      selected, found.rule, isOf.rule, declared⟩

/-- Of a matched node exactly what is declared for it is applied, in one of two turns. -/
theorem applyAll_declarationsOf_fails_iff {matched : List RuleMatch}
    (done : (ofSheet sheet config).matchesOf surroundings node = .ok matched)
    (important : Bool) (style : Style) :
    (∃ error, applyAll sheet.bindings style (declarationsOf important matched) = .error error) ↔
      ∃ declaration, (sheet.Declares surroundings node declaration ∧
        declaration.Fails sheet.bindings) ∧ declaration.important = important := by
  rw [applyAll_fails_iff]
  simp only [mem_declarationsOf_iff, ← declares_iff done]
  constructor
  · rintro ⟨declaration, ⟨same, declares⟩, fails⟩
    exact ⟨declaration, ⟨declares, fails⟩, same⟩
  · rintro ⟨declaration, ⟨declares, fails⟩, same⟩
    exact ⟨declaration, ⟨same, declares⟩, fails⟩

/-- A node cannot be styled exactly when the selectors of the sheet cannot be read or a
declaration that it is styled by fails, whatever it starts from. -/
theorem styleFrom_fails_iff (base : Style) :
    (∃ error, (ofSheet sheet config).styleFrom base surroundings node = .error error) ↔
      (∃ excess, sheet.readSelectors = .error excess) ∨
        ∃ declaration, sheet.Declares surroundings node declaration ∧
          declaration.Fails sheet.bindings := by
  cases readable : sheet.excess? with
  | some excess =>
      refine iff_of_true ?_ (.inl ⟨excess, Sheet.readSelectors_eq_error_iff.mpr readable⟩)
      rw [styleFrom, matchesOf_of_excess readable]
      exact ⟨_, rfl⟩
  | none =>
      have read := Sheet.readSelectors_eq_ok_iff.mpr ⟨readable, rfl⟩
      rcases matchesOf_ofSheet readable config surroundings node with ⟨matched, done, -⟩
      have among := applyAll_declarationsOf_fails_iff done
      rw [styleFrom, done, read]
      constructor
      · rintro ⟨error, failed⟩
        right
        simp only at failed
        split at failed
        · rename_i early
          rcases (among false base).mp ⟨_, early⟩ with ⟨declaration, failing, -⟩
          exact ⟨declaration, failing⟩
        · rcases (among true _).mp ⟨_, failed⟩ with ⟨declaration, failing, -⟩
          exact ⟨declaration, failing⟩
      · rintro (⟨excess, failed⟩ | ⟨declaration, failing⟩)
        · cases failed
        · simp only
          split
          · exact ⟨_, rfl⟩
          · rename_i normal applied
            cases important : declaration.important with
            | true => exact (among true _).mpr ⟨declaration, failing, important⟩
            | false =>
                rcases (among false base).mpr ⟨declaration, failing, important⟩ with
                  ⟨error, failed⟩
                cases applied.symm.trans failed

end Cascade

end WidgetStyle
