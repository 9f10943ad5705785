import WidgetStyle.Cascade.TargetIndex
import WidgetStyle.Selector.Group
import WidgetStyle.Sheet.Basic
import WidgetStyle.Text.Quoted

/-!
# Selectors of a sheet

The selector groups of all rules, read in order.  A group may hold several
selectors, each of which stands for the rule.  A rule whose group cannot be read
drops out of the cascade as a whole and is reported.  A number with too many
digits is not taken for a fault of its rule, and stops the reading of the sheet.
-/

namespace WidgetStyle

/-- A selector with the place of its rule in the sheet. -/
structure RuleSelector where
  selector : Selector
  rule : Nat
deriving DecidableEq, Repr

/-- A rule that drops out because its selector text cannot be read. -/
structure UnreadableRule where
  rule : Nat
  text : String
  error : SelectorError
deriving DecidableEq, Repr

namespace UnreadableRule

/-- The report of a dropped rule. -/
def message (dropped : UnreadableRule) : String :=
  "Dropping rule " ++ toString dropped.rule ++ ": invalid selector " ++
    Text.quotedString dropped.text ++ " (" ++ dropped.error.message ++ ")"

end UnreadableRule

namespace Sheet

/-- The selectors of some rules, the first of which is at the given place, and
the rules among them that drop out. -/
def readRules (place : Nat) :
    List Rule → Except Text.TooManyDigits (List RuleSelector × List UnreadableRule)
  | [] => .ok ([], [])
  | rule :: rest =>
      match Selector.parseGroup rule.selector with
      | .error (.excess excess) => .error excess
      | .error (.refused error) =>
          (readRules (place + 1) rest).map fun (selectors, dropped) =>
            (selectors, ⟨place, rule.selector, error⟩ :: dropped)
      | .ok group =>
          (readRules (place + 1) rest).map fun (selectors, dropped) =>
            (group.map (fun selector => ⟨selector, place⟩) ++ selectors, dropped)

/-- The selectors of the sheet and the rules that drop out, both in the order of
the rules. -/
def readSelectors (sheet : Sheet) :
    Except Text.TooManyDigits (List RuleSelector × List UnreadableRule) :=
  readRules 0 sheet.rules

end Sheet

/-- Selectors that have been read, with their index. -/
structure SelectorSet where
  selectors : List RuleSelector
  index : TargetIndex := .ofSelectors (selectors.map (·.selector))
  index_eq : index = .ofSelectors (selectors.map (·.selector)) := by rfl

namespace SelectorSet

/-- The set of the given selectors. -/
def ofSelectors (selectors : List RuleSelector) : SelectorSet :=
  { selectors }

/-- The set of all selectors of a sheet. -/
def ofSheet (sheet : Sheet) : Except Text.TooManyDigits SelectorSet :=
  sheet.readSelectors.map fun (selectors, _) => ofSelectors selectors

/-- The selectors that may select a node of the given identity. -/
def candidatesFor (set : SelectorSet) (identity : Identity) : List RuleSelector :=
  (set.index.positionsFor identity).filterMap fun position => set.selectors[position]?

/-- The number of selectors. -/
def size (set : SelectorSet) : Nat :=
  set.selectors.length

end SelectorSet

end WidgetStyle
