import WidgetStyle.Cascade.SelectorSet
import WidgetStyle.Config
import WidgetStyle.Matching.Selector
import WidgetStyle.Selector.Specificity
import WidgetStyle.Style.Property

/-!
# The cascade

The style of a node against a sheet.  From the style it starts with, the node is
styled by the normal declarations of the rules that match it, then by its inline
style, then by the important declarations of the same rules.  Both times rules
are applied by ascending specificity, so the last word is with the greatest.
-/

namespace WidgetStyle

/-- A rule with one of its selectors that matches, and the rank of the match. -/
structure RuleMatch where
  selector : Selector
  rule : Rule
  specificity : Specificity
deriving DecidableEq, Repr

/-- A sheet with its selectors, ready to style nodes unless the selectors could not
be read.  They may have been read earlier, but refer to rules by their places in
the sheet as it is now. -/
structure Cascade where
  sheet : Sheet
  config : Config
  set : Except Text.TooManyDigits SelectorSet

namespace Cascade

/-- The cascade of a sheet with all its selectors. -/
def ofSheet (sheet : Sheet) (config : Config) : Cascade :=
  { sheet, config, set := SelectorSet.ofSheet sheet }

/-- What there is to report when the selectors of the sheet are read. -/
def reports (sheet : Sheet) (config : Config) : Except Text.TooManyDigits (List String) :=
  sheet.readSelectors.map fun (_, dropped) =>
    if config.reportsUnreadable then dropped.map UnreadableRule.message else []

/-- The match of a selector, if it selects the node.  Its rule must be there. -/
def matchOf? (sheet : Sheet) (surroundings : Surroundings) (node : Node)
    (entry : RuleSelector) : Except StyleError (Option RuleMatch) :=
  if entry.selector.selects surroundings node then
    match sheet.rules[entry.rule]? with
    | none => .error .missingRule
    | some rule =>
        .ok (some
          { selector := entry.selector
            rule
            specificity := .ofSelector entry.selector entry.rule })
  else .ok none

/-- The matches of some selectors in order, unless one of them lacks its rule. -/
def matchesAmong (sheet : Sheet) (surroundings : Surroundings) (node : Node) :
    List RuleSelector → Except StyleError (List RuleMatch)
  | [] => .ok []
  | entry :: rest =>
      match matchOf? sheet surroundings node entry with
      | .error error => .error error
      | .ok found =>
          (matchesAmong sheet surroundings node rest).map fun later => found.toList ++ later

/-- The matches of a node, by ascending specificity. -/
def matchesOf (cascade : Cascade) (surroundings : Surroundings) (node : Node) :
    Except StyleError (List RuleMatch) :=
  match cascade.set with
  | .error excess => .error (.tooManyDigits excess)
  | .ok set =>
      (matchesAmong cascade.sheet surroundings node (set.candidatesFor node.identity)).map
        fun found => found.mergeSort fun left right =>
          left.specificity.atMost right.specificity

/-- The style after a declaration; one that does not apply leaves it alone. -/
def apply (bindings : Variables) (style : Style) (declaration : Declaration) :
    Except StyleError Style :=
  (style.declare? declaration.property declaration.value bindings).map fun result =>
    result.getD style

/-- The style after some declarations in order. -/
def applyAll (bindings : Variables) (style : Style) :
    List Declaration → Except StyleError Style
  | [] => .ok style
  | declaration :: rest =>
      match apply bindings style declaration with
      | .error error => .error error
      | .ok next => applyAll bindings next rest

/-- The declarations of some matches in order, either the important ones or the
others. -/
def declarationsOf (important : Bool) (matched : List RuleMatch) : List Declaration :=
  matched.flatMap fun entry =>
    entry.rule.declarations.filter fun declaration => declaration.important == important

/-- The style after a node's inline style, if it has one. -/
def overlayInline (style : Style) (inlineStyle : Option Style) : Style :=
  match inlineStyle with
  | some other => style.overlay other
  | none => style

/-- The style of a node that starts from `base`. -/
def styleFrom (cascade : Cascade) (base : Style) (surroundings : Surroundings) (node : Node) :
    Except StyleError Style :=
  match cascade.matchesOf surroundings node with
  | .error error => .error error
  | .ok matched =>
      let bindings := cascade.sheet.bindings
      match applyAll bindings base (declarationsOf false matched) with
      | .error error => .error error
      | .ok normal =>
          applyAll bindings (overlayInline normal node.inlineStyle) (declarationsOf true matched)

/-- The style of a node by itself. -/
def styleOf (cascade : Cascade) (surroundings : Surroundings) (node : Node) :
    Except StyleError Style :=
  cascade.styleFrom {} surroundings node

/-- What a node starts from, given the style of its parent if there is one. -/
def baseStyle (cascade : Cascade) (parentStyle : Option Style) : Style :=
  match parentStyle with
  | some parent => parent.inherit cascade.config.inheritedFields
  | none => {}

/-- The style of a node that inherits from the style of its parent. -/
def styleBelow (cascade : Cascade) (parentStyle : Option Style)
    (surroundings : Surroundings) (node : Node) : Except StyleError Style :=
  cascade.styleFrom (cascade.baseStyle parentStyle) surroundings node

end Cascade

end WidgetStyle
