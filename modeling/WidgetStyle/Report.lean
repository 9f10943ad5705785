import WidgetStyle.Cascade.SelectorSet
import WidgetStyle.Selector.Render
import WidgetStyle.Selector.Specificity
import WidgetStyle.Sheet.Reader
import WidgetStyle.Style.Property
import WidgetStyle.Text.ControlSequence

/-!
# Reports on sheets

The two reports that the command line gives on a sheet: a validation lists rules
and properties without effect, and an inspection lists the selectors by rank.  A
report is a text with an exit code; a sheet that cannot be read is reported as
an error instead.  A number with too many digits in a selector leaves no report.
-/

namespace WidgetStyle

/-- What a command prints, and the code it exits with. -/
structure Outcome where
  exitCode : Nat
  output : String
  errors : String
deriving DecidableEq, Repr

namespace Report

/-- The name of the program. -/
def programName : String := "widgetcss"

/-- The version of the program. -/
def version : String := "0.3.0"

/-- The line that tells the version. -/
def versionLine : String :=
  programName ++ ", version " ++ version ++ "\n"

/-- The text with every kind of line break turned into a single one. -/
def unifyLineBreaks : List Char → List Char
  | [] => []
  | '\r' :: '\n' :: rest => '\n' :: unifyLineBreaks rest
  | '\r' :: rest => '\n' :: unifyLineBreaks rest
  | character :: rest => character :: unifyLineBreaks rest

/-- The lines as they are printed, each with a line break after it.  Control
sequences are dropped, since the output need not be a terminal. -/
def printLines (lines : List String) : String :=
  String.ofList (Text.dropControlSequences (String.join (lines.map (· ++ "\n"))).toList)

/-- The outcome for a sheet that cannot be read. -/
def failure (error : SheetError) : Outcome where
  exitCode := 1
  output := ""
  errors :=
    match error with
    | .malformed _ _ => error.message
    | .invalidVariable _ => printLines ["Parse error: " ++ error.message]

/-! ## Validation -/

/-- A dropped rule as an error. -/
def errorLine (dropped : UnreadableRule) : String :=
  "error: rule " ++ toString dropped.rule ++ " '" ++ dropped.text ++ "': " ++
    dropped.error.message

/-- Whether a declaration names a property that there is. -/
def isKnownProperty (declaration : Declaration) : Bool :=
  Property.supported.contains (Text.lowerString declaration.property)

/-- The declarations of a rule that name no property there is, as warnings. -/
def warningLines (place : Nat) (rule : Rule) : List String :=
  (rule.declarations.filter fun declaration => !isKnownProperty declaration).map
    fun declaration =>
      "warning: rule " ++ toString place ++ " '" ++ rule.selector ++
        "': unknown property '" ++ declaration.property ++ "'"

/-- The report on a sheet under its name.  Rules that drop out are errors, and
properties that there are not are warnings; only errors make it fail. -/
def validation (name : String) (sheet : Sheet) : Except Text.TooManyDigits Outcome :=
  sheet.readSelectors.map fun (_, dropped) =>
    let errors := dropped.map errorLine
    let warnings := sheet.rules.zipIdx.flatMap fun entry => warningLines entry.2 entry.1
    if errors.isEmpty && warnings.isEmpty then
      { exitCode := 0
        output := printLines
          ["OK: " ++ name ++ " is valid (" ++ toString sheet.rules.length ++ " rules)"]
        errors := "" }
    else
      { exitCode := if errors.isEmpty then 0 else 1
        output := printLines (errors ++ warnings ++
          ["", "Summary: " ++ toString errors.length ++ " error(s), " ++
            toString warnings.length ++ " warning(s)"])
        errors := "" }

/-! ## Inspection -/

/-- The selectors of a sheet by ascending rank. -/
def rankedSelectors (selectors : List RuleSelector) : List RuleSelector :=
  selectors.mergeSort fun left right =>
    (Specificity.ofSelector left.selector left.rule).atMost
      (Specificity.ofSelector right.selector right.rule)

/-- A selector with its weight and what there is in its rule. -/
def selectorLine (sheet : Sheet) (entry : RuleSelector) : Except Text.TooManyDigits String :=
  let weight := entry.selector.weight
  let declarations := (sheet.rules[entry.rule]?.map (·.declarations)).getD []
  let important := (declarations.filter (·.important)).length
  entry.selector.toText.map fun text =>
    "  (" ++ toString weight.ids ++ "," ++ toString weight.classes ++ "," ++
      toString weight.types ++ ")  " ++ text ++ "  rule=" ++
      toString entry.rule ++ "  declarations=" ++ toString declarations.length ++
      (if important = 0 then "" else "  important=" ++ toString important)

/-- A dropped rule at the end of an inspection. -/
def droppedLine (dropped : UnreadableRule) : String :=
  "  rule=" ++ toString dropped.rule ++ "  '" ++ dropped.text ++ "': " ++
    dropped.error.message

/-- The report on a sheet under its name: its size, its variables, its selectors
in the order in which the cascade applies them, and the rules that drop out. -/
def inspection (name : String) (sheet : Sheet) : Except Text.TooManyDigits Outcome := do
  let (selectors, dropped) ← sheet.readSelectors
  let listing := sheet.bindings.entries.map fun entry => "  " ++ entry.1 ++ ": " ++ entry.2
  let lines ← (rankedSelectors selectors).mapM (selectorLine sheet)
  return {
    exitCode := 0
    output := printLines
      (["Stylesheet: " ++ name, "Rules:     " ++ toString sheet.rules.length,
          "Selectors: " ++ toString selectors.length, ""] ++
        (if listing.isEmpty then [] else "Variables:" :: listing ++ [""]) ++
        "Cascade order:" :: lines ++
        (if dropped.isEmpty then [] else "" :: "Dropped:" :: dropped.map droppedLine))
    errors := "" }

/-! ## Commands -/

/-- What can be asked about a sheet. -/
inductive Command where
  | validate
  | inspect
deriving DecidableEq, Repr

instance : Keyword Command where
  all := [.validate, .inspect]
  name
    | .validate => "validate"
    | .inspect => "inspect"
  complete value := by cases value <;> decide
  distinct := by decide

/-- The outcome of a command on the text of a file with the given name. -/
def Command.run (command : Command) (name source : String) :
    Except Text.TooManyDigits Outcome :=
  match Sheet.readSource (unifyLineBreaks source.toList) with
  | .error error => .ok (failure error)
  | .ok sheet =>
      match command with
      | .validate => validation name sheet
      | .inspect => inspection name sheet

end Report

end WidgetStyle
