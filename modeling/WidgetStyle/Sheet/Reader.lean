import WidgetStyle.Sheet.Basic
import WidgetStyle.Sheet.Block
import WidgetStyle.Sheet.Comment
import WidgetStyle.Text.Quoted

/-!
# Reading sheets

A sheet is read in three steps: comments are stripped, the text is cut into
blocks, and the blocks become rules and variables.  The block of the root
defines variables; any other block is a rule, unless it declares nothing.
-/

namespace WidgetStyle

/-- Why a text is no sheet: it breaks the structure of blocks at a line and
column, both counted from one, or it defines a variable under an unfit name. -/
inductive SheetError where
  | malformed (line column : Nat)
  | invalidVariable (name : String)
deriving DecidableEq, Repr

namespace SheetError

/-- The wording of the error.  The place of a malformed text is told apart. -/
def message : SheetError → String
  | malformed _ _ => "Parse error"
  | invalidVariable name =>
      "CSS variables must start with '--' (got " ++ Text.quotedString name ++ ")"

/-- The error at the first character after `before`. -/
def ofBefore (before : List Char) : SheetError :=
  malformed (before.count '\n' + 1) ((before.reverse.takeWhile (· != '\n')).length + 1)

end SheetError

namespace Sheet

/-- The selector text whose blocks define variables. -/
def rootSelector : String := ":root"

/-- The variables with some pairs added, up to the first unfit name. -/
def addVariables (bindings : Variables) :
    List (String × String) → Except SheetError Variables
  | [] => .ok bindings
  | (name, text) :: rest =>
      if ['-', '-'].isPrefixOf name.toList then addVariables (bindings.put name text) rest
      else .error (.invalidVariable name)

/-- The sheet with one more block. -/
def addBlock (sheet : Sheet) (block : Block) : Except SheetError Sheet :=
  if block.selector = rootSelector then
    (addVariables sheet.bindings block.pairs).map fun bindings => { sheet with bindings }
  else if block.pairs.isEmpty then .ok sheet
  else .ok (sheet.appendRule (Rule.ofPairs block.selector block.pairs))

/-- The sheet with some blocks added in order. -/
def addBlocks (sheet : Sheet) : List Block → Except SheetError Sheet
  | [] => .ok sheet
  | block :: rest =>
      match sheet.addBlock block with
      | .error error => .error error
      | .ok next => next.addBlocks rest

/-- The sheet of a source text. -/
def readSource (source : List Char) : Except SheetError Sheet :=
  let text := stripComments source
  match readBlocks text with
  | .error unread => .error (.ofBefore (text.take (text.length - unread)))
  | .ok blocks => ({} : Sheet).addBlocks blocks

/-- The sheet written in the string. -/
def parse (source : String) : Except SheetError Sheet :=
  readSource source.toList

end Sheet

end WidgetStyle
