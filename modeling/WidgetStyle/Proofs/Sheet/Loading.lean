import WidgetStyle.Proofs.Sheet.Grammar
import WidgetStyle.Proofs.Table
import WidgetStyle.Sheet.Reader

/-!
# Loading sheets

What becomes of the blocks of a text.  The pairs of all root blocks together define the
variables, in the order of their first definitions and with their last texts; every other
block that declares something is a rule.  Only the structure of blocks and the names of the
variables can be at fault, and nothing that a block says is lost.
-/

namespace WidgetStyle.Sheet

open WidgetStyle.Text

/-- Names of variables start with two hyphens. -/
def isVariableName (name : String) : Bool :=
  ['-', '-'].isPrefixOf name.toList

/-- The pairs of all root blocks, in the order of the text. -/
def variablePairs (blocks : List Block) : List (String × String) :=
  (blocks.filter fun block => decide (block.selector = rootSelector)).flatMap Block.pairs

/-- The other blocks that declare something. -/
def ruleBlocks (blocks : List Block) : List Block :=
  blocks.filter fun block => decide (block.selector ≠ rootSelector) && !block.pairs.isEmpty

/-- The sheet that says what the blocks say. -/
def sheetOf (blocks : List Block) : Sheet where
  rules := (ruleBlocks blocks).map fun block => Rule.ofPairs block.selector block.pairs
  bindings := .latest (variablePairs blocks)

/-- The first pair that defines a variable under an unfit name. -/
def firstUnfit? (pairs : List (String × String)) : Option (String × String) :=
  pairs.find? fun pair => !isVariableName pair.1

theorem firstUnfit?_append (pairs more : List (String × String)) :
    firstUnfit? (pairs ++ more) = (firstUnfit? pairs).or (firstUnfit? more) :=
  List.find?_append

theorem addVariables_eq (bindings : Variables) (pairs : List (String × String)) :
    addVariables bindings pairs =
      match firstUnfit? pairs with
      | some pair => .error (.invalidVariable pair.1)
      | none => .ok (bindings.putAll ⟨pairs⟩) := by
  induction pairs generalizing bindings with
  | nil => rfl
  | cons pair rest ih =>
      obtain ⟨name, text⟩ := pair
      rw [addVariables, firstUnfit?, List.find?_cons, ← isVariableName]
      cases isVariableName name with
      | true => exact ih (bindings.put name text)
      | false => rfl

theorem variablePairs_cons (block : Block) (rest : List Block) :
    variablePairs (block :: rest) =
      if block.selector = rootSelector then block.pairs ++ variablePairs rest
      else variablePairs rest := by
  by_cases root : block.selector = rootSelector <;> simp [variablePairs, root]

theorem ruleBlocks_cons (block : Block) (rest : List Block) :
    ruleBlocks (block :: rest) =
      if block.selector = rootSelector ∨ block.pairs = [] then ruleBlocks rest
      else block :: ruleBlocks rest := by
  by_cases root : block.selector = rootSelector
  · simp [ruleBlocks, root]
  · cases pairs : block.pairs <;> simp [ruleBlocks, root, pairs]

/-- Adding blocks adds their rules and their variables, unless a name is unfit. -/
theorem addBlocks_eq (sheet : Sheet) (blocks : List Block) :
    sheet.addBlocks blocks =
      match firstUnfit? (variablePairs blocks) with
      | some pair => .error (.invalidVariable pair.1)
      | none => .ok
          { rules := sheet.rules ++ (sheetOf blocks).rules
            bindings := sheet.bindings.putAll ⟨variablePairs blocks⟩ } := by
  induction blocks generalizing sheet with
  | nil => simp [addBlocks, sheetOf, ruleBlocks, variablePairs, firstUnfit?, Table.putAll]
  | cons block rest ih =>
      rw [addBlocks, addBlock, variablePairs_cons, sheetOf, ruleBlocks_cons]
      by_cases root : block.selector = rootSelector
      · simp only [root, if_true, true_or, addVariables_eq, firstUnfit?_append]
        cases firstUnfit? block.pairs with
        | some pair => rfl
        | none =>
            rw [Table.putAll_append]
            exact ih _
      · simp only [root, if_false, false_or]
        cases pairs : block.pairs with
        | nil => exact ih sheet
        | cons pair others =>
            have later := ih (sheet.appendRule (Rule.ofPairs block.selector block.pairs))
            rw [pairs] at later
            simpa [appendRule, sheetOf, pairs] using later

theorem addBlocks_empty (blocks : List Block) :
    ({} : Sheet).addBlocks blocks =
      match firstUnfit? (variablePairs blocks) with
      | some pair => .error (.invalidVariable pair.1)
      | none => .ok (sheetOf blocks) := by
  rw [addBlocks_eq, List.nil_append, Table.putAll_eq_latest]
  rfl

/-- A source is refused for its structure exactly when the text without comments is no
sequence of blocks.  A sequence of blocks is read as the sheet that says what the blocks say,
or refused for the first unfit name of a variable. -/
theorem parse_blocks (source : String) :
    ((∀ line column, parse source ≠ .error (.malformed line column)) ↔
        ∃ tokens, Blocks tokens (stripComments source.toList)) ∧
      ∀ tokens, Blocks tokens (stripComments source.toList) →
        ((∀ pair ∈ variablePairs (tokens.map blockOf), isVariableName pair.1 = true) →
            parse source = .ok (sheetOf (tokens.map blockOf))) ∧
          ∀ pair, firstUnfit? (variablePairs (tokens.map blockOf)) = some pair →
            parse source = .error (.invalidVariable pair.1) := by
  have accepted {blocks : List Block}
      (read : readBlocks (stripComments source.toList) = .ok blocks) :
      parse source =
        match firstUnfit? (variablePairs blocks) with
        | some pair => .error (.invalidVariable pair.1)
        | none => .ok (sheetOf blocks) := by
    simp only [parse, readSource, read, addBlocks_empty]
  refine ⟨⟨?_, ?_⟩, ?_⟩
  · intro wellFormed
    cases read : readBlocks (stripComments source.toList) with
    | error unread =>
        have refused : ∃ line column, parse source = .error (.malformed line column) := by
          simp only [parse, readSource, read]
          exact ⟨_, _, rfl⟩
        obtain ⟨line, column, refused⟩ := refused
        exact absurd refused (wellFormed line column)
    | ok blocks =>
        obtain ⟨tokens, built, -⟩ := readBlocks_eq_ok_iff.mp read
        exact ⟨tokens, built⟩
  · rintro ⟨tokens, built⟩ line column
    rw [accepted built.readBlocks_eq]
    cases firstUnfit? _ <;> rintro ⟨⟩
  · intro tokens built
    rw [accepted built.readBlocks_eq]
    refine ⟨fun fit => ?_, fun pair unfit => by rw [unfit]⟩
    have none : firstUnfit? (variablePairs (tokens.map blockOf)) = none :=
      List.find?_eq_none.mpr fun pair member => by simp [fit pair member]
    rw [none]

/-- A variable that is defined twice, stray semicolons, a comment and an empty block. -/
def paletteSource : String :=
  ":root \x7b --a: 1; --b: 2 \x7d C\x7b\x7d :root\x7b--a:3\x7d B\x7b;;gap:/* a:b */1 !important\x7d"

def paletteBlocks : List Block :=
  [⟨":root", [("--a", "1"), ("--b", "2")]⟩, ⟨"C", []⟩, ⟨":root", [("--a", "3")]⟩,
    ⟨"B", [("gap", "1 !important")]⟩]

theorem parse_paletteSource :
    parse paletteSource = .ok
      { rules := [⟨"B", [⟨"gap", "1", true⟩]⟩]
        bindings := ⟨[("--a", "3"), ("--b", "2")]⟩ } := by
  have read : readBlocks (stripComments paletteSource.toList) = .ok paletteBlocks := by
    decide +kernel
  obtain ⟨tokens, built, same⟩ := readBlocks_eq_ok_iff.mp read
  have loaded := ((parse_blocks paletteSource).2 tokens built).1
  rw [← same] at loaded
  refine (loaded (by decide +kernel)).trans ?_
  decide +kernel

end WidgetStyle.Sheet
