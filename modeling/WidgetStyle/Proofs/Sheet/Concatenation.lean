import WidgetStyle.Proofs.Sheet.Loading

/-!
# Sheets one after the other

Two sources that are each a sheet make one sheet when they are joined, without anything between
them: the rules of the first come before those of the second, whose variables win.  The first
source has to close its comments, or the second one would be read from inside a comment.  That is
all it takes, because between two blocks the reader of comments and the reader of blocks are both
back where they started.
-/

namespace WidgetStyle.Sheet

open WidgetStyle.Text

variable {text more rest inside after : List Char}

/-! ## Comments -/

/-- Whether every comment that is opened is closed, as the text is read from left to right. -/
def closesComments (text : List Char) : Bool :=
  match text with
  | [] => true
  | '/' :: '*' :: rest =>
      match _closed : splitAtClosing? rest with
      | some (_, after) => closesComments after
      | none => false
  | _ :: rest => closesComments rest
termination_by text.length
decreasing_by
  · have shorter := length_lt_of_splitAtClosing? _closed
    simp only [List.length_cons]
    omega
  · simp

theorem splitAtClosing?_append (split : splitAtClosing? text = some (inside, after))
    (more : List Char) : splitAtClosing? (text ++ more) = some (inside, after ++ more) := by
  fun_induction splitAtClosing? text generalizing inside after with
  | case1 => cases split
  | case2 rest =>
      cases split
      simp [splitAtClosing?]
  | case3 character rest plain ih =>
      rcases Option.map_eq_some_iff.mp split with ⟨⟨inside, after⟩, found, same⟩
      cases same
      rw [List.cons_append, splitAtClosing?, ih found]
      · rfl
      · intro further star slash
        cases rest with
        | nil => cases found
        | cons next others =>
            cases slash
            exact plain others star rfl

theorem stripComments_comment (split : splitAtClosing? rest = some (inside, after)) :
    stripComments ('/' :: '*' :: rest) = inside.filter (· == '\n') ++ stripComments after := by
  rw [stripComments]
  split
  · rename_i found
    cases split.symm.trans found
    rfl
  · rename_i found
    cases split.symm.trans found

theorem stripComments_cons {character : Char}
    (plain : ∀ further, character = '/' → rest ≠ '*' :: further) :
    stripComments (character :: rest) = character :: stripComments rest := by
  rw [stripComments]
  exact plain

/-- Behind a text that closes its comments, comments are stripped as if nothing came before,
unless a last slash makes an opening together with what follows. -/
theorem stripComments_append (closes : closesComments text = true)
    (last : (stripComments text).getLast? ≠ some '/') (more : List Char) :
    stripComments (text ++ more) = stripComments text ++ stripComments more := by
  fun_induction closesComments text with
  | case1 => rw [stripComments, List.nil_append, List.nil_append]
  | case2 rest inside after closed ih =>
      rw [stripComments_comment closed] at last ⊢
      have later : (stripComments after).getLast? ≠ some '/' := by
        intro slash
        simp [List.getLast?_append, slash] at last
      have whole := stripComments_comment (splitAtClosing?_append closed more)
      rw [ih closes later] at whole
      rw [List.append_assoc]
      exact whole
  | case3 => cases closes
  | case4 character rest plain ih =>
      have start : ∀ further, character = '/' → rest ≠ '*' :: further := fun further slash star =>
        plain further slash star
      rw [stripComments_cons start] at last ⊢
      -- No comment starts across the joint: the text would have to end with its slash.
      have wide : ∀ further, character = '/' → rest ++ more ≠ '*' :: further := by
        intro further slash star
        cases rest with
        | nil => simp [stripComments, slash] at last
        | cons next others =>
            cases star
            exact start others slash rfl
      have later : (stripComments rest).getLast? ≠ some '/' := by
        intro slash
        simp [List.getLast?_cons, slash] at last
      rw [List.cons_append, stripComments_cons wide, ih closes later]
      rfl

/-! ## Blocks -/

variable {tokens others : List (List Char × List (List Char × List Char))}

theorem Gaps.append {gaps others : List Char} (isGaps : Gaps gaps) (more : Gaps others) :
    Gaps (gaps ++ others) := by
  intro character member
  rcases List.mem_append.mp member with before | behind
  · exact isGaps character before
  · exact more character behind

theorem Blocks.behind {gaps : List Char} (isGaps : Gaps gaps) (blocks : Blocks tokens text) :
    Blocks tokens (gaps ++ text) := by
  cases blocks with
  | done more => exact .done (isGaps.append more)
  | block more solid items rest =>
      have whole := Blocks.block (isGaps.append more) solid items rest
      simpa using whole

theorem Blocks.append (blocks : Blocks tokens text) (later : Blocks others more) :
    Blocks (tokens ++ others) (text ++ more) := by
  induction blocks with
  | done isGaps => exact later.behind isGaps
  | block isGaps solid items rest ih =>
      have whole := Blocks.block isGaps solid items ih
      simpa using whole

/-- A sequence of blocks ends with a closing brace or a gap. -/
theorem Blocks.getLast?_ne_slash (blocks : Blocks tokens text) : text.getLast? ≠ some '/' := by
  induction blocks with
  | done isGaps =>
      intro slash
      have gap := isGaps '/' (List.mem_of_getLast? slash)
      cases gap
  | @block selector gaps inside rest pairs tokens isGaps solid items blocks ih =>
      intro slash
      cases final : rest.getLast? with
      | none => simp [List.getLast?_append, List.getLast?_cons, final] at slash
      | some character =>
          rw [final] at ih
          have same : character = '/' := by
            simpa [List.getLast?_append, List.getLast?_cons, final] using slash
          exact ih (congrArg some same)

/-! ## Sheets -/

theorem parse_eq_ok_iff {source : String} {sheet : Sheet} :
    parse source = .ok sheet ↔ ∃ tokens, Blocks tokens (stripComments source.toList) ∧
      firstUnfit? (variablePairs (tokens.map blockOf)) = none ∧
        sheet = sheetOf (tokens.map blockOf) := by
  have loaded {blocks : List Block}
      (read : readBlocks (stripComments source.toList) = .ok blocks) :
      parse source = .ok sheet ↔
        firstUnfit? (variablePairs blocks) = none ∧ sheet = sheetOf blocks := by
    simp only [parse, readSource, read, addBlocks_empty]
    cases firstUnfit? (variablePairs blocks) with
    | some pair => simp
    | none => simp [eq_comm]
  constructor
  · intro accepted
    cases read : readBlocks (stripComments source.toList) with
    | error unread => simp [parse, readSource, read] at accepted
    | ok blocks =>
        rcases readBlocks_eq_ok_iff.mp read with ⟨tokens, built, rfl⟩
        exact ⟨tokens, built, (loaded read).mp accepted⟩
  · intro told
    rcases told with ⟨tokens, built, said⟩
    exact (loaded built.readBlocks_eq).mpr said

@[simp] theorem variablePairs_append (blocks later : List Block) :
    variablePairs (blocks ++ later) = variablePairs blocks ++ variablePairs later := by
  simp [variablePairs]

@[simp] theorem sheetOf_append (blocks later : List Block) :
    sheetOf (blocks ++ later) = (sheetOf blocks).append (sheetOf later) := by
  have rules : ruleBlocks (blocks ++ later) = ruleBlocks blocks ++ ruleBlocks later := by
    simp [ruleBlocks]
  have bindings : Table.latest (variablePairs blocks ++ variablePairs later) =
      (Table.latest (variablePairs blocks)).putAll (Table.latest (variablePairs later)) := by
    rw [← Table.putAll_eq_latest, ← Table.putAll_eq_latest, ← Table.putAll_eq_latest,
      Table.putAll_append, Table.putAll_putAll]
  rw [append, sheetOf, rules, variablePairs_append, bindings, List.map_append]
  rfl

/-- Two sources that are sheets, the first of which closes its comments, are one sheet when they
are joined: the first sheet followed by the second one, whose variables win. -/
theorem parse_append {first second : String} {sheet other : Sheet}
    (closes : closesComments first.toList = true) (readFirst : parse first = .ok sheet)
    (readSecond : parse second = .ok other) : parse (first ++ second) = .ok (sheet.append other) := by
  rcases parse_eq_ok_iff.mp readFirst with ⟨tokens, built, fit, rfl⟩
  rcases parse_eq_ok_iff.mp readSecond with ⟨others, builtLater, fitLater, rfl⟩
  have stripped := stripComments_append closes built.getLast?_ne_slash second.toList
  apply parse_eq_ok_iff.mpr
  refine ⟨tokens ++ others, ?_, ?_, ?_⟩
  · rw [String.toList_append, stripped]
    exact built.append builtLater
  · rw [List.map_append, variablePairs_append, firstUnfit?_append, fit, fitLater]
    rfl
  · rw [List.map_append, sheetOf_append]

/-- Two variables, a rule, and a comment that would end the rule too soon. -/
def lightSource : String :=
  ":root\x7b--a:1;--b:2\x7d A\x7bgap/*\x7d*/:1\x7d/**/"

/-- The same variables in the other order and one more, and a rule. -/
def darkSource : String :=
  ":root\x7b--b:3;--a:4;--c:5\x7dB\x7bgap:2\x7d"

theorem parse_lightSource_darkSource :
    closesComments lightSource.toList = true ∧
      parse lightSource = .ok
        { rules := [⟨"A", [⟨"gap", "1", false⟩]⟩], bindings := ⟨[("--a", "1"), ("--b", "2")]⟩ } ∧
      parse (lightSource ++ darkSource) = .ok
        { rules := [⟨"A", [⟨"gap", "1", false⟩]⟩, ⟨"B", [⟨"gap", "2", false⟩]⟩]
          bindings := ⟨[("--a", "4"), ("--b", "3"), ("--c", "5")]⟩ } := by
  have closes : closesComments lightSource.toList = true := by decide +kernel
  have light : parse lightSource = .ok
      { rules := [⟨"A", [⟨"gap", "1", false⟩]⟩], bindings := ⟨[("--a", "1"), ("--b", "2")]⟩ } := by
    decide +kernel
  have dark : parse darkSource = .ok
      { rules := [⟨"B", [⟨"gap", "2", false⟩]⟩]
        bindings := ⟨[("--b", "3"), ("--a", "4"), ("--c", "5")]⟩ } := by
    decide +kernel
  have joined := parse_append closes light dark
  refine ⟨closes, light, joined.trans ?_⟩
  rfl

end WidgetStyle.Sheet
