import WidgetStyle.Proofs.Selector.Pieces
import WidgetStyle.Proofs.Text.Blanks
import WidgetStyle.Style.Variables

/-!
# Substitution

What a value stands for is told by how it is spelt.  A reference is the word `var` with a
name in parentheses and, behind a comma, a fallback; blanks may stand around the name and
around the fallback.  The parenthesis that closes a reference is the last character of the
value, so a fallback may hold commas, parentheses and other references.  Reading accepts
exactly these spellings, and a value that is spelt in another way stands for itself.
-/

namespace WidgetStyle

open WidgetStyle.Text
open WidgetStyle.Selector (Ends ends_append_cons ends_dropWhile takeWhile_run dropWhile_run)

namespace Reference

variable {text rest before after : List Char} {name fallback : String} {reference : Reference}

/-! ## Names -/

/-- The text names a variable: it starts with two hyphens and goes on with one or more
characters of names. -/
structure IsVariable (text : List Char) : Prop where
  characters : ∀ character ∈ text, isNameCharacter character = true
  hyphens : ∃ first rest, text = '-' :: '-' :: first :: rest

theorem isVariable_hyphenated {stem : List Char} (inhabited : stem ≠ [])
    (characters : ∀ character ∈ stem, isNameCharacter character = true) :
    IsVariable ('-' :: '-' :: stem) := by
  constructor
  case characters =>
    intro character member
    simp only [List.mem_cons] at member
    rcases member with rfl | rfl | member
    · rfl
    · rfl
    · exact characters character member
  case hyphens =>
    rcases List.exists_cons_of_ne_nil inhabited with ⟨first, rest, rfl⟩
    exact ⟨first, rest, rfl⟩

theorem readName?_eq_some_iff :
    readName? text = some (name, rest) ↔
      IsVariable name.toList ∧ Ends isNameCharacter rest ∧ text = name.toList ++ rest := by
  constructor
  · intro read
    rw [readName?] at read
    split at read
    · rename_i first others spelt
      cases read
      refine ⟨⟨?_, first, others, String.toList_ofList⟩, ends_dropWhile _ text, ?_⟩
      · intro character member
        rw [String.toList_ofList, ← spelt] at member
        exact List.mem_takeWhile_imp member
      · rw [String.toList_ofList, ← spelt, List.takeWhile_append_dropWhile]
    · cases read
  · intro parts
    rcases parts with ⟨⟨characters, first, others, spelt⟩, ends, rfl⟩
    rw [readName?, takeWhile_run characters ends, dropWhile_run characters ends]
    simp only [spelt]
    rw [← spelt, String.ofList_toList]

theorem isNameCharacter_of_isBlank {character : Char} (blank : isBlank character = true) :
    isNameCharacter character = false :=
  eq_false_of_isBlank (by decide +kernel) blank

/-- After blanks the name is read up to the blanks and the sign that follow it. -/
theorem readName?_between {sign : Char} (blankBefore : Blank before) (isVariable : IsVariable name.toList)
    (blankAfter : Blank after) (apart : isNameCharacter sign = false) (rest : List Char) :
    readName? (skipBlanks (before ++ name.toList ++ (after ++ sign :: rest))) =
      some (name, after ++ sign :: rest) := by
  have start : skipBlanks (name.toList ++ (after ++ sign :: rest)) =
      name.toList ++ (after ++ sign :: rest) := by
    rcases isVariable.hyphens with ⟨first, others, spelt⟩
    rw [spelt]
    exact skipBlanks_cons rfl _
  have ends : Ends isNameCharacter (after ++ sign :: rest) := by
    rw [ends_append_cons apart]
    intro first head
    exact isNameCharacter_of_isBlank (blankAfter first (List.mem_of_mem_head? head))
  rw [List.append_assoc, skipBlanks_append blankBefore, start]
  exact readName?_eq_some_iff.mpr ⟨isVariable, ends, rfl⟩

/-! ## Fallbacks -/

/-- The fallback that a text holds: what there is between blanks, on one line.  Where there
are only blanks, the last of them that breaks no line is the fallback. -/
inductive Holds : List Char → String → Prop where
  | core {front back : List Char} {fallback : String} :
      Blank front → Compact fallback.toList → '\n' ∉ fallback.toList → Blank back →
        Holds (front ++ fallback.toList ++ back) fallback
  | blank {front back : List Char} {last : Char} :
      Blank front → isBlank last = true → last ≠ '\n' →
        (∀ character ∈ back, character = '\n') →
          Holds (front ++ last :: back) (String.singleton last)

theorem holds_of_fallback? (read : fallback? text = some fallback) : Holds text fallback := by
  rw [fallback?] at read
  split at read
  · rename_i nothing
    rcases Option.map_eq_some_iff.mp read with ⟨last, found, rfl⟩
    rcases List.find?_eq_some_iff_append.mp found with ⟨unbroken, back, front, split, breaks⟩
    have spelt : text = front.reverse ++ last :: back.reverse := by
      rw [← List.reverse_reverse text, split]
      simp
    have blank := blank_of_trim nothing
    rw [spelt] at blank ⊢
    refine .blank ?_ ?_ ?_ ?_
    · exact fun character member => blank character (List.mem_append_left _ member)
    · exact blank last (by simp)
    · simpa using unbroken
    · intro character member
      simpa using breaks character (List.mem_reverse.mp member)
  · rename_i solid
    split at read
    · cases read
    · rename_i oneLine
      cases read
      rcases exists_blank_append_trim text with ⟨front, back, blankFront, blankBack, split⟩
      have core := @Holds.core front back (String.ofList (trim text)) blankFront
      rw [String.toList_ofList, ← split] at core
      exact core (compact_trim solid) (by simpa using oneLine) blankBack

theorem Holds.fallback?_eq (holds : Holds text fallback) : fallback? text = some fallback := by
  cases holds with
  | core blankFront compact oneLine blankBack =>
      rw [fallback?, compact.trim_eq blankFront blankBack]
      split
      · rename_i nothing
        exact absurd nothing compact.inhabited
      · rw [if_neg (by simpa using oneLine), String.ofList_toList]
  | @blank front back last blankFront blankLast unbroken breaks =>
      have blank : Blank (front ++ last :: back) := by
        intro character member
        rcases List.mem_append.mp member with early | late
        · exact blankFront character early
        · rcases List.mem_cons.mp late with rfl | late
          · exact blankLast
          · rw [breaks character late]
            rfl
      have found : (front ++ last :: back).reverse.find? (· != '\n') = some last := by
        refine List.find?_eq_some_iff_append.mpr
          ⟨by simpa using unbroken, back.reverse, front.reverse, by simp, ?_⟩
        intro character member
        simp [breaks character (List.mem_reverse.mp member)]
      rw [fallback?, trim_of_blank blank]
      simp only [found, Option.map_some]

/-! ## References -/

/-- How a reference is spelt, blanks at the ends of the value apart. -/
inductive Spells : Reference → List Char → Prop where
  | bare {name : String} {before after : List Char} :
      Blank before → IsVariable name.toList → Blank after →
        Spells ⟨name, none⟩
          ('v' :: 'a' :: 'r' :: '(' :: (before ++ name.toList ++ (after ++ [')'])))
  | withFallback {name fallback : String} {before after inside : List Char} :
      Blank before → IsVariable name.toList → Blank after → Holds inside fallback →
        Spells ⟨name, some fallback⟩
          ('v' :: 'a' :: 'r' :: '(' ::
            (before ++ name.toList ++ (after ++ ',' :: (inside ++ [')']))))

theorem spells_of_ofText? (read : ofText? text = some reference) :
    Spells reference (trim text) := by
  rw [ofText?] at read
  split at read
  · rename_i opened spelt
    rw [readOpened?] at read
    split at read
    · cases read
    · rename_i name rest named
      rcases readName?_eq_some_iff.mp named with ⟨isVariable, -, follows⟩
      rcases exists_blank_append_skipBlanks opened with ⟨before, blankBefore, opens⟩
      rcases exists_blank_append_skipBlanks rest with ⟨after, blankAfter, closes⟩
      rw [spelt, opens, follows, ← List.append_assoc, closes]
      split at read
      · rename_i closing
        cases read
        rw [closing]
        exact .bare blankBefore isVariable blankAfter
      · rename_i remaining comma
        split at read
        · rename_i last
          rcases Option.map_eq_some_iff.mp read with ⟨fallback, held, rfl⟩
          have holds := holds_of_fallback? held
          rw [comma, ← List.dropLast_append_getLast? _ last]
          exact .withFallback blankBefore isVariable blankAfter holds
        · cases read
      · cases read
  · cases read

theorem ofText?_of_spells (spells : Spells reference (trim text)) :
    ofText? text = some reference := by
  generalize spelling : trim text = spelt at spells
  rw [ofText?, spelling]
  cases spells with
  | bare blankBefore isVariable blankAfter =>
      have named := readName?_between blankBefore isVariable blankAfter
        (rfl : isNameCharacter ')' = false) []
      simp only [readOpened?, named, skipBlanks_append blankAfter]
      rfl
  | @withFallback name fallback before after inside blankBefore isVariable blankAfter holds =>
      have named := readName?_between blankBefore isVariable blankAfter
        (rfl : isNameCharacter ',' = false) (inside ++ [')'])
      have comma : skipBlanks (',' :: (inside ++ [')'])) = ',' :: (inside ++ [')']) :=
        skipBlanks_cons rfl _
      simp only [readOpened?, named, skipBlanks_append blankAfter, comma,
        List.getLast?_concat, List.dropLast_concat, if_true, holds.fallback?_eq, Option.map_some]

/-- A text is read as a reference exactly when the reference is so spelt. -/
theorem ofText?_eq_some_iff : ofText? text = some reference ↔ Spells reference (trim text) :=
  ⟨spells_of_ofText?, ofText?_of_spells⟩

theorem Spells.starts (spells : Spells reference text) : "var(".toList <+: text := by
  cases spells <;> exact List.prefix_append "var(".toList _

theorem Spells.closes (spells : Spells reference text) : ")".toList <:+ text := by
  cases spells with
  | @bare name before after =>
      exact ⟨"var(".toList ++ (before ++ name.toList ++ after), by simp⟩
  | @withFallback name fallback before after inside =>
      exact ⟨"var(".toList ++ (before ++ name.toList ++ (after ++ ',' :: inside)), by simp⟩

theorem Spells.compact (spells : Spells reference text) : Compact text := by
  constructor
  case inhabited => cases spells <;> exact List.cons_ne_nil _ _
  case start =>
    intro first head
    cases spells <;> cases head <;> rfl
  case stop =>
    intro last final
    rcases spells.closes with ⟨front, rfl⟩
    have closing : last = ')' := by simpa using final.symm
    rw [closing]
    rfl

end Reference

/-! ## Values -/

namespace Variables

open WidgetStyle.Reference

variable {bindings : Variables} {reference : Reference}

/-- What a value stands for that is spelt as a reference. -/
theorem expand_of_spells {front back text : List Char} (spells : Spells reference text)
    (blankFront : Blank front) (blankBack : Blank back) :
    bindings.expand (String.ofList (front ++ text ++ back)) =
      (bindings.get? reference.name).getD
        (reference.fallback.getD (String.ofList (front ++ text ++ back))) := by
  have trimmed := spells.compact.trim_eq blankFront blankBack
  have read := ofText?_of_spells (trimmed.symm ▸ spells)
  simp only [expand, String.toList_ofList, read]
  cases Table.get? bindings reference.name <;> rfl

/-- The name with the stem behind its hyphens. -/
def nameOf (stem : List Char) : String :=
  String.ofList ("--".toList ++ stem)

/-- The text of a reference without a fallback, with blanks where they may stand. -/
def bareText (stem before after : List Char) : List Char :=
  "var(".toList ++ before ++ "--".toList ++ stem ++ after ++ ")".toList

/-- The text of a reference with a fallback, with blanks where they may stand. -/
def fallbackText (stem fallback before after front back : List Char) : List Char :=
  "var(".toList ++ before ++ "--".toList ++ stem ++ after ++ ",".toList ++ front ++ fallback ++
    back ++ ")".toList

section Spelt

variable {stem before after : List Char}

theorem isVariable_nameOf (inhabited : stem ≠ [])
    (characters : ∀ character ∈ stem, isNameCharacter character = true) :
    IsVariable (nameOf stem).toList := by
  rw [nameOf, String.toList_ofList]
  exact isVariable_hyphenated inhabited characters

theorem spells_bareText (isVariable : IsVariable (nameOf stem).toList) (blankBefore : Blank before)
    (blankAfter : Blank after) : Spells ⟨nameOf stem, none⟩ (bareText stem before after) := by
  have spelling : bareText stem before after =
      'v' :: 'a' :: 'r' :: '(' :: (before ++ (nameOf stem).toList ++ (after ++ [')'])) := by
    unfold bareText nameOf
    simp
  rw [spelling]
  exact .bare blankBefore isVariable blankAfter

theorem spells_fallbackText {fallback front back : List Char}
    (isVariable : IsVariable (nameOf stem).toList) (blankBefore : Blank before)
    (blankAfter : Blank after) (blankFront : Blank front) (blankBack : Blank back)
    (compact : Compact fallback) (oneLine : '\n' ∉ fallback) :
    Spells ⟨nameOf stem, some (String.ofList fallback)⟩
      (fallbackText stem fallback before after front back) := by
  have opening : "var(".toList = ['v', 'a', 'r', '('] := rfl
  have comma : ",".toList = [','] := rfl
  have closing : ")".toList = [')'] := rfl
  have spelling : fallbackText stem fallback before after front back =
      'v' :: 'a' :: 'r' :: '(' :: (before ++ (nameOf stem).toList ++
        (after ++ ',' :: (front ++ fallback ++ back ++ [')']))) := by
    unfold fallbackText nameOf
    simp only [String.toList_ofList, List.append_assoc, opening, comma, closing,
      List.cons_append, List.nil_append]
  have holds := @Holds.core front back (String.ofList fallback) blankFront
  rw [String.toList_ofList] at holds
  rw [spelling]
  exact .withFallback blankBefore isVariable blankAfter (holds compact oneLine blankBack)

end Spelt

/-- A reference stands for its variable.  When this is not defined the reference stands for
its fallback, up to the last parenthesis and whatever is in it, and for itself when it has
none.  A value that does not start with the word and its parenthesis, or does not end with a
parenthesis, stands for itself. -/
theorem expand_spelt (bindings : Variables) :
    (∀ stem before after outerFront outerBack : List Char,
      stem ≠ [] → (∀ character ∈ stem, isNameCharacter character = true) →
        (∀ blanks ∈ [before, after, outerFront, outerBack], Blank blanks) →
          ∀ value, value = String.ofList (outerFront ++ bareText stem before after ++ outerBack) →
            bindings.expand value = (bindings.get? (nameOf stem)).getD value) ∧
    (∀ stem fallback before after front back outerFront outerBack : List Char,
      stem ≠ [] → (∀ character ∈ stem, isNameCharacter character = true) →
        Compact fallback → '\n' ∉ fallback →
          (∀ blanks ∈ [before, after, front, back, outerFront, outerBack], Blank blanks) →
            ∀ value, value = String.ofList
                (outerFront ++ fallbackText stem fallback before after front back ++ outerBack) →
              bindings.expand value =
                (bindings.get? (nameOf stem)).getD (String.ofList fallback)) ∧
    ∀ value : String,
      ¬("var(".toList <+: trim value.toList ∧ ")".toList <:+ trim value.toList) →
        bindings.expand value = value := by
  refine ⟨?_, ?_, ?_⟩
  · intro stem before after outerFront outerBack inhabited characters blank value spelt
    have spells := spells_bareText (isVariable_nameOf inhabited characters) (blank before (by simp))
      (blank after (by simp))
    rw [spelt, expand_of_spells spells (blank outerFront (by simp)) (blank outerBack (by simp))]
    simp only [Option.getD_none]
  · intro stem fallback before after front back outerFront outerBack inhabited characters
      compact oneLine blank value spelt
    have spells := spells_fallbackText (isVariable_nameOf inhabited characters)
      (blank before (by simp)) (blank after (by simp)) (blank front (by simp))
      (blank back (by simp)) compact oneLine
    rw [spelt, expand_of_spells spells (blank outerFront (by simp)) (blank outerBack (by simp))]
    simp only [Option.getD_some]
  · intro value other
    have unread : ofText? value.toList = none := by
      rw [Option.eq_none_iff_forall_ne_some]
      intro reference read
      have spells := spells_of_ofText? read
      exact other ⟨spells.starts, spells.closes⟩
    rw [expand, unread]

/-- A defined variable wins over the fallback, and the fallback of an undefined one may hold a
comma, a parenthesis and the text of another reference. -/
theorem expand_gap :
    let bindings : Variables := { entries := [("--gap", "2")] }
    bindings.expand " var( --gap , 7 )" = "2" ∧ bindings.expand "var(--rim)" = "var(--rim)" ∧
      bindings.expand "var(--rim, a) b, var(--gap) )" = "a) b, var(--gap)" ∧
        bindings.expand "var(--gap) 1" = "var(--gap) 1" := by
  intro bindings
  have specification := expand_spelt bindings
  refine ⟨?_, ?_, ?_, ?_⟩
  · exact specification.2.1 "gap".toList "7".toList " ".toList " ".toList " ".toList " ".toList
      " ".toList [] (by decide) (List.all_eq_true.mp rfl) (@compact_trim "7".toList (by decide))
      (by decide) (by decide) _ (by decide)
  · exact specification.1 "rim".toList [] [] [] [] (by decide) (List.all_eq_true.mp rfl)
      (by decide) _ (by decide)
  · exact specification.2.1 "rim".toList "a) b, var(--gap)".toList [] [] " ".toList " ".toList
      [] [] (by decide) (List.all_eq_true.mp rfl)
      (@compact_trim "a) b, var(--gap)".toList (by decide)) (by decide) (by decide) _ (by decide)
  · exact specification.2.2 _ (by decide)

end Variables

end WidgetStyle
