import WidgetStyle.Proofs.Outcomes
import WidgetStyle.Proofs.Selector.Pieces
import WidgetStyle.Sheet.Block

/-!
# The grammar of blocks

Which texts are sequences of blocks, told without a reader: a text is built from tokens with
gaps between them.  Selector texts and values reach as far as they can, which is all that tells
them apart from what follows.  The reader of blocks accepts exactly these texts, and what it
returns are the tokens that they are built from.
-/

namespace WidgetStyle.Sheet

open WidgetStyle.Text WidgetStyle.Selector

variable {text rest : List Char}

/-! ## Tokens -/

/-- There are only gaps in the text. -/
def Gaps (text : List Char) : Prop :=
  ∀ character ∈ text, isGap character = true

/-- A token made of characters that pass the test, with no white space at its start. -/
structure Solid (test : Char → Bool) (text : List Char) : Prop where
  inhabited : text ≠ []
  start : ∀ first ∈ text.head?, isBlank first = false
  characters : ∀ character ∈ text, test character = true

/-- A property name: at most two hyphens, a letter or underscore, and then any of the
characters of property names. -/
inductive IsProperty : List Char → Prop where
  | hyphenated {hyphens : Nat} {first : Char} {others : List Char} :
      hyphens ≤ 2 → isPropertyStart first = true →
        (∀ character ∈ others, isPropertyCharacter character = true) →
          IsProperty (List.replicate hyphens '-' ++ first :: others)

/-- The inside of a block, between its braces, and the pairs of its declarations. -/
inductive Items : List (List Char × List Char) → List Char → Prop where
  | done {gaps : List Char} : Gaps gaps → Items [] gaps
  | semicolon {pairs : List (List Char × List Char)} {gaps rest : List Char} :
      Gaps gaps → Items pairs rest → Items pairs (gaps ++ ';' :: rest)
  | declaration {pairs : List (List Char × List Char)}
      {before property between after value rest : List Char} :
      Gaps before → IsProperty property → Gaps between → Gaps after →
        Solid isValueCharacter value → Ends isValueCharacter rest → Items pairs rest →
          Items ((property, value) :: pairs)
            (before ++ property ++ between ++ ':' :: (after ++ value ++ rest))

/-- A sequence of blocks, each told by its selector text and its pairs. -/
inductive Blocks : List (List Char × List (List Char × List Char)) → List Char → Prop where
  | done {gaps : List Char} : Gaps gaps → Blocks [] gaps
  | block {selector gaps inside rest : List Char} {pairs : List (List Char × List Char)}
      {blocks : List (List Char × List (List Char × List Char))} :
      Gaps gaps → Solid isSelectorCharacter selector → Items pairs inside →
        Blocks blocks rest →
          Blocks ((selector, pairs) :: blocks)
            (gaps ++ selector ++ Char.ofNat 0x7b :: (inside ++ Char.ofNat 0x7d :: rest))

/-! ## Gaps -/

theorem skipGaps_append {gaps : List Char} (isGaps : Gaps gaps) (rest : List Char) :
    skipGaps (gaps ++ rest) = skipGaps rest :=
  List.dropWhile_append_of_pos isGaps

theorem skipGaps_of_gaps {gaps : List Char} (isGaps : Gaps gaps) : skipGaps gaps = [] :=
  List.dropWhile_eq_nil_iff.mpr isGaps

theorem skipGaps_cons {character : Char} (solid : isGap character = false) (rest : List Char) :
    skipGaps (character :: rest) = character :: rest :=
  List.dropWhile_cons_of_neg (Bool.eq_false_iff.mp solid)

theorem exists_gaps_append_skipGaps (text : List Char) :
    ∃ gaps, Gaps gaps ∧ text = gaps ++ skipGaps text :=
  ⟨text.takeWhile isGap, fun _ member => List.mem_takeWhile_imp member,
    List.takeWhile_append_dropWhile.symm⟩

theorem exists_gaps_of_skipGaps {start : List Char} (begins : skipGaps text = start) :
    ∃ gaps, Gaps gaps ∧ text = gaps ++ start := by
  rw [← begins]
  exact exists_gaps_append_skipGaps text

theorem isBlank_of_isGap {character : Char} (gap : isGap character = true) :
    isBlank character = true := by
  simp only [isGap, Bool.or_eq_true, beq_iff_eq] at gap
  rcases gap with (((rfl | rfl) | rfl) | rfl) | rfl <;> rfl

theorem isGap_eq_false {character : Char} (solid : isBlank character = false) :
    isGap character = false := by
  rw [Bool.eq_false_iff]
  intro gap
  rw [isBlank_of_isGap gap] at solid
  cases solid

theorem Solid.exists_cons {test : Char → Bool} (solid : Solid test text) :
    ∃ first others, text = first :: others ∧ isBlank first = false ∧ test first = true ∧
      ∀ character ∈ others, test character = true := by
  obtain ⟨first, others, rfl⟩ := List.exists_cons_of_ne_nil solid.inhabited
  obtain ⟨passes, run⟩ := List.forall_mem_cons.mp solid.characters
  exact ⟨first, others, rfl, solid.start first rfl, passes, run⟩

theorem solid_cons {test : Char → Bool} {first : Char} {others : List Char}
    (start : isBlank first = false) (passes : test first = true)
    (run : ∀ character ∈ others, test character = true) : Solid test (first :: others) where
  inhabited := List.cons_ne_nil _ _
  start _ same := by
    cases same
    exact start
  characters := List.forall_mem_cons.mpr ⟨passes, run⟩

/-! ## Property names -/

theorem propertyStart?_eq_some_iff {length : Nat} :
    propertyStart? text = some length ↔
      ∃ hyphens first others, hyphens ≤ 2 ∧ isPropertyStart first = true ∧
        text = List.replicate hyphens '-' ++ first :: others ∧ length = hyphens + 1 := by
  constructor
  · intro read
    unfold propertyStart? at read
    split at read
    · rename_i first others
      obtain ⟨start, same⟩ := Option.ite_none_right_eq_some.mp read
      exact ⟨2, first, others, Nat.le_refl 2, start, rfl, (Option.some.inj same).symm⟩
    · rename_i first others _
      obtain ⟨start, same⟩ := Option.ite_none_right_eq_some.mp read
      exact ⟨1, first, others, by decide, start, rfl, (Option.some.inj same).symm⟩
    · rename_i first others _ _
      obtain ⟨start, same⟩ := Option.ite_none_right_eq_some.mp read
      exact ⟨0, first, others, by decide, start, rfl, (Option.some.inj same).symm⟩
    · cases read
  · rintro ⟨hyphens, first, others, few, start, rfl, rfl⟩
    have apart : first ≠ '-' := by
      rintro rfl
      cases start
    have cases : hyphens = 0 ∨ hyphens = 1 ∨ hyphens = 2 := by omega
    rcases cases with rfl | rfl | rfl
    · unfold propertyStart?
      grind
    · unfold propertyStart?
      grind
    · unfold propertyStart?
      grind

theorem readProperty?_eq_some_iff {property : List Char} :
    readProperty? text = some (property, rest) ↔
      text = property ++ rest ∧ IsProperty property ∧ Ends isPropertyCharacter rest := by
  constructor
  · intro read
    obtain ⟨length, began, same⟩ := Option.map_eq_some_iff.mp read
    obtain ⟨hyphens, first, others, few, start, rfl, rfl⟩ := propertyStart?_eq_some_iff.mp began
    cases same
    have parts : List.replicate hyphens '-' ++ first :: others =
      (List.replicate hyphens '-' ++ [first]) ++ others := by simp
    have reach : (List.replicate hyphens '-' ++ [first]).length = hyphens + 1 := by simp
    rw [parts, ← reach, List.take_left, List.drop_left]
    refine ⟨?_, ?_, ends_dropWhile _ _⟩
    · simp [List.takeWhile_append_dropWhile]
    · rw [List.append_assoc, List.singleton_append]
      exact .hyphenated few start fun _ member => List.mem_takeWhile_imp member
  · rintro ⟨rfl, ⟨few, start, run⟩, ends⟩
    rename_i hyphens first others
    have began : propertyStart? (List.replicate hyphens '-' ++ first :: others ++ rest) =
        some (hyphens + 1) := propertyStart?_eq_some_iff.mpr
      ⟨hyphens, first, others ++ rest, few, start, by simp, rfl⟩
    have parts : List.replicate hyphens '-' ++ first :: others ++ rest =
      (List.replicate hyphens '-' ++ [first]) ++ (others ++ rest) := by simp
    have reach : (List.replicate hyphens '-' ++ [first]).length = hyphens + 1 := by simp
    rw [readProperty?, began, parts, ← reach, Option.map_some, List.take_left, List.drop_left,
      takeWhile_run run ends, dropWhile_run run ends, List.append_assoc, List.singleton_append]

/-! ## Items -/

/-- An item with the gaps before it, and the text that is left. -/
inductive ReadsItem : List Char → Item → List Char → Prop where
  | closing {gaps rest : List Char} :
      Gaps gaps → ReadsItem (gaps ++ Char.ofNat 0x7d :: rest) .closing rest
  | semicolon {gaps rest : List Char} :
      Gaps gaps → ReadsItem (gaps ++ ';' :: rest) .semicolon rest
  | declaration {before property between after value rest : List Char} :
      Gaps before → IsProperty property → Gaps between → Gaps after →
        Solid isValueCharacter value → Ends isValueCharacter rest →
          ReadsItem (before ++ property ++ between ++ ':' :: (after ++ value ++ rest))
            (.declaration property value) rest

theorem readsItem {last next : Nat} {item : Item}
    (read : readItem last text = .ok (item, next, rest)) : ReadsItem text item rest := by
  unfold readItem at read
  split at read
  · cases read
  · rename_i character following begins
    obtain ⟨before, isBefore, rfl⟩ := exists_gaps_of_skipGaps begins
    split at read
    · rename_i semicolon
      cases read
      rw [semicolon]
      exact .semicolon isBefore
    · split at read
      · rename_i closing
        cases read
        rw [closing]
        exact .closing isBefore
      · split at read
        · cases read
        · rename_i property afterProperty named
          obtain ⟨parts, isProperty, -⟩ := readProperty?_eq_some_iff.mp named
          split at read
          · cases read
          · rename_i afterColon colon
            obtain ⟨between, isBetween, rfl⟩ := exists_gaps_of_skipGaps colon
            split at read
            · cases read
            · rename_i first remaining value
              obtain ⟨after, isAfter, rfl⟩ := exists_gaps_of_skipGaps value
              split at read
              · cases read
              · rename_i starts
                cases read
                rw [Bool.or_eq_true, not_or, Bool.not_eq_true, Bool.not_eq_true,
                  Bool.not_eq_false'] at starts
                have solid : Solid isValueCharacter
                    (first :: remaining.takeWhile isValueCharacter) :=
                  solid_cons starts.1 starts.2 fun _ member => List.mem_takeWhile_imp member
                have item := ReadsItem.declaration isBefore isProperty isBetween isAfter solid
                  (ends_dropWhile isValueCharacter remaining)
                rw [parts]
                simpa [List.takeWhile_append_dropWhile] using item
          · cases read

/-- A property name starts with none of the characters that the reader looks for first. -/
theorem IsProperty.exists_cons {property : List Char} (isProperty : IsProperty property) :
    ∃ first others, property = first :: others ∧ isGap first = false ∧ first ≠ ';' ∧
      first ≠ Char.ofNat 0x7d := by
  obtain ⟨few, start, run⟩ := isProperty
  rename_i hyphens first others
  cases hyphens with
  | zero =>
      refine ⟨first, others, rfl, ?_, ?_, ?_⟩
      · exact isGap_eq_false (isBlank_eq_false start (by decide +kernel))
      · rintro rfl
        cases start
      · rintro rfl
        cases start
  | succ hyphens => exact ⟨'-', _, rfl, by decide, by decide, by decide⟩

/-- Behind the gaps after a property name, the colon ends the name. -/
theorem ends_between {between : List Char} (isGaps : Gaps between) (rest : List Char) :
    Ends isPropertyCharacter (between ++ ':' :: rest) := by
  cases between with
  | nil => exact ends_cons (by decide) rest
  | cons character others =>
      have blank := isBlank_of_isGap (isGaps character List.mem_cons_self)
      exact ends_cons (eq_false_of_isBlank (by decide +kernel) blank) (others ++ ':' :: rest)

theorem ReadsItem.readItem_eq {item : Item} (reads : ReadsItem text item rest) (last : Nat) :
    ∃ next, readItem last text = .ok (item, next, rest) := by
  cases reads with
  | closing isGaps =>
      rw [readItem, skipGaps_append isGaps, skipGaps_cons (by decide)]
      exact ⟨_, rfl⟩
  | semicolon isGaps =>
      rw [readItem, skipGaps_append isGaps, skipGaps_cons (by decide)]
      exact ⟨_, rfl⟩
  | @declaration before property between after value _ isBefore isProperty isBetween isAfter
      solid ends =>
      -- The text as the reader meets it, from each token to the next.
      have named : readProperty? (property ++ (between ++ ':' :: (after ++ value ++ rest))) =
          some (property, between ++ ':' :: (after ++ value ++ rest)) :=
        readProperty?_eq_some_iff.mpr ⟨rfl, isProperty, ends_between isBetween _⟩
      obtain ⟨first, others, rfl, apart, semicolon, closing⟩ := isProperty.exists_cons
      obtain ⟨head, tail, rfl, start, passes, run⟩ := solid.exists_cons
      have colon : skipGaps (between ++ ':' :: (after ++ head :: tail ++ rest)) =
          ':' :: (after ++ head :: tail ++ rest) := by
        rw [skipGaps_append isBetween, skipGaps_cons (by decide)]
      have valued : skipGaps (after ++ head :: tail ++ rest) = head :: (tail ++ rest) := by
        rw [List.append_assoc, skipGaps_append isAfter, List.cons_append,
          skipGaps_cons (isGap_eq_false start)]
      have begins : skipGaps (before ++ first :: others ++ between ++
          ':' :: (after ++ head :: tail ++ rest)) =
            first :: (others ++ (between ++ ':' :: (after ++ head :: tail ++ rest))) := by
        rw [List.append_assoc, List.append_assoc, skipGaps_append isBefore, List.cons_append,
          skipGaps_cons apart]
      have fits : ¬ (isBlank head || !isValueCharacter head) = true := by
        rw [start, passes]
        exact Bool.false_ne_true
      rw [List.cons_append] at named
      simp only [readItem, begins, if_neg semicolon, if_neg closing, named, colon, valued,
        if_neg fits, takeWhile_run run ends, dropWhile_run run ends]
      exact ⟨_, rfl⟩

/-! ## Insides of blocks -/

theorem readPairs_of_readItem {last next : Nat} {item : Item}
    (taken : readItem last text = .ok (item, next, rest)) :
    readPairs last text =
      match item with
      | .closing => .ok ([], rest)
      | .semicolon => readPairs next rest
      | .declaration property value =>
          (readPairs next rest).map fun (pairs, after) => ((property, value) :: pairs, after) := by
  rw [readPairs]
  split
  · rename_i found
    cases taken.symm.trans found
  · rename_i found
    cases taken.symm.trans found
    rfl
  · rename_i found
    cases taken.symm.trans found
    rfl
  · rename_i found
    cases taken.symm.trans found
    rfl

theorem isValueCharacter_closing : isValueCharacter (Char.ofNat 0x7d) = false := by
  decide

theorem exists_items_of_readPairs {last : Nat} {pairs : List (List Char × List Char)}
    (read : readPairs last text = .ok (pairs, rest)) :
    ∃ inside, text = inside ++ Char.ofNat 0x7d :: rest ∧ Items pairs inside := by
  fun_induction readPairs last text generalizing pairs rest with
  | case1 => cases read
  | case2 last text next remaining taken =>
      cases read
      obtain ⟨isGaps⟩ := readsItem taken
      exact ⟨_, rfl, .done isGaps⟩
  | case3 last text next remaining taken ih =>
      obtain ⟨inside, rfl, items⟩ := ih read
      cases readsItem taken with
      | semicolon isGaps => exact ⟨_, by simp, .semicolon isGaps items⟩
  | case4 last text property value next remaining taken ih =>
      obtain ⟨⟨later, after⟩, found, same⟩ := exists_of_map_eq_ok read
      cases same
      obtain ⟨inside, rfl, items⟩ := ih found
      cases readsItem taken with
      | declaration isBefore isProperty isBetween isAfter solid ends =>
          exact ⟨_, by simp, .declaration isBefore isProperty isBetween isAfter solid
            ((ends_append_cons isValueCharacter_closing inside rest).mp ends) items⟩

theorem Items.readPairs_eq {pairs : List (List Char × List Char)} {inside : List Char}
    (items : Items pairs inside) (last : Nat) (rest : List Char) :
    readPairs last (inside ++ Char.ofNat 0x7d :: rest) = .ok (pairs, rest) := by
  induction items generalizing last with
  | done isGaps =>
      obtain ⟨next, taken⟩ := (ReadsItem.closing isGaps).readItem_eq last
      exact readPairs_of_readItem taken
  | semicolon isGaps items ih =>
      obtain ⟨next, taken⟩ := (ReadsItem.semicolon isGaps).readItem_eq last
      rw [List.append_assoc, List.cons_append, readPairs_of_readItem taken]
      exact ih next
  | @declaration pairs before property between after value later isBefore isProperty isBetween
      isAfter solid ends items ih =>
      have reach := (ends_append_cons isValueCharacter_closing later rest).mpr ends
      obtain ⟨next, taken⟩ :=
        (ReadsItem.declaration isBefore isProperty isBetween isAfter solid reach).readItem_eq last
      have parts : before ++ property ++ between ++ ':' :: (after ++ value ++ later) ++
          Char.ofNat 0x7d :: rest = before ++ property ++ between ++
            ':' :: (after ++ value ++ (later ++ Char.ofNat 0x7d :: rest)) := by simp
      rw [parts, readPairs_of_readItem taken]
      simp only [ih next]
      rfl

/-! ## Blocks -/

/-- The block of a selector text and its pairs. -/
def blockOf (tokens : List Char × List (List Char × List Char)) : Block :=
  .ofTokens tokens.1 tokens.2

theorem readBlocks_of_skipGaps {first : Char} {others inside after : List Char}
    {pairs : List (List Char × List Char)} (begins : skipGaps text = first :: others)
    (start : isBlank first = false) (passes : isSelectorCharacter first = true)
    (opens : others.dropWhile isSelectorCharacter = Char.ofNat 0x7b :: inside)
    (inner : readPairs (inside.length + 1) inside = .ok (pairs, after)) :
    readBlocks text = (readBlocks after).map
      (blockOf (first :: others.takeWhile isSelectorCharacter, pairs) :: ·) := by
  have fits : ¬ (isBlank first || isBrace first) = true := by
    rw [start, Bool.false_or]
    simpa [isSelectorCharacter] using passes
  rw [readBlocks]
  split
  · rename_i found
    cases begins.symm.trans found
  · rename_i found
    cases begins.symm.trans found
    rw [if_neg fits]
    split
    · rename_i braces
      cases opens.symm.trans braces
    · rename_i braces
      cases opens.symm.trans braces
      rw [if_pos rfl]
      split
      · rename_i refused
        cases inner.symm.trans refused
      · rename_i found
        cases inner.symm.trans found
        rfl

theorem exists_blocks_of_readBlocks {blocks : List Block} (read : readBlocks text = .ok blocks) :
    ∃ tokens, Blocks tokens text ∧ blocks = tokens.map blockOf := by
  fun_induction readBlocks text generalizing blocks with
  | case1 text begins =>
      cases read
      obtain ⟨gaps, isGaps, rfl⟩ := exists_gaps_of_skipGaps begins
      rw [List.append_nil]
      exact ⟨[], .done isGaps, rfl⟩
  | case2 => cases read
  | case3 => cases read
  | case4 => cases read
  | case5 text first others begins fits inside pairs after inner opens ih =>
      obtain ⟨later, found, rfl⟩ := exists_of_map_eq_ok read
      obtain ⟨tokens, built, rfl⟩ := ih found
      obtain ⟨gaps, isGaps, rfl⟩ := exists_gaps_of_skipGaps begins
      obtain ⟨items, rfl, isItems⟩ := exists_items_of_readPairs inner
      rw [Bool.or_eq_true, not_or, Bool.not_eq_true, Bool.not_eq_true] at fits
      have solid : Solid isSelectorCharacter (first :: others.takeWhile isSelectorCharacter) :=
        solid_cons fits.1 (by rw [isSelectorCharacter, fits.2, Bool.not_false])
          fun _ member => List.mem_takeWhile_imp member
      refine ⟨(_, pairs) :: tokens, ?_, rfl⟩
      have parts := Blocks.block isGaps solid isItems built
      rw [List.append_assoc, List.cons_append, ← opens, List.takeWhile_append_dropWhile] at parts
      exact parts
  | case6 => cases read

theorem Blocks.readBlocks_eq {tokens : List (List Char × List (List Char × List Char))}
    (blocks : Blocks tokens text) : readBlocks text = .ok (tokens.map blockOf) := by
  induction blocks with
  | done isGaps =>
      rw [readBlocks]
      split
      · rfl
      · rename_i found
        cases (skipGaps_of_gaps isGaps).symm.trans found
  | @block selector gaps inside rest pairs tokens isGaps solid items blocks ih =>
      obtain ⟨first, others, rfl, start, passes, run⟩ := solid.exists_cons
      have brace : Ends isSelectorCharacter
          (Char.ofNat 0x7b :: (inside ++ Char.ofNat 0x7d :: rest)) := ends_cons (by decide) _
      have begins : skipGaps (gaps ++ first :: others ++
          Char.ofNat 0x7b :: (inside ++ Char.ofNat 0x7d :: rest)) =
            first :: (others ++ Char.ofNat 0x7b :: (inside ++ Char.ofNat 0x7d :: rest)) := by
        rw [List.append_assoc, skipGaps_append isGaps, List.cons_append,
          skipGaps_cons (isGap_eq_false start)]
      rw [readBlocks_of_skipGaps begins start passes (dropWhile_run run brace)
        (items.readPairs_eq _ rest), ih, takeWhile_run run brace]
      rfl

/-- The reader accepts exactly the texts that are built from blocks, and returns these
blocks. -/
theorem readBlocks_eq_ok_iff {blocks : List Block} :
    readBlocks text = .ok blocks ↔ ∃ tokens, Blocks tokens text ∧ blocks = tokens.map blockOf := by
  constructor
  · exact exists_blocks_of_readBlocks
  · rintro ⟨tokens, built, rfl⟩
    exact built.readBlocks_eq

end WidgetStyle.Sheet
