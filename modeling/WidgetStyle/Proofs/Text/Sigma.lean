import Mathlib.Data.List.Basic
import Mathlib.Data.List.TakeWhile
import WidgetStyle.Proofs.Text.Lowercase

/-!
# Lower case of a part of a text

The small form of a character depends on what stands around it for the capital sigma alone, which
is final at the end of a word.  So the lower case of a part of a text can differ from what becomes
of the part in the lower case of the whole text, by the forms of its sigmas.  At most two of them
are in danger: one at the end, which is final only as long as no letter follows, and one at the
start, which is not final only as long as no letter precedes.
-/

namespace WidgetStyle.Text

variable {text more before after other behind marks : List Char}

/-! ## Neighbours -/

/-- All characters are skipped in the search for a word's end. -/
def Ignorable (text : List Char) : Prop :=
  ∀ character ∈ text, isCaseIgnorable character = true

theorem ignorable_reverse_iff : Ignorable text.reverse ↔ Ignorable text := by
  simp only [Ignorable, List.mem_reverse]

theorem Ignorable.reverse (ignorable : Ignorable text) : Ignorable text.reverse :=
  ignorable_reverse_iff.mpr ignorable

theorem meetsCased_append_of_ignorable (ignorable : Ignorable text) (more : List Char) :
    meetsCased (text ++ more) = meetsCased more := by
  rw [meetsCased, List.dropWhile_append_of_pos ignorable, meetsCased]

theorem meetsCased_of_ignorable (ignorable : Ignorable text) : meetsCased text = false := by
  have whole := meetsCased_append_of_ignorable ignorable []
  rw [List.append_nil] at whole
  exact whole

theorem not_ignorable_of_meetsCased (letters : meetsCased text = true) : ¬ Ignorable text := by
  intro ignorable
  rw [meetsCased_of_ignorable ignorable] at letters
  cases letters

theorem meetsCased_cons {character : Char} (solid : isCaseIgnorable character = false)
    (rest : List Char) : meetsCased (character :: rest) = isCased character := by
  rw [meetsCased, List.dropWhile_cons_of_neg]
  rw [solid]
  exact Bool.false_ne_true

theorem meetsCased_append_of_not_ignorable (solid : ¬ Ignorable text) (more : List Char) :
    meetsCased (text ++ more) = meetsCased text := by
  induction text with
  | nil => exact absurd (List.forall_mem_nil _) solid
  | cons character text ih =>
      cases ignorable : isCaseIgnorable character with
      | true =>
          have later : ¬ Ignorable text := fun rest =>
            solid (List.forall_mem_cons.mpr ⟨ignorable, rest⟩)
          have skipped := ih later
          simp only [meetsCased, List.cons_append, List.dropWhile_cons, ignorable, if_true] at *
          exact skipped
      | false => rw [List.cons_append, meetsCased_cons ignorable, meetsCased_cons ignorable]

/-! ## Parts of texts -/

/-- Whether a capital sigma between two texts is final; the text before it is given nearest
first. -/
def endsWord (before after : List Char) : Bool :=
  meetsCased before && !meetsCased after

/-- The small form of a character between two texts. -/
def lowerBetween (before : List Char) (character : Char) (after : List Char) : List Char :=
  if character.toNat = 0x3a3 then
    if endsWord before after then [Char.ofNat 0x3c2] else [Char.ofNat 0x3c3]
  else lowerSingle character

/-- What becomes of a text between two others. -/
def lowerWithin (before : List Char) : List Char → List Char → List Char
  | [], _ => []
  | character :: rest, after =>
      lowerBetween before character (rest ++ after) ++ lowerWithin (character :: before) rest after

theorem lowerFrom_append_eq_lowerWithin (before text after : List Char) :
    lowerFrom before (text ++ after) =
      lowerWithin before text after ++ lowerFrom (text.reverse ++ before) after := by
  induction text generalizing before with
  | nil => rfl
  | cons character text ih =>
      rw [List.cons_append, lowerFrom, ih, lowerWithin, List.append_assoc, List.reverse_cons,
        List.append_assoc]
      rfl

theorem lowerFrom_eq_lowerWithin (before text : List Char) :
    lowerFrom before text = lowerWithin before text [] := by
  have whole := lowerFrom_append_eq_lowerWithin before text []
  rw [List.append_nil] at whole
  rw [whole]
  exact List.append_nil _

theorem lower_append_eq (text after : List Char) :
    lower (text ++ after) = lowerWithin [] text after ++ lowerWithin text.reverse after [] := by
  rw [lower, lowerFrom_append_eq_lowerWithin, lowerFrom_eq_lowerWithin, List.append_nil]

theorem length_lowerBetween (before after other behind : List Char) (character : Char) :
    (lowerBetween before character after).length =
      (lowerBetween other character behind).length := by
  unfold lowerBetween
  split
  · split <;> split <;> rfl
  · rfl

theorem length_lowerWithin (before text after other behind : List Char) :
    (lowerWithin before text after).length = (lowerWithin other text behind).length := by
  induction text generalizing before other with
  | nil => rfl
  | cons character text ih =>
      rw [lowerWithin, lowerWithin, List.length_append, List.length_append,
        ih (character :: before) (character :: other)]
      rw [length_lowerBetween before (text ++ after) other (text ++ behind) character]

theorem lowerBetween_eq_iff {character : Char} :
    lowerBetween before character after = lowerBetween other character behind ↔
      (character.toNat = 0x3a3 → endsWord before after = endsWord other behind) := by
  unfold lowerBetween
  by_cases sigma : character.toNat = 0x3a3
  · simp only [sigma, if_true, true_implies]
    cases endsWord before after <;> cases endsWord other behind <;> decide
  · simp [sigma]

/-- The same becomes of a text in two places exactly if each of its capital sigmas is final in
both or in neither. -/
theorem lowerWithin_eq_iff :
    lowerWithin before text after = lowerWithin other text behind ↔
      ∀ front sigma back, text = front ++ sigma :: back → sigma.toNat = 0x3a3 →
        endsWord (front.reverse ++ before) (back ++ after) =
          endsWord (front.reverse ++ other) (back ++ behind) := by
  induction text generalizing before other with
  | nil => simp [lowerWithin]
  | cons character text ih =>
      have parts : lowerWithin before (character :: text) after =
            lowerWithin other (character :: text) behind ↔
          lowerBetween before character (text ++ after) =
              lowerBetween other character (text ++ behind) ∧
            lowerWithin (character :: before) text after =
              lowerWithin (character :: other) text behind := by
        rw [lowerWithin, lowerWithin]
        constructor
        · intro same
          exact List.append_inj same (length_lowerBetween _ _ _ _ _)
        · rintro ⟨here, later⟩
          rw [here, later]
      rw [parts, lowerBetween_eq_iff, ih]
      constructor
      · rintro ⟨here, later⟩ front sigma back split isSigma
        cases front with
        | nil =>
            cases split
            exact here isSigma
        | cons first front =>
            cases split
            simpa using later front sigma back rfl isSigma
      · intro all
        refine ⟨fun isSigma => all [] character text rfl isSigma, ?_⟩
        intro front sigma back split isSigma
        simpa using all (character :: front) sigma back (by rw [split, List.cons_append]) isSigma

/-! ## Sigmas in danger -/

/-- The last character that is not case-ignorable is a capital sigma that ends a word. -/
def closesWithSigma (text : List Char) : Bool :=
  match text.reverse.dropWhile isCaseIgnorable with
  | [] => false
  | last :: before => decide (last.toNat = 0x3a3) && meetsCased before

/-- The first character that is not case-ignorable is a capital sigma with no letter behind it. -/
def opensWithSigma (text : List Char) : Bool :=
  match text.dropWhile isCaseIgnorable with
  | [] => false
  | first :: after => decide (first.toNat = 0x3a3) && !meetsCased after

theorem isCaseIgnorable_sigma {sigma : Char} (isSigma : sigma.toNat = 0x3a3) :
    isCaseIgnorable sigma = false := by
  rw [isCaseIgnorable, CodeRange.covers, isSigma]
  decide +kernel

theorem dropWhile_eq_sigma_iff {sigma : Char} (isSigma : sigma.toNat = 0x3a3) :
    text.dropWhile isCaseIgnorable = sigma :: more ↔
      ∃ marks, Ignorable marks ∧ text = marks ++ sigma :: more := by
  constructor
  · intro dropped
    refine ⟨text.takeWhile isCaseIgnorable, fun _ member => List.mem_takeWhile_imp member, ?_⟩
    rw [← dropped, List.takeWhile_append_dropWhile]
  · rintro ⟨marks, ignorable, rfl⟩
    rw [List.dropWhile_append_of_pos ignorable, List.dropWhile_cons_of_neg]
    rw [isCaseIgnorable_sigma isSigma]
    exact Bool.false_ne_true

theorem opensWithSigma_iff :
    opensWithSigma text = true ↔
      ∃ marks sigma back, text = marks ++ sigma :: back ∧ sigma.toNat = 0x3a3 ∧
        Ignorable marks ∧ meetsCased back = false := by
  constructor
  · intro opens
    unfold opensWithSigma at opens
    split at opens
    · cases opens
    · rename_i sigma back dropped
      rw [Bool.and_eq_true, decide_eq_true_eq, Bool.not_eq_true'] at opens
      rcases (dropWhile_eq_sigma_iff opens.1).mp dropped with ⟨marks, ignorable, rfl⟩
      exact ⟨marks, sigma, back, rfl, opens.1, ignorable, opens.2⟩
  · rintro ⟨marks, sigma, back, rfl, isSigma, ignorable, free⟩
    have dropped : (marks ++ sigma :: back).dropWhile isCaseIgnorable = sigma :: back :=
      (dropWhile_eq_sigma_iff isSigma).mpr ⟨marks, ignorable, rfl⟩
    rw [opensWithSigma, dropped]
    simp [isSigma, free]

theorem closesWithSigma_iff :
    closesWithSigma text = true ↔
      ∃ front sigma marks, text = front ++ sigma :: marks ∧ sigma.toNat = 0x3a3 ∧
        Ignorable marks ∧ meetsCased front.reverse = true := by
  constructor
  · intro closes
    unfold closesWithSigma at closes
    split at closes
    · cases closes
    · rename_i sigma before dropped
      rw [Bool.and_eq_true, decide_eq_true_eq] at closes
      rcases (dropWhile_eq_sigma_iff closes.1).mp dropped with ⟨marks, ignorable, split⟩
      refine ⟨before.reverse, sigma, marks.reverse, ?_, closes.1, ignorable.reverse, ?_⟩
      · rw [← List.reverse_reverse text, split]
        simp
      · rw [List.reverse_reverse]
        exact closes.2
  · rintro ⟨front, sigma, marks, rfl, isSigma, ignorable, cased⟩
    have dropped : (front ++ sigma :: marks).reverse.dropWhile isCaseIgnorable =
        sigma :: front.reverse :=
      (dropWhile_eq_sigma_iff isSigma).mpr ⟨marks.reverse, ignorable.reverse, by simp⟩
    rw [closesWithSigma, dropped]
    simp [isSigma, cased]

/-- Unless a sigma is in danger, the same becomes of a text by itself and between others. -/
theorem lowerWithin_eq_lower (opens : opensWithSigma text = true → meetsCased before = false)
    (closes : closesWithSigma text = true → meetsCased after = false) :
    lowerWithin before text after = lower text := by
  rw [lower, lowerFrom_eq_lowerWithin, lowerWithin_eq_iff]
  intro front sigma back split isSigma
  rw [List.append_nil, List.append_nil, endsWord, endsWord]
  by_cases first : Ignorable front
  · -- The sigma opens the text, so by itself it is not final.
    rw [meetsCased_append_of_ignorable first.reverse, meetsCased_of_ignorable first.reverse]
    cases letters : meetsCased back with
    | false =>
        rw [opens (opensWithSigma_iff.mpr ⟨front, sigma, back, split, isSigma, first, letters⟩)]
        rfl
    | true =>
        rw [meetsCased_append_of_not_ignorable (not_ignorable_of_meetsCased letters), letters]
        simp
  · rw [meetsCased_append_of_not_ignorable (mt ignorable_reverse_iff.mp first)]
    cases cased : meetsCased front.reverse with
    | false => rfl
    | true =>
        by_cases last : Ignorable back
        · have free :=
            closes (closesWithSigma_iff.mpr ⟨front, sigma, back, split, isSigma, last, cased⟩)
          rw [meetsCased_append_of_ignorable last, free, meetsCased_of_ignorable last]
        · rw [meetsCased_append_of_not_ignorable last]

/-- A sigma at the end is no longer final when a letter follows. -/
theorem lowerWithin_ne_lower_of_closes (closes : closesWithSigma text = true)
    (letters : meetsCased after = true) : lowerWithin [] text after ≠ lower text := by
  rcases closesWithSigma_iff.mp closes with ⟨front, sigma, marks, split, isSigma, ignorable, cased⟩
  rw [lower, lowerFrom_eq_lowerWithin, Ne, lowerWithin_eq_iff]
  intro same
  have final := same front sigma marks split isSigma
  rw [List.append_nil, List.append_nil, endsWord, endsWord, cased,
    meetsCased_append_of_ignorable ignorable, letters, meetsCased_of_ignorable ignorable] at final
  cases final

/-- A sigma at the start gets final when a letter precedes. -/
theorem lowerWithin_ne_lower_of_opens (opens : opensWithSigma text = true)
    (letters : meetsCased before = true) : lowerWithin before text [] ≠ lower text := by
  rcases opensWithSigma_iff.mp opens with ⟨marks, sigma, back, split, isSigma, ignorable, free⟩
  rw [lower, lowerFrom_eq_lowerWithin, Ne, lowerWithin_eq_iff]
  intro same
  have final := same marks sigma back split isSigma
  rw [List.append_nil, List.append_nil, endsWord, endsWord, free,
    meetsCased_append_of_ignorable ignorable.reverse, letters,
    meetsCased_of_ignorable ignorable.reverse] at final
  cases final

/-! ## A letter that nothing else becomes -/

theorem lowerWithin_ne_nil (inhabited : text ≠ []) : lowerWithin before text after ≠ [] := by
  intro nothing
  have length := length_lowerWithin before text after before []
  rw [nothing, ← lowerFrom_eq_lowerWithin] at length
  exact lowerFrom_ne_nil inhabited (List.eq_nil_of_length_eq_zero length.symm)

theorem eq_of_ofNat_eq_a {code : Nat} (same : Char.ofNat code = 'a') : code = 0x61 := by
  rw [Char.ofNat] at same
  by_cases valid : code.isValidChar
  · rw [dif_pos valid] at same
    exact congrArg Char.toNat same
  · rw [dif_neg valid] at same
    exact absurd same (by decide)

theorem eq_of_a_mem_lowerSingle {character : Char} (member : 'a' ∈ lowerSingle character) :
    character = 'a' ∨ character = 'A' := by
  unfold lowerSingle at member
  split at member
  · rename_i ascii
    have every : ∀ code < 0x80, 'a' = (Char.ofNat code).toLower → code = 0x61 ∨ code = 0x41 := by
      decide +kernel
    have same := every character.toNat ascii
    rw [Char.ofNat_toNat] at same
    rcases same (List.mem_singleton.mp member) with code | code
    · exact .inl (Char.toNat_inj.mp code)
    · exact .inr (Char.toNat_inj.mp code)
  · split at member
    · exact absurd member (by decide)
    · split at member
      · rename_i run found
        have beyond : ∀ run ∈ caseRuns, 0x61 < run.small := by decide +kernel
        have bound := beyond run (List.mem_of_find?_eq_some found)
        have code := eq_of_ofNat_eq_a (List.mem_singleton.mp member).symm
        omega
      · exact .inl (List.mem_singleton.mp member).symm

/-- Neither a mark nor a sigma becomes an `a`. -/
theorem a_notMem_lowerWithin
    (others : ∀ character ∈ text, isCaseIgnorable character = true ∨ character.toNat = 0x3a3) :
    'a' ∉ lowerWithin before text after := by
  induction text generalizing before with
  | nil => exact List.not_mem_nil
  | cons character text ih =>
      obtain ⟨first, later⟩ := List.forall_mem_cons.mp others
      rw [lowerWithin, List.mem_append, not_or]
      refine ⟨?_, ih later⟩
      unfold lowerBetween
      split
      · split <;> decide
      · rename_i plain
        intro member
        have ignorable := first.resolve_right plain
        rcases eq_of_a_mem_lowerSingle member with rfl | rfl
        · exact absurd ignorable (by decide +kernel)
        · exact absurd ignorable (by decide +kernel)

theorem cons_lower_ne_append_a (closes : closesWithSigma text = true) (first : Char)
    (start : List Char) : first :: lower text ≠ start ++ ['a'] := by
  rcases closesWithSigma_iff.mp closes with ⟨front, sigma, marks, rfl, isSigma, ignorable, -⟩
  have absent : 'a' ∉ lowerWithin front.reverse (sigma :: marks) [] :=
    a_notMem_lowerWithin (List.forall_mem_cons.mpr
      ⟨.inr isSigma, fun character member => .inl (ignorable character member)⟩)
  intro same
  rw [lower_append_eq, ← List.cons_append] at same
  have last := congrArg List.getLast? same
  rw [List.getLast?_append_of_ne_nil _ (lowerWithin_ne_nil (List.cons_ne_nil _ _)),
    List.getLast?_append_of_ne_nil _ (List.cons_ne_nil _ _)] at last
  exact absent (List.mem_of_getLast? last)

theorem lower_append_ne_a_cons (opens : opensWithSigma text = true) (last : Char)
    (tail : List Char) : lower text ++ [last] ≠ 'a' :: tail := by
  rcases opensWithSigma_iff.mp opens with ⟨marks, sigma, back, rfl, isSigma, ignorable, -⟩
  have absent : 'a' ∉ lowerWithin [] (marks ++ [sigma]) back := by
    apply a_notMem_lowerWithin
    intro character member
    rcases List.mem_append.mp member with mark | only
    · exact .inl (ignorable character mark)
    · exact .inr (List.mem_singleton.mp only ▸ isSigma)
  intro same
  rw [List.append_cons marks, lower_append_eq, List.append_assoc] at same
  have first := congrArg List.head? same
  rw [List.head?_append_of_ne_nil _ (lowerWithin_ne_nil (by simp))] at first
  exact absent (List.mem_of_mem_head? first)

end WidgetStyle.Text
