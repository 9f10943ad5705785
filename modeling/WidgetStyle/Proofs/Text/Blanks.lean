import Mathlib.Data.List.DropRight
import WidgetStyle.Text.Blank

/-!
# Skipping and trimming blanks

Skipping passes over leading blanks and stops at the first character that is none.
Trimming splits a text into blanks, a text that has blanks at neither end, and blanks
again, so it has nothing left to do when it is done once more.
-/

namespace WidgetStyle.Text

variable {blanks rest text : List Char} {character : Char}

/-- There is nothing but blanks in the text. -/
def Blank (text : List Char) : Prop :=
  ∀ character ∈ text, isBlank character = true

instance (text : List Char) : Decidable (Blank text) :=
  decidable_of_iff (text.all isBlank = true) List.all_eq_true

@[simp] theorem blank_nil : Blank [] := by
  simp [Blank]

@[simp] theorem skipBlanks_append (blank : Blank blanks) (rest : List Char) :
    skipBlanks (blanks ++ rest) = skipBlanks rest :=
  List.dropWhile_append_of_pos blank

@[simp] theorem skipBlanks_of_blank (blank : Blank blanks) : skipBlanks blanks = [] :=
  List.dropWhile_eq_nil_iff.mpr blank

@[simp] theorem skipBlanks_cons (solid : isBlank character = false) (rest : List Char) :
    skipBlanks (character :: rest) = character :: rest :=
  List.dropWhile_cons_of_neg (by rw [solid]; exact Bool.false_ne_true)

theorem skipBlanks_solid (inhabited : text ≠ [])
    (solid : ∀ character ∈ text, isBlank character = false) (rest : List Char) :
    skipBlanks (text ++ rest) = text ++ rest := by
  cases text with
  | nil => exact absurd rfl inhabited
  | cons character text => exact skipBlanks_cons (solid character List.mem_cons_self) (text ++ rest)

/-- What is false of every blank in the table is false of every blank. -/
theorem eq_false_of_isBlank {test : Char → Bool}
    (table : ∀ code ∈ blankCodes, test (Char.ofNat code) = false)
    (blank : isBlank character = true) : test character = false := by
  have listed := table character.toNat (List.contains_iff_mem.mp blank)
  rwa [Char.ofNat_toNat] at listed

/-- What is true of no blank in the table is true of no blank. -/
theorem isBlank_eq_false {test : Char → Bool} (passes : test character = true)
    (table : ∀ code ∈ blankCodes, test (Char.ofNat code) = false) : isBlank character = false := by
  cases blank : isBlank character with
  | false => rfl
  | true =>
      rw [eq_false_of_isBlank table blank] at passes
      cases passes

theorem exists_blank_append_skipBlanks (text : List Char) :
    ∃ blanks, Blank blanks ∧ text = blanks ++ skipBlanks text :=
  ⟨text.takeWhile isBlank, fun _ member => List.mem_takeWhile_imp member,
    List.takeWhile_append_dropWhile.symm⟩

/-! ## Trimming -/

/-- The text is not empty and has blanks at neither end. -/
structure Compact (text : List Char) : Prop where
  inhabited : text ≠ []
  start : ∀ first ∈ text.head?, isBlank first = false
  stop : ∀ last ∈ text.getLast?, isBlank last = false

theorem trimEnd_append (blank : Blank blanks) (text : List Char) :
    trimEnd (text ++ blanks) = trimEnd text := by
  rw [trimEnd, List.reverse_append, List.dropWhile_append_of_pos, trimEnd]
  intro character member
  exact blank character (List.mem_reverse.mp member)

theorem trimEnd_eq_self (stop : ∀ last ∈ text.getLast?, isBlank last = false) :
    trimEnd text = text := by
  refine List.rdropWhile_eq_self_iff.mpr fun inhabited => ?_
  simpa using stop _ (List.getLast?_eq_some_getLast inhabited)

/-- Of a text between blanks, trimming leaves the text. -/
theorem Compact.trim_eq {front back : List Char} (compact : Compact text)
    (blankFront : Blank front) (blankBack : Blank back) : trim (front ++ text ++ back) = text := by
  rcases text with _ | ⟨first, rest⟩
  · exact absurd rfl compact.inhabited
  · have solid := compact.start first rfl
    rw [trim, List.append_assoc, skipBlanks_append blankFront, List.cons_append,
      skipBlanks_cons solid, ← List.cons_append, trimEnd_append blankBack,
      trimEnd_eq_self compact.stop]

theorem compact_trim (inhabited : trim text ≠ []) : Compact (trim text) := by
  constructor
  case inhabited => exact inhabited
  case start =>
    -- The trimmed text begins as the text does once its blanks are skipped.
    have begins : trim text <+: skipBlanks text := List.rdropWhile_prefix _ _
    have first := List.head?_dropWhile_not isBlank text
    intro character head
    rcases begins with ⟨dropped, same⟩
    rw [← skipBlanks, ← same, List.head?_append_of_ne_nil _ inhabited,
      Option.mem_def.mp head] at first
    exact first
  case stop =>
    intro character last
    have solid := List.rdropWhile_last_not isBlank (skipBlanks text) inhabited
    rw [Option.mem_def, List.getLast?_eq_some_getLast inhabited, Option.some.injEq] at last
    rw [← last]
    exact Bool.eq_false_iff.mpr solid

@[simp] theorem trim_trim (text : List Char) : trim (trim text) = trim text := by
  by_cases inhabited : trim text = []
  · rw [inhabited]
    rfl
  · have trimmed := (compact_trim inhabited).trim_eq blank_nil blank_nil
    rwa [List.nil_append, List.append_nil] at trimmed

/-- A text is what trimming leaves of it between blanks. -/
theorem exists_blank_append_trim (text : List Char) :
    ∃ front back, Blank front ∧ Blank back ∧ text = front ++ trim text ++ back := by
  rcases exists_blank_append_skipBlanks text with ⟨front, blankFront, split⟩
  have ending : trim text ++ (skipBlanks text).rtakeWhile isBlank = skipBlanks text :=
    List.rdropWhile_append_rtakeWhile
  refine ⟨front, (skipBlanks text).rtakeWhile isBlank, blankFront, ?_, ?_⟩
  · exact fun _ member => List.mem_rtakeWhile_imp member
  · rw [List.append_assoc, ending]
    exact split

@[simp] theorem trim_of_blank (blank : Blank text) : trim text = [] := by
  rw [trim, skipBlanks_of_blank blank]
  rfl

theorem blank_of_trim (nothing : trim text = []) : Blank text := by
  rcases exists_blank_append_trim text with ⟨front, back, blankFront, blankBack, split⟩
  rw [nothing, List.append_nil] at split
  rw [split]
  intro character member
  exact (List.mem_append.mp member).elim (blankFront character) (blankBack character)

end WidgetStyle.Text
