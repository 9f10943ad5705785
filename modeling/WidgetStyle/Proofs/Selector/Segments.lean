import Mathlib.Data.List.Forall2
import WidgetStyle.Proofs.Selector.Continuation
import WidgetStyle.Selector.Group

/-!
# Groups of selectors

A group is cut into segments by a scan that counts quotes and brackets wherever they stand,
and only then are its selectors read.  The scan and the reader can disagree: in a text without
quotes around it, a quote or a bracket is a character like any other to the reader.  Selectors
joined with commas are read one by one exactly when to the scan, too, every comma inside them
is sheltered and every quote and bracket of all but the last is closed.
-/

namespace WidgetStyle.Selector

open WidgetStyle.Text

variable {nesting : Nesting} {text more : List Char}

/-- The characters that change the nesting. -/
def scanSigns : List Char := ['\'', '"', '[', '(', ']', ')']

theorem after_of_plain {depth : Nat} {character : Char} (plain : character ∉ scanSigns) :
    Nesting.after ⟨none, depth⟩ character = ⟨none, depth⟩ := by
  simp only [scanSigns, List.mem_cons, List.not_mem_nil, or_false, not_or] at plain
  simp [Nesting.after, plain]

namespace Nesting

/-- The nesting after all characters of a text. -/
def past (nesting : Nesting) (text : List Char) : Nesting :=
  text.foldl Nesting.after nesting

@[simp] theorem past_nil : nesting.past [] = nesting := rfl

@[simp] theorem past_cons (character : Char) :
    nesting.past (character :: text) = (nesting.after character).past text := rfl

@[simp] theorem past_append :
    nesting.past (text ++ more) = (nesting.past text).past more :=
  List.foldl_append

@[simp] theorem isOutermost_iff : nesting.isOutermost = true ↔ nesting = {} := by
  rcases nesting with ⟨_ | quote, depth⟩ <;> simp [isOutermost]

end Nesting

/-! ## The cuts -/

/-- Every comma of the text stands inside a quote or a bracket. -/
def Sheltered (nesting : Nesting) (text : List Char) : Prop :=
  ∀ before after, text = before ++ ',' :: after → (nesting.past before).isOutermost = false

theorem sheltered_nil (nesting : Nesting) : Sheltered nesting [] := by
  intro before after same
  cases before <;> cases same

theorem sheltered_cons {character : Char} :
    Sheltered nesting (character :: text) ↔
      (character == ',' && nesting.isOutermost) = false ∧
        Sheltered (nesting.after character) text := by
  constructor
  · intro sheltered
    refine ⟨?_, fun before after same => sheltered (character :: before) after (by simp [same])⟩
    rw [Bool.and_eq_false_imp, beq_iff_eq]
    rintro rfl
    exact sheltered [] text rfl
  · rintro ⟨inner, sheltered⟩ before after same
    cases before with
    | nil =>
        cases same
        exact inner
    | cons first before =>
        cases same
        exact sheltered before after rfl

theorem segments_separator (outermost : nesting.isOutermost = true) (rest : List Char) :
    segments nesting (',' :: rest) = [] :: segments nesting rest := by
  rw [segments, outermost]
  rfl

theorem segments_cons {character : Char} {rest first : List Char} {others : List (List Char)}
    (inner : (character == ',' && nesting.isOutermost) = false)
    (cut : segments (nesting.after character) rest = first :: others) :
    segments nesting (character :: rest) = (character :: first) :: others := by
  rw [segments, inner, cut]
  rfl

theorem exists_segments (nesting : Nesting) (text : List Char) :
    ∃ first others, segments nesting text = first :: others := by
  induction text generalizing nesting with
  | nil => exact ⟨[], [], rfl⟩
  | cons character rest ih =>
      obtain ⟨first, others, cut⟩ := ih (nesting.after character)
      cases inner : character == ',' && nesting.isOutermost with
      | false => exact ⟨_, _, segments_cons inner cut⟩
      | true =>
          rw [Bool.and_eq_true, beq_iff_eq] at inner
          obtain ⟨rfl, outermost⟩ := inner
          exact ⟨_, _, segments_separator outermost rest⟩

/-- A sheltered text stays in one segment, which goes on with what follows. -/
theorem segments_append {first : List Char} {others : List (List Char)}
    (sheltered : Sheltered nesting text)
    (cut : segments (nesting.past text) more = first :: others) :
    segments nesting (text ++ more) = (text ++ first) :: others := by
  induction text generalizing nesting with
  | nil => exact cut
  | cons character rest ih =>
      obtain ⟨inner, sheltered⟩ := sheltered_cons.mp sheltered
      exact segments_cons inner (ih sheltered cut)

theorem segments_of_sheltered (sheltered : Sheltered nesting text) :
    segments nesting text = [text] := by
  have whole : segments nesting (text ++ []) = (text ++ []) :: [] :=
    segments_append sheltered rfl
  rwa [List.append_nil] at whole

/-- The first segment ends at the first comma that has no shelter. -/
theorem segments_cut {before after : List Char} (sheltered : Sheltered nesting before)
    (outermost : (nesting.past before).isOutermost = true) :
    segments nesting (before ++ ',' :: after) =
      before :: segments (nesting.past before) after := by
  rw [segments_append sheltered (segments_separator outermost after), List.append_nil]

theorem sheltered_or_cut (nesting : Nesting) (text : List Char) :
    Sheltered nesting text ∨ ∃ before after, text = before ++ ',' :: after ∧
      Sheltered nesting before ∧ (nesting.past before).isOutermost = true := by
  induction text generalizing nesting with
  | nil => exact .inl (sheltered_nil nesting)
  | cons character rest ih =>
      cases inner : character == ',' && nesting.isOutermost with
      | true =>
          rw [Bool.and_eq_true, beq_iff_eq] at inner
          obtain ⟨rfl, outermost⟩ := inner
          exact .inr ⟨[], rest, rfl, sheltered_nil nesting, outermost⟩
      | false =>
          rcases ih (nesting.after character) with
            sheltered | ⟨before, after, rfl, sheltered, outermost⟩
          · exact .inl (sheltered_cons.mpr ⟨inner, sheltered⟩)
          · exact .inr ⟨character :: before, after, rfl,
              sheltered_cons.mpr ⟨inner, sheltered⟩, outermost⟩

theorem segments_eq_singleton_iff : segments nesting text = [text] ↔ Sheltered nesting text := by
  constructor
  · intro whole
    rcases sheltered_or_cut nesting text with
      sheltered | ⟨before, after, rfl, sheltered, outermost⟩
    · exact sheltered
    · rw [segments_cut sheltered outermost] at whole
      have same := congrArg List.length (List.cons.inj whole).1
      simp at same
  · exact segments_of_sheltered

instance (nesting : Nesting) (text : List Char) : Decidable (Sheltered nesting text) :=
  decidable_of_iff _ segments_eq_singleton_iff

/-! ## The first segment -/

theorem not_blank_of_readSelector {selector : Selector}
    (read : readSelector text = .ok selector) : text.all isBlank = false := by
  obtain ⟨first, tail, same, -⟩ := (readSelector_eq_ok_iff.mp read).exists_head
  rw [Bool.eq_false_iff]
  intro blank
  rw [skipBlanks, List.dropWhile_eq_nil_iff.mpr (List.all_eq_true.mp blank)] at same
  cases same

theorem exists_error_of_readSegments {first : List Char} {error : SelectorFailure}
    (visible : first.all isBlank = false) (refused : readSelector first = .error error)
    (offset : Nat) (others : List (List Char)) :
    ∃ fault, readSegments offset (first :: others) = .error fault := by
  rw [readSegments, visible, refused]
  exact ⟨_, rfl⟩

theorem exists_error_of_cut {before after : List Char} {selector : Selector}
    (read : readSelector (before ++ ',' :: after) = .ok selector) (offset : Nat)
    (others : List (List Char)) :
    ∃ fault, readSegments offset (before :: others) = .error fault := by
  cases visible : before.all isBlank with
  | true =>
      obtain ⟨error, refused⟩ := exists_error_of_blank_comma (List.all_eq_true.mp visible) after
      rw [refused] at read
      cases read
  | false =>
      cases early : readSelector before with
      | error error => exact exists_error_of_readSegments visible early offset others
      | ok earlier =>
          obtain ⟨error, refused⟩ := exists_error_of_readSelector_comma early after
          rw [refused] at read
          cases read

/-- A selector that is cut inside starts with a segment that is no selector. -/
theorem exists_error_of_unsheltered {selector : Selector}
    (read : readSelector text = .ok selector) (bare : ¬ Sheltered {} text) (offset : Nat)
    (more : List Char) :
    ∃ fault, readSegments offset (segments {} (text ++ more)) = .error fault := by
  rcases sheltered_or_cut {} text with
    sheltered | ⟨before, after, rfl, sheltered, outermost⟩
  · exact absurd sheltered bare
  · rw [List.append_assoc, List.cons_append, segments_cut sheltered outermost]
    exact exists_error_of_cut read offset _

/-- A selector that the scan does not leave in time takes the comma behind it along. -/
theorem exists_error_of_unclosed {selector : Selector}
    (read : readSelector text = .ok selector) (sheltered : Sheltered {} text)
    (unclosed : Nesting.past {} text ≠ {}) (offset : Nat) (more : List Char) :
    ∃ fault, readSegments offset (segments {} (text ++ ',' :: more)) = .error fault := by
  have inner : (',' == ',' && (Nesting.past {} text).isOutermost) = false := by
    rw [beq_self_eq_true, Bool.true_and, Bool.eq_false_iff, ne_eq, Nesting.isOutermost_iff]
    exact unclosed
  obtain ⟨first, others, cut⟩ := exists_segments ((Nesting.past {} text).after ',') more
  obtain ⟨error, refused⟩ := exists_error_of_readSelector_comma read first
  rw [segments_append sheltered (segments_cons inner cut)]
  refine exists_error_of_readSegments ?_ refused offset others
  rw [List.all_append, not_blank_of_readSelector read, Bool.false_and]

theorem readSegments_of_readSelector {selector : Selector}
    (read : readSelector text = .ok selector) (offset : Nat) (others : List (List Char)) :
    readSegments offset (text :: others) =
      (readSegments (offset + text.length + 1) others).map (selector :: ·) := by
  rw [readSegments, not_blank_of_readSelector read, read]
  rfl

/-! ## Empty groups -/

/-- There are only blanks and commas in the text. -/
def Vacant (text : List Char) : Prop :=
  ∀ character ∈ text, isBlank character = true ∨ character = ','

theorem vacant_of_segments {nesting : Nesting} {text : List Char}
    (blank : ∀ segment ∈ segments nesting text, Blank segment) : Vacant text := by
  induction text generalizing nesting with
  | nil => exact fun _ member => by cases member
  | cons character rest ih =>
      cases inner : character == ',' && nesting.isOutermost with
      | true =>
          rw [Bool.and_eq_true, beq_iff_eq] at inner
          obtain ⟨rfl, outermost⟩ := inner
          rw [segments_separator outermost] at blank
          exact List.forall_mem_cons.mpr ⟨.inr rfl, ih (List.forall_mem_cons.mp blank).2⟩
      | false =>
          obtain ⟨first, others, cut⟩ := exists_segments (nesting.after character) rest
          rw [segments_cons inner cut, List.forall_mem_cons] at blank
          obtain ⟨solid, firstBlank⟩ := List.forall_mem_cons.mp blank.1
          refine List.forall_mem_cons.mpr ⟨.inl solid, @ih (nesting.after character) ?_⟩
          rw [cut]
          exact List.forall_mem_cons.mpr ⟨firstBlank, blank.2⟩

theorem Vacant.blank_of_mem_segments {text : List Char} (vacant : Vacant text) :
    ∀ segment ∈ segments {} text, Blank segment := by
  induction text with
  | nil =>
      rintro segment member character among
      rw [List.mem_singleton.mp member] at among
      cases among
  | cons character rest ih =>
      obtain ⟨first, later⟩ := List.forall_mem_cons.mp vacant
      rcases first with blank | rfl
      · have apart : character ∉ ',' :: scanSigns := by
          intro sign
          simp only [scanSigns, List.mem_cons, List.not_mem_nil, or_false] at sign
          rcases sign with rfl | rfl | rfl | rfl | rfl | rfl | rfl <;> cases blank
        have stays : Nesting.after {} character = {} :=
          after_of_plain (List.not_mem_of_not_mem_cons apart)
        have inner : (character == ',' && Nesting.isOutermost {}) = false := by
          rw [beq_false_of_ne (List.ne_of_not_mem_cons apart), Bool.false_and]
        obtain ⟨segment, others, cut⟩ := exists_segments {} rest
        have both := List.forall_mem_cons.mp (cut ▸ ih later)
        rw [← stays] at cut
        rw [segments_cons inner cut]
        refine List.forall_mem_cons.mpr ⟨?_, both.2⟩
        exact List.forall_mem_cons.mpr ⟨blank, both.1⟩
      · rw [segments_separator rfl]
        refine List.forall_mem_cons.mpr ⟨?_, ih later⟩
        rintro _ ⟨⟩

theorem readSegments_eq_nil_iff {pieces : List (List Char)} (offset : Nat) :
    readSegments offset pieces = .ok [] ↔ ∀ segment ∈ pieces, Blank segment := by
  induction pieces generalizing offset with
  | nil => exact iff_of_true rfl fun _ member => by cases member
  | cons segment others ih =>
      rw [readSegments, List.forall_mem_cons]
      cases blank : segment.all isBlank with
      | true =>
          have isBlank : Blank segment := List.all_eq_true.mp blank
          simpa [isBlank] using ih (offset + segment.length + 1)
      | false =>
          have visible : ¬ Blank segment := fun isBlank => by
            rw [List.all_eq_true.mpr isBlank] at blank
            cases blank
          cases readSelector segment with
          | error error => simp [visible]
          | ok selector =>
              cases readSegments (offset + segment.length + 1) others <;>
                simp [visible, Except.map]

/-- A group is empty exactly when there is nothing in its text to be read. -/
theorem parseGroup_eq_nil_iff {text : String} : parseGroup text = .ok [] ↔ Vacant text.toList := by
  rw [parseGroup, readGroup, readSegments_eq_nil_iff]
  exact ⟨vacant_of_segments, Vacant.blank_of_mem_segments⟩

/-! ## Whole groups -/

theorem readSegments_one_iff {selector : Selector} {group : List Selector}
    (read : readSelector text = .ok selector) (offset : Nat) :
    readSegments offset (segments {} text) = .ok group ↔
      group = [selector] ∧ Sheltered {} text := by
  by_cases sheltered : Sheltered {} text
  · rw [segments_of_sheltered sheltered, readSegments_of_readSelector read]
    simp [readSegments, Except.map, sheltered, eq_comm]
  · obtain ⟨fault, refused⟩ := exists_error_of_unsheltered read sheltered offset []
    rw [List.append_nil] at refused
    simp [refused, sheltered]

/-- The first selector of a group is read apart from the others exactly when it keeps its
commas and its brackets to itself. -/
theorem readSegments_cons_iff {selector : Selector} {group : List Selector}
    (read : readSelector text = .ok selector) (offset : Nat) (more : List Char) :
    readSegments offset (segments {} (text ++ ',' :: more)) = .ok group ↔
      Sheltered {} text ∧ Nesting.past {} text = {} ∧
        ∃ others, readSegments (offset + text.length + 1) (segments {} more) = .ok others ∧
          group = selector :: others := by
  by_cases sheltered : Sheltered {} text
  · by_cases closed : Nesting.past {} text = {}
    · have outermost := Nesting.isOutermost_iff.mpr closed
      rw [segments_cut sheltered outermost, readSegments_of_readSelector read, closed]
      cases readSegments (offset + text.length + 1) (segments {} more) with
      | error fault => simp [Except.map]
      | ok others => simp [Except.map, sheltered, eq_comm]
    · obtain ⟨fault, refused⟩ := exists_error_of_unclosed read sheltered closed offset more
      simp [refused, closed]
  · obtain ⟨fault, refused⟩ :=
      exists_error_of_unsheltered read sheltered offset (',' :: more)
    simp [refused, sheltered]

theorem readSegments_joined_iff {texts : List (List Char)} {selectors group : List Selector}
    (inhabited : texts ≠ [])
    (reads : List.Forall₂ (fun text selector => readSelector text = .ok selector)
      texts selectors) (offset : Nat) :
    readSegments offset (segments {} ([','].intercalate texts)) = .ok group ↔
      group = selectors ∧ (∀ text ∈ texts, Sheltered {} text) ∧
        ∀ text ∈ texts.dropLast, Nesting.past {} text = {} := by
  induction reads generalizing offset group with
  | nil => exact absurd rfl inhabited
  | @cons text selector texts selectors read later ih =>
      cases texts with
      | nil =>
          cases later
          simpa using readSegments_one_iff read offset
      | cons second texts =>
          rw [List.intercalate_cons_cons, List.append_assoc, List.singleton_append,
            readSegments_cons_iff read, List.dropLast_cons_cons]
          constructor
          · rintro ⟨sheltered, closed, others, found, rfl⟩
            obtain ⟨rfl, shelteredToo, closedToo⟩ := (ih (List.cons_ne_nil _ _) _).mp found
            exact ⟨rfl, List.forall_mem_cons.mpr ⟨sheltered, shelteredToo⟩,
              List.forall_mem_cons.mpr ⟨closed, closedToo⟩⟩
          · rintro ⟨rfl, shelteredAll, closedAll⟩
            obtain ⟨sheltered, shelteredToo⟩ := List.forall_mem_cons.mp shelteredAll
            obtain ⟨closed, closedToo⟩ := List.forall_mem_cons.mp closedAll
            exact ⟨sheltered, closed, selectors,
              (ih (List.cons_ne_nil _ _) _).mpr ⟨rfl, shelteredToo, closedToo⟩, rfl⟩

theorem parseGroup_intercalate (texts : List String) :
    parseGroup (String.intercalate "," texts) =
      readSegments 0 (segments {} ([','].intercalate (texts.map String.toList))) := by
  rw [parseGroup, readGroup, String.toList_intercalate]
  rfl

/-- Selectors that are read one by one are read from their texts joined with commas exactly
when to the scan, too, every comma inside a text is sheltered, and every text but the last
closes its quotes and brackets. -/
theorem parseGroup_intercalate_iff {texts : List String} {selectors group : List Selector}
    (inhabited : texts ≠ [])
    (reads : List.Forall₂ (fun text selector => parse text = .ok selector) texts selectors) :
    parseGroup (String.intercalate "," texts) = .ok group ↔
      group = selectors ∧ (∀ text ∈ texts, Sheltered {} text.toList) ∧
        ∀ text ∈ texts.dropLast, Nesting.past {} text.toList = {} := by
  rw [parseGroup_intercalate, readSegments_joined_iff (mt List.map_eq_nil_iff.mp inhabited)
    (List.forall₂_map_left_iff.mpr reads), ← List.map_dropLast, List.forall_mem_map,
    List.forall_mem_map]

/-- The selector of one attribute with the given text. -/
def ofNamed (value : String) : Selector :=
  .ofCompound { attributes := [⟨"name", .compare .equals (some value) false⟩] }

/-- Quotes shelter the comma and the bracket of the first text; the second is the last. -/
theorem parseGroup_quoted_comma :
    parse "[name='a, (b']" = .ok (ofNamed "a, (b") ∧ parse "[name=x(y]" = .ok (ofNamed "x(y") ∧
      parseGroup (String.intercalate "," ["[name='a, (b']", "[name=x(y]"]) =
        .ok [ofNamed "a, (b", ofNamed "x(y"] := by
  have first : parse "[name='a, (b']" = .ok (ofNamed "a, (b") := by decide +kernel
  have second : parse "[name=x(y]" = .ok (ofNamed "x(y") := by decide +kernel
  refine ⟨first, second, ?_⟩
  refine (parseGroup_intercalate_iff (List.cons_ne_nil _ _)
    (.cons first (.cons second .nil))).mpr ⟨rfl, ?_, ?_⟩
  · decide +kernel
  · decide +kernel

/-- A bracket closes too early for a comma, and a quote is never closed. -/
theorem parseGroup_bare_comma :
    parse "[name=b),c]" = .ok (ofNamed "b),c") ∧
      parseGroup "[name=b),c]" = .error (.refused ⟨.expectedAttributeClosing, 8⟩) ∧
      parse "[name=x'y]" = .ok (ofNamed "x'y") ∧
      parse "B" = .ok (.ofCompound { element := some "B" }) ∧
      parseGroup (String.intercalate "," ["[name=x'y]", "B"]) =
        .error (.refused ⟨.unexpectedCharacter ',', 10⟩) := by
  refine ⟨?_, ?_, ?_, ?_, ?_⟩
  · decide +kernel
  · decide +kernel
  · decide +kernel
  · decide +kernel
  · decide +kernel

end WidgetStyle.Selector
