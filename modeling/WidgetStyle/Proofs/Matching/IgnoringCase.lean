import WidgetStyle.Proofs.Matching.Attributes
import WidgetStyle.Proofs.Text.Sigma

/-!
# Ignoring case

A condition that ignores case compares the lower case of both texts.  What compares well as it is
compares well in lower case, unless the condition looks for a part of a text: the lower case of the
part need not be a part of the lower case of the whole.  It is the form of a capital sigma that
makes the difference, and a condition loses a widget by ignoring case exactly if its text has a
sigma in danger at an end that the comparison leaves open.
-/

namespace WidgetStyle

open WidgetStyle.Text

namespace Comparison

variable {comparison : Comparison} {subject value : List Char}

/-- Whether the lower case of the text can be missed where the text is found, for a sigma at an end
where the comparison lets the other text go on. -/
def misreads (comparison : Comparison) (value : List Char) : Bool :=
  match comparison with
  | equals | containsWord | startsWithWord => false
  | startsWith => closesWithSigma value
  | endsWith => opensWithSigma value
  | contains => opensWithSigma value || closesWithSigma value

/-- A hyphen ends a word, so a sigma before it is final as at the end of a text. -/
theorem meetsCased_hyphen (rest : List Char) : meetsCased ('-' :: rest) = false := by
  have solid : isCaseIgnorable '-' = false := by decide +kernel
  rw [meetsCased_cons solid]
  decide +kernel

theorem holds_lower (safe : comparison.misreads value = false)
    (holds : comparison.holds subject value = true) :
    comparison.holds (lower subject) (lower value) = true := by
  cases comparison with
  | equals =>
      rw [Comparison.holds, beq_iff_eq] at *
      rw [holds]
  | containsWord =>
      rw [Comparison.holds, beq_iff_eq] at *
      rw [holds]
  | startsWithWord =>
      rw [Comparison.holds, Bool.or_eq_true, beq_iff_eq, List.isPrefixOf_iff_prefix] at *
      rcases holds with rfl | ⟨after, rfl⟩
      · exact .inl rfl
      · have parts : value ++ ['-'] ++ after = value ++ '-' :: after := by simp
        have same : lowerWithin [] value ('-' :: after) = lower value :=
          lowerWithin_eq_lower (fun _ => rfl) (fun _ => meetsCased_hyphen after)
        have hyphen : lowerWithin value.reverse ('-' :: after) [] =
            '-' :: lowerWithin ('-' :: value.reverse) after [] := rfl
        rw [parts, lower_append_eq, same, hyphen]
        exact .inr ⟨_, List.append_assoc _ _ _⟩
  | startsWith =>
      rw [Comparison.holds, List.isPrefixOf_iff_prefix] at *
      rcases holds with ⟨after, rfl⟩
      have same : lowerWithin [] value after = lower value :=
        lowerWithin_eq_lower (fun _ => rfl) (fun closes => absurd safe (by simp [misreads, closes]))
      rw [lower_append_eq, same]
      exact List.prefix_append _ _
  | endsWith =>
      rw [Comparison.holds, List.isSuffixOf_iff_suffix] at *
      rcases holds with ⟨before, rfl⟩
      have same : lowerWithin before.reverse value [] = lower value :=
        lowerWithin_eq_lower (fun opens => absurd safe (by simp [misreads, opens])) (fun _ => rfl)
      rw [lower_append_eq, same]
      exact List.suffix_append _ _
  | contains =>
      rw [Comparison.holds, isInside_iff_infix] at *
      rcases holds with ⟨before, after, rfl⟩
      rw [misreads, Bool.or_eq_false_iff] at safe
      have same : lowerWithin before.reverse value after = lower value :=
        lowerWithin_eq_lower (fun opens => absurd safe.1 (by simp [opens]))
          (fun closes => absurd safe.2 (by simp [closes]))
      rw [List.append_assoc, lower_append_eq, ← lowerFrom_eq_lowerWithin,
        lowerFrom_append_eq_lowerWithin, same, ← List.append_assoc]
      exact ⟨_, _, rfl⟩

/-! ## Texts that are missed -/

theorem eq_cons_or_append_of_infix {part whole : List Char} (inside : part <:+: whole)
    (length : whole.length = part.length + 1) :
    (∃ first, whole = first :: part) ∨ ∃ last, whole = part ++ [last] := by
  rcases inside with ⟨front, back, rfl⟩
  rw [List.length_append, List.length_append] at length
  cases front with
  | nil =>
      have single : back.length = 1 := by
        rw [List.length_nil] at length
        omega
      obtain ⟨last, rfl⟩ := List.length_eq_one_iff.mp single
      exact .inr ⟨last, rfl⟩
  | cons first front =>
      rw [List.length_cons] at length
      have nothing : front = [] := List.eq_nil_of_length_eq_zero (by omega)
      have none : back = [] := List.eq_nil_of_length_eq_zero (by omega)
      rw [nothing, none, List.append_nil]
      exact .inl ⟨first, rfl⟩

theorem not_infix_of_closes (closes : closesWithSigma value = true) :
    ¬ lower value <:+: lower (value ++ ['A']) := by
  have letter : lowerWithin value.reverse ['A'] [] = ['a'] := rfl
  have cased : meetsCased ['A'] = true := by decide +kernel
  have length := length_lowerWithin [] value ['A'] [] []
  rw [← lowerFrom_eq_lowerWithin, ← lower] at length
  rw [lower_append_eq, letter]
  intro inside
  rcases eq_cons_or_append_of_infix inside (by simp [length]) with ⟨first, same⟩ | ⟨last, same⟩
  · exact cons_lower_ne_append_a closes first _ same.symm
  · exact lowerWithin_ne_lower_of_closes closes cased (List.append_inj_left same length)

theorem not_infix_of_opens (opens : opensWithSigma value = true) :
    ¬ lower value <:+: lower ('A' :: value) := by
  have behind : lower ('A' :: value) = 'a' :: lowerWithin ['A'] value [] :=
    lower_append_eq ['A'] value
  have cased : meetsCased ['A'] = true := by decide +kernel
  have length := length_lowerWithin ['A'] value [] [] []
  rw [← lowerFrom_eq_lowerWithin [], ← lower] at length
  rw [behind]
  intro inside
  rcases eq_cons_or_append_of_infix inside (by simp [length]) with ⟨first, same⟩ | ⟨last, same⟩
  · exact lowerWithin_ne_lower_of_opens opens cased (List.cons.inj same).2
  · exact lower_append_ne_a_cons opens last _ same.symm

/-- Where the lower case of the text can be missed, it is missed in some text in which the text is
found: a letter at the open end is enough. -/
theorem exists_subject_of_misreads (misread : comparison.misreads value = true) :
    ∃ subject, comparison.holds subject value = true ∧
      comparison.holds (lower subject) (lower value) = false := by
  cases comparison with
  | equals => cases misread
  | containsWord => cases misread
  | startsWithWord => cases misread
  | startsWith =>
      refine ⟨value ++ ['A'], List.isPrefixOf_iff_prefix.mpr (List.prefix_append _ _), ?_⟩
      rw [Comparison.holds, Bool.eq_false_iff, Ne, List.isPrefixOf_iff_prefix]
      exact fun start => not_infix_of_closes misread start.isInfix
  | endsWith =>
      refine ⟨'A' :: value, List.isSuffixOf_iff_suffix.mpr (List.suffix_cons _ _), ?_⟩
      rw [Comparison.holds, Bool.eq_false_iff, Ne, List.isSuffixOf_iff_suffix]
      exact fun ending => not_infix_of_opens misread ending.isInfix
  | contains =>
      rcases Bool.or_eq_true_iff.mp misread with opens | closes
      · refine ⟨'A' :: value, isInside_iff_infix.mpr (List.suffix_cons _ _).isInfix, ?_⟩
        rw [Comparison.holds, Bool.eq_false_iff, Ne, isInside_iff_infix]
        exact not_infix_of_opens opens
      · refine ⟨value ++ ['A'], isInside_iff_infix.mpr (List.prefix_append _ _).isInfix, ?_⟩
        rw [Comparison.holds, Bool.eq_false_iff, Ne, isInside_iff_infix]
        exact not_infix_of_closes closes

end Comparison

namespace WidgetAttribute

variable {feature : WidgetAttribute} {comparison : Comparison} {value : String}

/-- Whether the comparison looks at the attribute at all. -/
def takesPart : WidgetAttribute → Comparison → Bool
  | classes, _ => true
  | elementId, comparison => comparison.appliesToId
  | widgetType, comparison => comparison.appliesToType
  | toggle _, _ | presence _, _ => false

/-- A widget whose attribute is a text. -/
def bearing (feature : WidgetAttribute) (subject : String) : Identity :=
  match feature with
  | classes => { classes := [subject] }
  | elementId => { elementId := some subject }
  | widgetType | toggle _ | presence _ => { widgetType := subject }

theorem subjects_eq_nil {identity : Identity} (apart : feature.takesPart comparison = false) :
    feature.subjects comparison identity = [] := by
  cases feature with
  | classes => cases apart
  | elementId => exact if_neg (Bool.eq_false_iff.mp apart)
  | widgetType => exact if_neg (Bool.eq_false_iff.mp apart)
  | toggle => rfl
  | presence => rfl

theorem subjects_bearing (takes : feature.takesPart comparison = true) (subject : String) :
    feature.subjects comparison (feature.bearing subject) = [subject] := by
  cases feature with
  | classes =>
      have joined : joinedClasses (bearing classes subject) = subject := by
        rw [joinedClasses, bearing, sortNames, List.mergeSort_singleton]
        exact String.intercalate_singleton
      rw [subjects, joined]
      split <;> rfl
  | elementId => exact if_pos takes
  | widgetType => exact if_pos takes
  | toggle => cases takes
  | presence => cases takes

theorem comparesWell_ignoringCase (text : feature.isText = true) {identity : Identity}
    {flags : Flags}
    (safe : feature.takesPart comparison = true → comparison.misreads value.toList = false)
    (holds : feature.comparesWell comparison (some value) false identity flags = true) :
    feature.comparesWell comparison (some value) true identity flags = true := by
  rw [comparesWell_iff text] at *
  rcases holds with ⟨subject, looked, found⟩
  cases takes : feature.takesPart comparison with
  | false =>
      rw [subjects_eq_nil takes] at looked
      cases looked
  | true => exact ⟨subject, looked, Comparison.holds_lower (safe takes) found⟩

theorem exists_missed_of_misreads (text : feature.isText = true)
    (takes : feature.takesPart comparison = true)
    (misread : comparison.misreads value.toList = true) :
    ∃ identity, ∀ flags,
      feature.comparesWell comparison (some value) false identity flags = true ∧
        feature.comparesWell comparison (some value) true identity flags = false := by
  rcases Comparison.exists_subject_of_misreads misread with ⟨subject, found, missed⟩
  refine ⟨feature.bearing (String.ofList subject), fun flags => ⟨?_, ?_⟩⟩
  · rw [comparesWell_iff text, subjects_bearing takes]
    refine ⟨_, List.mem_singleton_self _, ?_⟩
    rw [Comparison.compare, if_neg Bool.false_ne_true, String.toList_ofList]
    exact found
  · rw [Bool.eq_false_iff, Ne, comparesWell_iff text, subjects_bearing takes]
    rintro ⟨other, only, found⟩
    rw [List.mem_singleton.mp only, Comparison.compare, if_pos rfl, String.toList_ofList,
      missed] at found
    cases found

end WidgetAttribute

namespace AttributeCondition

/-- The condition that minds or ignores case. -/
def withFlag (condition : AttributeCondition) (ignoreCase : Bool) : AttributeCondition :=
  match condition.test with
  | .present => condition
  | .compare comparison value _ => ⟨condition.name, .compare comparison value ignoreCase⟩

/-- Whether the condition looks for a text that it can miss by ignoring case. -/
def misreads (condition : AttributeCondition) : Bool :=
  match WidgetAttribute.ofName? condition.name, condition.test with
  | some feature, .compare comparison (some value) _ =>
      feature.takesPart comparison && comparison.misreads value.toList
  | _, _ => false

/-- A condition on a text holds of all widgets, when it ignores case, of which it holds when it
minds case, unless it looks for a text that it can miss by ignoring case.  Every such condition
loses some widget. -/
theorem holdsOf_withFlag_imp_iff (condition : AttributeCondition)
    (textual : condition.name ∈ WidgetAttribute.textNames) :
    (∀ node, (condition.withFlag false).holdsOf node = true →
      (condition.withFlag true).holdsOf node = true) ↔ condition.misreads = false := by
  rcases WidgetAttribute.exists_text_of_mem textual with ⟨feature, named, text⟩
  obtain ⟨name, test⟩ := condition
  change WidgetAttribute.ofName? name = some feature at named
  cases test with
  | present => simp [withFlag, misreads, named]
  | compare comparison value ignoreCase =>
      simp only [withFlag, holdsOf, named]
      cases value with
      | none => simp [misreads, named, WidgetAttribute.comparesWell_none text]
      | some value =>
          have misread : misreads ⟨name, .compare comparison (some value) ignoreCase⟩ =
              (feature.takesPart comparison && comparison.misreads value.toList) := by
            simp only [misreads, named]
          rw [misread]
          constructor
          · intro widens
            rw [Bool.eq_false_iff, Ne, Bool.and_eq_true]
            rintro ⟨takes, misread⟩
            rcases WidgetAttribute.exists_missed_of_misreads text takes misread
              with ⟨identity, lost⟩
            obtain ⟨found, missed⟩ := lost {}
            have kept := widens { id := ⟨1⟩, identity } found
            rw [missed] at kept
            cases kept
          · intro safe node
            refine WidgetAttribute.comparesWell_ignoringCase text ?_
            intro takes
            rwa [takes, Bool.true_and] at safe

/-- An element id that starts with a letter and a capital sigma. -/
def startsWithSigma : AttributeCondition :=
  ⟨"id", .compare .startsWith (some "ΑΣ") true⟩

/-- The sigma is final in the condition and is not in the element id. -/
theorem startsWithSigma_misses :
    let node : Node := { id := ⟨1⟩, identity := { widgetType := "App", elementId := some "ΑΣΑ" } }
    Selector.parse "[id^=\"ΑΣ\" i]" = .ok (.ofCompound { attributes := [startsWithSigma] }) ∧
      (startsWithSigma.withFlag false).holdsOf node = true ∧
      (startsWithSigma.withFlag true).holdsOf node = false := by
  decide +kernel

/-- An element id with a word in it whose sigma is not final. -/
def containsSigma : AttributeCondition :=
  ⟨"id", .compare .contains (some "ΑΣΑ") true⟩

theorem containsSigma_widens :
    "id" ∈ WidgetAttribute.textNames ∧
      ∀ node, (containsSigma.withFlag false).holdsOf node = true →
        (containsSigma.withFlag true).holdsOf node = true := by
  have textual : "id" ∈ WidgetAttribute.textNames := by decide
  exact ⟨textual, (holdsOf_withFlag_imp_iff containsSigma textual).mpr (by decide +kernel)⟩

end AttributeCondition

end WidgetStyle
