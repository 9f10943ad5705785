import WidgetStyle.Proofs.Selector.Cutting

/-!
# Text right behind a compound

Where a text is accepted as one compound and does not end with a blank, reading comes to its
very end, so what is written behind it goes on with the compound.  Conditions that are
accepted by themselves are read there as they are read alone and are added to those before
them; only an id takes the place of an earlier one.
-/

namespace WidgetStyle

/-- The conditions of a compound with those of another one behind them.  A later element or
id takes the place of an earlier one. -/
def Compound.followedBy (compound added : Compound) : Compound where
  element := added.element.or compound.element
  id := added.id.or compound.id
  classes := compound.classes ++ added.classes
  attributes := compound.attributes ++ added.attributes
  pseudoClasses := compound.pseudoClasses ++ added.pseudoClasses
  universal := compound.universal || added.universal

namespace Selector

open WidgetStyle.Text

/-- The text does not end with a blank. -/
def EndsSolid (text : List Char) : Prop :=
  ∀ character ∈ text.getLast?, isBlank character = false

instance (text : List Char) : Decidable (EndsSolid text) :=
  decidable_of_iff (text.getLast?.all (fun character => !isBlank character) = true)
    (by simp [EndsSolid, Option.all_eq_true])

variable {text rest : List Char} {compound before added whole : Compound}

/-! ## Selectors of one compound -/

theorem parse_eq_ofCompound_iff {text : String} :
    parse text = .ok (ofCompound compound) ↔ ∃ blanks,
      readCompound {} (skipBlanks text.toList) = .ok (compound, blanks) ∧
        compound.isEmpty = false ∧ Blank blanks := by
  rw [parse, readSelector_eq_ok_iff]
  constructor
  · rintro (⟨read, inhabited, blank⟩ | _)
    exact ⟨_, read, inhabited, blank⟩
  · rintro ⟨blanks, read, inhabited, blank⟩
    exact .last read inhabited blank

theorem eq_nil_of_endsSolid (solid : EndsSolid text) (ending : rest <:+ text)
    (blank : Blank rest) : rest = [] := by
  rcases List.eq_nil_or_concat rest with nothing | ⟨start, last, rfl⟩
  · exact nothing
  · obtain ⟨earlier, rfl⟩ := ending
    have stop : isBlank last = false := solid last (by simp)
    rw [blank last (by simp)] at stop
    cases stop

/-- Reading comes to the end of the text. -/
theorem readCompound_of_parse {text : String} (accepted : parse text = .ok (ofCompound compound))
    (solid : EndsSolid text.toList) :
    readCompound {} (skipBlanks text.toList) = .ok (compound, []) := by
  obtain ⟨blanks, read, -, blank⟩ := parse_eq_ofCompound_iff.mp accepted
  have ending := (suffix_of_readCompound read).trans (skipBlanks_suffix _)
  rwa [eq_nil_of_endsSolid solid ending blank] at read

theorem skipBlanks_ne_nil_of_parse {text : String} {selector : Selector}
    (accepted : parse text = .ok selector) : skipBlanks text.toList ≠ [] := by
  obtain ⟨first, tail, begins, -⟩ := (readSelector_eq_ok_iff.mp accepted).exists_head
  rw [begins]
  exact List.cons_ne_nil first tail

theorem skipBlanks_toList_append {text : String} {selector : Selector}
    (accepted : parse text = .ok selector) (more : String) :
    skipBlanks (text ++ more).toList = skipBlanks text.toList ++ more.toList := by
  rw [String.toList_append,
    skipBlanks_append_of_ne_nil (skipBlanks_ne_nil_of_parse accepted)]

/-! ## Conditions behind conditions -/

theorem followedBy_empty (compound : Compound) : compound.followedBy {} = compound := by
  simp [Compound.followedBy]

theorem addTo_followedBy (compound added : Compound) (condition : Condition) :
    condition.addTo (compound.followedBy added) = compound.followedBy (condition.addTo added) := by
  cases condition <;> simp [Condition.addTo, Compound.followedBy]

theorem admitsElement_of_followedBy
    (admits : admitsElement (compound.followedBy added) = true) : admitsElement added = true := by
  simp only [admitsElement, Compound.followedBy, Option.isNone_or, Bool.not_or, Bool.and_eq_true]
    at admits ⊢
  exact ⟨admits.1.1, admits.2.2⟩

/-- What came before makes a difference to the next condition only where it is an element. -/
theorem ReadsCondition.onto {condition : Condition}
    (reads : ReadsCondition before text condition rest)
    (nameless : (condition.addTo before).element = none) (compound : Compound) :
    ReadsCondition compound text condition rest := by
  cases reads with
  | universal => exact .universal
  | id found => exact .id found
  | hasClass found => exact .hasClass found
  | hasPseudoClass found => exact .hasPseudoClass found
  | hasAttribute found => exact .hasAttribute found
  | element => cases nameless

theorem readCondition_none_onto (nothing : readCondition before text = .ok none)
    (compound : Compound) : readCondition (compound.followedBy before) text = .ok none := by
  cases text with
  | nil => rfl
  | cons first tail =>
      by_cases sign : first ∈ conditionSigns
      · simp only [conditionSigns, List.mem_cons, List.not_mem_nil, or_false] at sign
        rcases sign with rfl | rfl | rfl | rfl | rfl <;> exact nothing
      · rw [readCondition_signless sign] at nothing ⊢
        split at nothing
        · cases nothing
        · rename_i bars
          rw [if_neg]
          intro admits
          rw [Bool.and_eq_true] at admits bars
          exact bars ⟨admits.1, admitsElement_of_followedBy admits.2⟩

theorem element_eq_none_of_readCompound (read : readCompound before text = .ok (added, rest))
    (nameless : added.element = none) : before.element = none := by
  fun_induction readCompound before text with
  | case1 => cases read
  | case2 =>
      cases read
      exact nameless
  | case3 before text condition remaining next ih =>
      have further := ih read
      cases condition with
      | element name => cases further
      | _ => exact further

/-- Conditions without an element are added to whatever was read before them. -/
theorem readCompound_onto (read : readCompound before text = .ok (added, rest))
    (nameless : added.element = none) (compound : Compound) :
    readCompound (compound.followedBy before) text = .ok (compound.followedBy added, rest) := by
  fun_induction readCompound before text with
  | case1 => cases read
  | case2 before text next =>
      cases read
      rw [readCompound_eq, readCondition_none_onto next]
  | case3 before text condition remaining next ih =>
      have still := element_eq_none_of_readCompound read nameless
      have reads := (readsCondition next).onto still (compound.followedBy before)
      rw [readCompound_eq, reads.readCondition_eq]
      simp only [addTo_followedBy]
      exact ih read

/-- Conditions without an element start with a sign. -/
theorem ends_of_readCompound (read : readCompound {} text = .ok (added, rest))
    (inhabited : added.isEmpty = false) (nameless : added.element = none) :
    Ends isNameCharacter text := by
  intro first head
  obtain ⟨tail, rfl⟩ : ∃ tail, text = first :: tail := ⟨_, List.eq_cons_of_mem_head? head⟩
  by_cases sign : first ∈ conditionSigns
  · exact isNameCharacter_of_mem_conditionSigns sign
  · exfalso
    rw [readCompound_eq, readCondition_signless sign] at read
    split at read
    · cases read
    · cases read
      cases inhabited
    · rename_i condition remaining found
      split at found
      · cases found
        cases element_eq_none_of_readCompound read nameless
      · cases found

/-! ## Texts behind texts -/

/-- A selector that starts with a blank describes what lies below the compound. -/
theorem parse_append_apart {text more : String} {selector : Selector}
    (accepted : parse text = .ok (ofCompound compound)) (solid : EndsSolid text.toList)
    (acceptedMore : parse more = .ok selector) (apart : skipBlanks more.toList ≠ more.toList) :
    parse (text ++ more) =
      .ok ⟨{ compound, combinator := some .descendant } :: selector.links⟩ := by
  have read := readCompound_of_parse accepted solid
  obtain ⟨-, -, inhabited, -⟩ := parse_eq_ofCompound_iff.mp accepted
  have reads := readSelector_eq_ok_iff.mp acceptedMore
  obtain ⟨blanks, blank, split⟩ := exists_blank_append_skipBlanks more.toList
  have some : blanks ≠ [] := by
    rintro rfl
    exact apart split.symm
  generalize skipBlanks more.toList = following at reads split
  have paused : Paused (blanks ++ following) :=
    paused_append some (paused_of_blank blank) following
  have first : readCompound {} (skipBlanks text.toList ++ more.toList) =
      .ok (compound, blanks ++ following) := by
    rw [split, readCompound_append paused.ends read]
    exact readCompound_paused paused
  rw [parse, readSelector_eq_ok_iff, skipBlanks_toList_append accepted]
  exact .link first inhabited (.blanks blank some) reads

/-- Conditions without an element right behind an accepted compound come after its own ones. -/
theorem eq_followedBy_of_parse {text more : String}
    (accepted : parse text = .ok (ofCompound compound)) (solid : EndsSolid text.toList)
    (acceptedMore : parse more = .ok (ofCompound added)) (nameless : added.element = none)
    (together : parse (text ++ more) = .ok (ofCompound whole)) :
    whole = compound.followedBy added := by
  by_cases directly : skipBlanks more.toList = more.toList
  · obtain ⟨ending, read, inhabited, -⟩ := parse_eq_ofCompound_iff.mp acceptedMore
    obtain ⟨left, readWhole, -, -⟩ := parse_eq_ofCompound_iff.mp together
    rw [directly] at read
    have ends := ends_of_readCompound read inhabited nameless
    have onto := readCompound_onto read nameless compound
    rw [followedBy_empty] at onto
    rw [skipBlanks_toList_append accepted,
      readCompound_append ends (readCompound_of_parse accepted solid), List.nil_append,
      onto] at readWhole
    cases readWhole
    rfl
  · rw [parse_append_apart accepted solid acceptedMore directly] at together
    cases together

end Selector

end WidgetStyle
