import WidgetStyle.Proofs.Selector.Appending
import WidgetStyle.Proofs.Text.Lowercase

/-!
# Names right behind a compound

A name written right behind an accepted compound goes on with the name at its end, if it ends
with the name of an element, a class or an id.  Behind the name of a pseudo-class it makes a
name that no pseudo-class has, and behind a star it is refused.  But behind a bracket or a
parenthesis the name is read as the element of the compound, unless it has one or a star
before.
-/

namespace WidgetStyle.Selector

open WidgetStyle.Text

variable {text rest : List Char} {compound before whole : Compound}

/-! ## Names of pseudo-classes -/

/-- All names that pseudo-classes have. -/
def pseudoNames : List String :=
  "nth-child" :: "nth-last-child" :: "not" :: (Keyword.all : List StateClass).map Keyword.name

theorem mem_pseudoNames {name : String} {meaning : PseudoName}
    (known : PseudoName.ofText? name = some meaning) : name ∈ pseudoNames := by
  rw [pseudoNames, List.mem_cons, List.mem_cons, List.mem_cons, List.mem_map]
  unfold PseudoName.ofText? at known
  split at known
  · rename_i same
    exact .inl same
  · split at known
    · rename_i same
      exact .inr (.inl same)
    · split at known
      · rename_i same
        exact .inr (.inr (.inl same))
      · obtain ⟨fact, found, -⟩ := Option.map_eq_some_iff.mp known
        exact .inr (.inr (.inr ⟨fact, Keyword.complete fact, Keyword.name_of_ofName? found⟩))

theorem plain_of_mem_pseudoNames {name : String} (listed : name ∈ pseudoNames) :
    Plain name.toList := by
  have all : pseudoNames.all (fun name =>
      name.toList.all fun character => decide (character.toNat < 0x80)) = true := by decide
  have plain := List.all_eq_true.mp all name listed
  exact fun character member => of_decide_eq_true (List.all_eq_true.mp plain character member)

/-- No name of a pseudo-class goes on with another one. -/
theorem eq_of_mem_pseudoNames_of_prefix :
    ∀ name ∈ pseudoNames, ∀ longer ∈ pseudoNames, name.toList <+: longer.toList →
      name = longer := by
  decide

/-- A longer name is no name of a pseudo-class. -/
theorem ofText?_append_eq_none {name more : String} {meaning : PseudoName}
    (known : PseudoName.ofText? (lowerString name) = some meaning) (some : more.toList ≠ []) :
    PseudoName.ofText? (lowerString (name ++ more)) = none := by
  have listed := mem_pseudoNames known
  have plain : Plain (lower name.toList) := by
    simpa [lowerString] using plain_of_mem_pseudoNames listed
  obtain ⟨further, inhabited, longer⟩ := exists_lower_append plain some
  rw [Option.eq_none_iff_forall_ne_some]
  intro other knownLonger
  have begins : (lowerString name).toList <+: (lowerString (name ++ more)).toList := by
    simp [lowerString, longer]
  have same := eq_of_mem_pseudoNames_of_prefix _ listed _ (mem_pseudoNames knownLonger) begins
  have lengths := congrArg (fun text => text.toList.length) same
  simp [lowerString, longer, inhabited] at lengths

/-! ## The last condition -/

/-- Reading up to the end of a text reads some condition last, and only there it makes a
difference how the text goes on. -/
theorem exists_last_condition (read : readCompound before text = .ok (compound, []))
    (inhabited : text ≠ []) : ∃ earlier last condition,
      ReadsCondition earlier last condition [] ∧ compound = condition.addTo earlier ∧
        last <:+ text ∧
        ∀ more, readCompound before (text ++ more) = readCompound earlier (last ++ more) := by
  fun_induction readCompound before text with
  | case1 => cases read
  | case2 =>
      cases read
      exact absurd rfl inhabited
  | case3 before text condition remaining next ih =>
      have reads := readsCondition next
      by_cases ending : remaining = []
      · subst ending
        rw [readCompound_paused paused_nil] at read
        cases read
        exact ⟨before, text, condition, reads, rfl, List.suffix_refl text, fun _ => rfl⟩
      · obtain ⟨earlier, last, later, readsLast, same, suffix, on⟩ := ih read ending
        refine ⟨earlier, last, later, readsLast, same, suffix.trans reads.suffix, fun more => ?_⟩
        have further : ReadsCondition before (text ++ more) _ _ :=
          reads.append fun _ nothing => absurd nothing ending
        rw [readCompound_eq, further.readCondition_eq]
        exact on more

/-! ## Names that go on -/

/-- The name of a condition goes on with more. -/
inductive Condition.Grows (name more : String) : Condition → Condition → Prop where
  | element : name ≠ "" → Condition.Grows name more (.element name) (.element (name ++ more))
  | id : Condition.Grows name more (.id name) (.id (name ++ more))
  | hasClass : Condition.Grows name more (.hasClass name) (.hasClass (name ++ more))

/-- The text ends with the name of a condition, and the whole is the compound with more at the
end of this name. -/
def Absorbs (text more : String) (compound whole : Compound) : Prop :=
  ∃ name before condition grown, name.toList <:+ text.toList ∧
    Condition.Grows name more condition grown ∧
      compound = condition.addTo before ∧ whole = grown.addTo before

theorem Absorbs.element_eq {text more : String} (absorbs : Absorbs text more compound whole)
    (named : whole.element = some more) : compound.element = some more := by
  rcases absorbs with ⟨name, before, condition, grown, -, grows, rfl, rfl⟩
  cases grows with
  | element inhabited =>
      have same := congrArg String.toList (Option.some.inj named)
      rw [String.toList_append, List.append_left_eq_self, String.toList_eq_nil_iff] at same
      exact absurd same inhabited
  | id => exact named
  | hasClass => exact named

/-- A run of name characters up to the end of a text goes on with a name. -/
theorem run_append {more : List Char} (isName : IsName more)
    (ending : text.dropWhile isNameCharacter = []) :
    (text ++ more).takeWhile isNameCharacter = text.takeWhile isNameCharacter ++ more ∧
      (text ++ more).dropWhile isNameCharacter = [] := by
  have own := List.dropWhile_eq_nil_iff.mp ending
  have all : ∀ character ∈ text ++ more, isNameCharacter character = true :=
    List.forall_mem_append.mpr ⟨own, isName.characters⟩
  rw [List.takeWhile_eq_self_iff.mpr all, List.takeWhile_eq_self_iff.mpr own]
  exact ⟨rfl, List.dropWhile_eq_nil_iff.mpr all⟩

theorem readName_grows {missing : SelectorFault} {name more : String} (isName : IsName more.toList)
    (read : readName missing text = .ok (name, [])) :
    readName missing (text ++ more.toList) = .ok (name ++ more, []) := by
  obtain ⟨letters, inhabited, ending⟩ := readName_eq_ok_iff.mp read
  obtain ⟨taken, left⟩ := run_append isName ending.symm
  refine readName_eq_ok_iff.mpr ⟨?_, ?_, left.symm⟩
  · rw [taken, String.toList_append, letters]
  · intro empty
    have lost := congrArg String.toList empty
    rw [String.toList_append] at lost
    exact isName.inhabited (List.append_eq_nil_iff.mp lost).2

theorem toList_of_readName {missing : SelectorFault} {name : String}
    (read : readName missing text = .ok (name, [])) : name.toList = text := by
  obtain ⟨letters, -, ending⟩ := readName_eq_ok_iff.mp read
  rw [letters, List.takeWhile_eq_self_iff]
  exact List.dropWhile_eq_nil_iff.mp ending.symm

/-- The name of a pseudo-class that goes on is none. -/
theorem readPseudoClass_refused {name more : String} {meaning : PseudoName}
    (isName : IsName more.toList)
    (named : readName .expectedPseudoClassName text = .ok (name, []))
    (known : PseudoName.ofText? (lowerString name) = some meaning) :
    readPseudoClass (text ++ more.toList) =
      stop (.unknownPseudoClass (name ++ more)) (text ++ more.toList) := by
  rw [readPseudoClass_eq (readName_grows isName named),
    ofText?_append_eq_none known isName.inhabited]

/-- Behind a condition that ends in a name, the name goes on or is refused. -/
theorem ReadsCondition.grows {condition : Condition} {more : String}
    (reads : ReadsCondition before text condition []) (ends : condition.EndsInName)
    (isName : IsName more.toList) :
    (∃ fault unread,
        readCondition before (text ++ more.toList) = .error (.fault fault unread)) ∨
      ∃ name grown, name.toList <:+ text ∧ Condition.Grows name more condition grown ∧
        ReadsCondition before (text ++ more.toList) grown [] := by
  generalize ending : ([] : List Char) = rest at reads
  cases reads with
  | universal => exact ends.elim
  | hasAttribute => exact ends.elim
  | id found =>
      subst ending
      exact .inr ⟨_, _, toList_of_readName found ▸ List.suffix_cons '#' _, .id,
        .id (readName_grows isName found)⟩
  | hasClass found =>
      subst ending
      exact .inr ⟨_, _, toList_of_readName found ▸ List.suffix_cons '.' _, .hasClass,
        .hasClass (readName_grows isName found)⟩
  | hasPseudoClass found =>
      left
      subst ending
      generalize ending : ([] : List Char) = rest at found
      cases readPseudoClass_eq_ok_iff.mp found with
      | state named known =>
          subst ending
          have refused := readPseudoClass_refused isName named known
          exact ⟨_, _, by
            rw [List.cons_append]
            simp only [readCondition, refused]
            rfl⟩
      | _ => exact ends.elim
  | @element first tail start admits =>
      obtain ⟨taken, left⟩ := run_append isName ending.symm
      have reads : ReadsCondition before (first :: (tail ++ more.toList)) _ _ :=
        .element start admits
      rw [taken, left, ← List.cons_append, ← List.cons_append, String.ofList_append,
        String.ofList_toList] at reads
      have spelt : tail.takeWhile isNameCharacter = tail :=
        List.takeWhile_eq_self_iff.mpr (List.dropWhile_eq_nil_iff.mp ending.symm)
      have written : (String.ofList (first :: tail.takeWhile isNameCharacter)).toList =
          first :: tail := by
        rw [String.toList_ofList, spelt]
      rw [← ending]
      exact .inr ⟨_, _, written ▸ List.suffix_refl _, .element (by simp), reads⟩

/-! ## Ends of texts -/

/-- The text ends with a closing bracket or parenthesis. -/
def EndsClosed (text : List Char) : Prop :=
  text.getLast? = some ']' ∨ text.getLast? = some ')'

instance (text : List Char) : Decidable (EndsClosed text) :=
  inferInstanceAs (Decidable (_ ∨ _))

theorem getLast?_of_suffix (ending : rest <:+ text) (inhabited : rest ≠ []) :
    text.getLast? = rest.getLast? := by
  obtain ⟨start, rfl⟩ := ending
  exact List.getLast?_append_of_ne_nil start inhabited

theorem endsClosed_iff_of_suffix (ending : rest <:+ text) (inhabited : rest ≠ []) :
    EndsClosed text ↔ EndsClosed rest := by
  rw [EndsClosed, EndsClosed, getLast?_of_suffix ending inhabited]

theorem not_endsClosed_of_names (ending : rest <:+ text) (inhabited : rest ≠ [])
    (names : rest.dropWhile isNameCharacter = []) : ¬EndsClosed text := by
  rw [endsClosed_iff_of_suffix ending inhabited]
  have all := List.dropWhile_eq_nil_iff.mp names
  rintro (bracket | parenthesis)
  · exact absurd (all ']' (List.mem_of_getLast? bracket)) (by decide)
  · exact absurd (all ')' (List.mem_of_getLast? parenthesis)) (by decide)

theorem ne_nil_of_readsCondition {condition : Condition}
    (reads : ReadsCondition before text condition rest) : text ≠ [] := by
  cases reads <;> exact List.cons_ne_nil _ _

theorem ReadsCondition.not_endsClosed {condition : Condition}
    (reads : ReadsCondition before text condition []) (ends : condition.EndsInName) :
    ¬EndsClosed text := by
  have behindSign {sign : Char} {tail : List Char} {missing : SelectorFault} {name : String}
      (read : readName missing tail = .ok (name, [])) : ¬EndsClosed (sign :: tail) :=
    not_endsClosed_of_names (List.suffix_cons sign tail) (ne_nil_of_readName read)
      (readName_eq_ok_iff.mp read).2.2.symm
  generalize ending : ([] : List Char) = rest at reads
  cases reads with
  | universal => exact ends.elim
  | hasAttribute => exact ends.elim
  | id found => exact behindSign (ending ▸ found)
  | hasClass found => exact behindSign (ending ▸ found)
  | hasPseudoClass found =>
      subst ending
      generalize ending : ([] : List Char) = rest at found
      cases readPseudoClass_eq_ok_iff.mp found with
      | state named => exact behindSign (ending ▸ named)
      | _ => exact ends.elim
  | @element first tail start =>
      refine not_endsClosed_of_names (List.suffix_refl _) (List.cons_ne_nil _ _) ?_
      rw [List.dropWhile_cons_of_pos (isNameCharacter_of_isNameStart start), ending]

theorem ReadsCondition.endsClosed {condition : Condition}
    (reads : ReadsCondition before text condition []) (fixed : ¬condition.EndsInName)
    (starless : condition ≠ .universal) : EndsClosed text := by
  generalize ending : ([] : List Char) = rest at reads
  cases reads with
  | universal => exact absurd rfl starless
  | id => exact absurd trivial fixed
  | hasClass => exact absurd trivial fixed
  | element => exact absurd trivial fixed
  | hasPseudoClass found =>
      have closing := (readPseudoClass_eq_ok_iff.mp found).closed fixed
      rw [← ending] at closing
      rw [endsClosed_iff_of_suffix (closing.trans (List.suffix_cons ':' _)) (List.cons_ne_nil _ _)]
      exact .inr rfl
  | hasAttribute found =>
      have closing := (readAttribute_eq_ok_iff.mp found).closed
      rw [← ending] at closing
      rw [endsClosed_iff_of_suffix (closing.trans (List.suffix_cons '[' _)) (List.cons_ne_nil _ _)]
      exact .inl rfl

/-! ## Names behind compounds -/

/-- Behind an accepted compound reading goes on behind its last condition. -/
theorem exists_last_of_parse {text : String} (accepted : parse text = .ok (ofCompound compound))
    (solid : EndsSolid text.toList) : ∃ earlier last condition,
      ReadsCondition earlier last condition [] ∧ compound = condition.addTo earlier ∧
        last <:+ text.toList ∧
        ∀ more : String, readCompound {} (skipBlanks (text ++ more).toList) =
          readCompound earlier (last ++ more.toList) := by
  obtain ⟨earlier, last, condition, reads, same, ending, on⟩ := exists_last_condition
    (readCompound_of_parse accepted solid) (skipBlanks_ne_nil_of_parse accepted)
  refine ⟨earlier, last, condition, reads, same, ending.trans (skipBlanks_suffix _), fun more => ?_⟩
  rw [skipBlanks_toList_append accepted, on]

theorem parse_eq_refused {text : String} {fault : SelectorFault} {unread : Nat}
    (visible : skipBlanks text.toList ≠ [])
    (stops : readLinks false (skipBlanks text.toList) = .error (.fault fault unread)) :
    parse text = .error (.refused ⟨fault, text.toList.length - unread⟩) := by
  simp only [parse, readSelector]
  rw [if_neg (by simpa using visible), stops]

/-- A text is refused if its first compound is. -/
theorem exists_refused_of_stop {text : String} {fault : SelectorFault} {unread : Nat}
    (stops : readCompound {} (skipBlanks text.toList) = .error (.fault fault unread)) :
    ∃ error, parse text = .error (.refused error) := by
  have visible : skipBlanks text.toList ≠ [] := by
    intro nothing
    rw [nothing, readCompound_eq] at stops
    cases stops
  have linksStop : readLinks false (skipBlanks text.toList) = .error (.fault fault unread) := by
    rw [readLinks]
    split
    · rename_i stopped found
      rw [stops] at found
      cases found
      rfl
    · rename_i found
      rw [stops] at found
      cases found
  exact ⟨_, parse_eq_refused visible linksStop⟩

/-- A text is refused if a name is left behind its first compound. -/
theorem exists_refused_of_name {text name : String}
    (starts : name.toList.head?.any isNameStart = true) (inhabited : compound.isEmpty = false)
    (read : readCompound {} (skipBlanks text.toList) = .ok (compound, name.toList)) :
    ∃ error, parse text = .error (.refused error) := by
  obtain ⟨first, head, start⟩ := (Option.any_eq_true _ _).mp starts
  have letters := List.eq_cons_of_mem_head? head
  have apart : ¬Pause first := fun pause => by
    have named := isNameCharacter_of_isNameStart start
    rw [isNameCharacter_of_pause pause] at named
    cases named
  have visible : skipBlanks text.toList ≠ [] := by
    intro nothing
    rw [nothing, letters, readCompound_eq] at read
    cases read
  have linksStop : readLinks false (skipBlanks text.toList) =
      stop (.unexpectedCharacter first) name.toList := by
    rw [readLinks_eq read inhabited, letters, skipBlanks_cons (isBlank_of_not_pause apart)]
    simp only [combinatorOf?_of_not_pause apart]
    rw [if_neg (by simp)]
  exact ⟨_, parse_eq_refused visible linksStop⟩

@[simp] theorem isEmpty_addTo (condition : Condition) (compound : Compound) :
    (condition.addTo compound).isEmpty = false := by
  cases condition <;> simp [Condition.addTo, Compound.isEmpty]

/-- Reading goes on behind a condition that does not end in a name, whatever follows. -/
theorem ReadsCondition.readCompound_behind {condition : Condition}
    (reads : ReadsCondition before text condition []) (fixed : ¬condition.EndsInName)
    (more : List Char) :
    readCompound before (text ++ more) = readCompound (condition.addTo before) more := by
  rw [readCompound_eq, (reads.append (absurd · fixed)).readCondition_eq]
  rfl

section Names

variable {text name : String}

/-- Where an element may still follow, the name is read as one. -/
theorem readCompound_name (isName : IsName name.toList)
    (starts : name.toList.head?.any isNameStart = true)
    (admits : admitsElement compound = true) :
    readCompound compound name.toList = .ok ({ compound with element := some name }, []) := by
  have read := readCondition_element isName starts paused_nil.ends admits
  rw [List.append_nil] at read
  rw [readCompound_eq, read]
  exact readCompound_paused paused_nil

theorem readCompound_name_barred (starts : name.toList.head?.any isNameStart = true)
    (bars : admitsElement compound = false) :
    readCompound compound name.toList = .ok (compound, name.toList) := by
  obtain ⟨first, head, start⟩ := (Option.any_eq_true _ _).mp starts
  rw [List.eq_cons_of_mem_head? head, readCompound_of_not_admits start bars]

/-- The name is refused behind the compound, or taken up into the name at its end. -/
def RefusedOrAbsorbed (text name : String) (compound : Compound) : Prop :=
  (∃ error, parse (text ++ name) = .error (.refused error)) ∨
    ∃ whole, parse (text ++ name) = .ok (ofCompound whole) ∧ Absorbs text name compound whole

variable (accepted : parse text = .ok (ofCompound compound)) (solid : EndsSolid text.toList)
  (isName : IsName name.toList) (starts : name.toList.head?.any isNameStart = true)

include accepted solid isName starts

theorem parse_append_name (closed : EndsClosed text.toList)
    (admits : admitsElement compound = true) :
    parse (text ++ name) = .ok (ofCompound { compound with element := some name }) := by
  obtain ⟨earlier, last, condition, reads, same, ending, on⟩ := exists_last_of_parse accepted solid
  rw [endsClosed_iff_of_suffix ending (ne_nil_of_readsCondition reads)] at closed
  have fixed : ¬condition.EndsInName := fun ends => reads.not_endsClosed ends closed
  refine parse_eq_ofCompound_iff.mpr ⟨[], ?_, ?_, blank_nil⟩
  · rw [on, reads.readCompound_behind fixed, ← same]
    exact readCompound_name isName starts admits
  · exact isEmpty_addTo (.element name) compound

theorem refusedOrAbsorbed_of_not
    (barred : ¬(EndsClosed text.toList ∧ admitsElement compound = true)) :
    RefusedOrAbsorbed text name compound := by
  obtain ⟨earlier, last, condition, reads, same, ending, on⟩ := exists_last_of_parse accepted solid
  rw [endsClosed_iff_of_suffix ending (ne_nil_of_readsCondition reads)] at barred
  by_cases ends : condition.EndsInName
  · rcases reads.grows ends isName with
      ⟨fault, unread, refused⟩ | ⟨own, grown, named, grows, readsGrown⟩
    · left
      have stops : readCompound {} (skipBlanks (text ++ name).toList) =
          .error (.fault fault unread) := by
        rw [on, readCompound_eq, refused]
      exact exists_refused_of_stop stops
    · refine .inr ⟨grown.addTo earlier, parse_eq_ofCompound_iff.mpr ⟨[], ?_, ?_, blank_nil⟩,
        own, earlier, condition, grown, named.trans ending, grows, same, rfl⟩
      · rw [on, readCompound_eq, readsGrown.readCondition_eq]
        exact readCompound_paused paused_nil
      · exact isEmpty_addTo grown earlier
  · have bars : admitsElement compound = false := by
      by_cases star : condition = .universal
      · rw [same, star]
        simp [admitsElement, Condition.addTo]
      · have closed := reads.endsClosed ends star
        exact Bool.eq_false_iff.mpr fun admits => barred ⟨closed, admits⟩
    left
    refine exists_refused_of_name starts (isEmpty_addTo condition earlier) ?_
    rw [on, reads.readCompound_behind ends, ← same, readCompound_name_barred starts bars]

/-- A name right behind an accepted compound is refused or taken up, and is never the element
of what is read then unless the compound had it before, except behind a closing bracket or
parenthesis where no element and no star came before. -/
theorem refusedOrAbsorbed_and_element_iff :
    (RefusedOrAbsorbed text name compound ∧
        ∀ whole, parse (text ++ name) = .ok (ofCompound whole) →
          whole.element = some name → compound.element = some name) ↔
      ¬(EndsClosed text.toList ∧ admitsElement compound = true) := by
  constructor
  · rintro ⟨-, leads⟩ ⟨closed, admits⟩
    have parsed := parse_append_name accepted solid isName starts closed admits
    have before := leads _ parsed rfl
    simp [admitsElement, before] at admits
  · intro barred
    have either := refusedOrAbsorbed_of_not accepted solid isName starts barred
    refine ⟨either, fun whole parsed named => ?_⟩
    rcases either with ⟨error, refused⟩ | ⟨other, parsedOther, absorbs⟩
    · rw [refused] at parsed
      cases parsed
    · rw [parsed] at parsedOther
      cases parsedOther
      exact absorbs.element_eq named

end Names

/-- Behind a class a name goes on with the class. -/
theorem bigButton_absorbed :
    parse ".big" = .ok (ofCompound { classes := ["big"] }) ∧ EndsSolid ".big".toList ∧
      IsName "Button".toList ∧ "Button".toList.head?.any isNameStart = true ∧
      RefusedOrAbsorbed ".big" "Button" { classes := ["big"] } ∧
      parse (".big" ++ "Button") = .ok (ofCompound { classes := ["bigButton"] }) := by
  have accepted : parse ".big" = .ok (ofCompound { classes := ["big"] }) := by decide +kernel
  have solid : EndsSolid ".big".toList := by decide
  have isName : IsName "Button".toList := by decide
  have starts : "Button".toList.head?.any isNameStart = true := by decide
  have exact := refusedOrAbsorbed_and_element_iff accepted solid isName starts
  exact ⟨accepted, solid, isName, starts, (exact.mpr (by decide)).1, by decide +kernel⟩

/-- Behind an attribute the name is read as the element. -/
theorem attributeButton_accepted :
    parse "[x]" = .ok (ofCompound { attributes := [⟨"x", .present⟩] }) ∧
      EndsSolid "[x]".toList ∧ IsName "B".toList ∧ "B".toList.head?.any isNameStart = true ∧
      parse ("[x]" ++ "B") =
        .ok (ofCompound { element := some "B", attributes := [⟨"x", .present⟩] }) := by
  decide +kernel

end WidgetStyle.Selector
