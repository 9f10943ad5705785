import WidgetStyle.Proofs.Selector.Pieces

/-!
# Reading selectors back

Reading a text in which a well-formed selector may be written gives the selector back.
A compound ends where a blank or the sign of a combinator follows, and starts with
neither; so what stands between two compounds is read as the combinator that joins them.
-/

namespace WidgetStyle.Selector

open WidgetStyle.Text

variable {text rest : List Char} {character : Char} {compound : Compound}

/-! ## Pauses -/

/-- What can go on neither with a name nor with a compound: a blank, or the sign of a
combinator. -/
def Pause (character : Char) : Prop :=
  isBlank character = true ∨ (combinatorOf? character).isSome = true

theorem combinatorOf?_cases (sign : (combinatorOf? character).isSome = true) :
    character = '>' ∨ character = '+' ∨ character = '~' := by
  unfold combinatorOf? at sign
  split at sign
  · exact .inl rfl
  · exact .inr (.inl rfl)
  · exact .inr (.inr rfl)
  · cases sign

theorem isNameCharacter_of_pause (pause : Pause character) :
    isNameCharacter character = false := by
  rcases pause with blank | sign
  · exact isNameCharacter_of_isBlank blank
  · rcases combinatorOf?_cases sign with rfl | rfl | rfl <;> decide

theorem isBlank_of_not_pause (apart : ¬ Pause character) : isBlank character = false :=
  Bool.eq_false_iff.mpr fun blank => apart (.inl blank)

theorem combinatorOf?_of_not_pause (apart : ¬ Pause character) : combinatorOf? character = none :=
  Option.not_isSome_iff_eq_none.mp fun sign => apart (.inr sign)

/-- No compound goes on at the start of the text. -/
def Paused (text : List Char) : Prop :=
  ∀ character, text.head? = some character → Pause character

theorem paused_nil : Paused [] := by
  simp [Paused]

theorem Paused.ends (paused : Paused text) : Ends isNameCharacter text :=
  fun character same => isNameCharacter_of_pause (paused character same)

theorem paused_append {between : List Char} (inhabited : between ≠ []) (paused : Paused between)
    (rest : List Char) : Paused (between ++ rest) := by
  intro character head
  rw [List.head?_append_of_ne_nil _ inhabited] at head
  exact paused character head

theorem paused_of_blank {blanks : List Char} (blank : Blank blanks) : Paused blanks :=
  fun character head => .inl (blank character (List.mem_of_head? head))

/-! ## Compounds -/

/-- The equation of the reader without the proof that its matches carry along. -/
theorem readCompound_eq (compound : Compound) (text : List Char) :
    readCompound compound text =
      match readCondition compound text with
      | .error fault => .error fault
      | .ok none => .ok (compound, text)
      | .ok (some (condition, rest)) => readCompound (condition.addTo compound) rest := by
  rw [readCompound]
  split <;> rename_i same <;> rw [same]

/-- The signs that start a condition. -/
def conditionSigns : List Char :=
  ['*', '#', '.', ':', '[']

theorem facts_of_mem_conditionSigns (sign : character ∈ conditionSigns) :
    isNameStart character = false ∧ isBlank character = false ∧
      combinatorOf? character = none := by
  simp only [conditionSigns, List.mem_cons, List.not_mem_nil, or_false] at sign
  rcases sign with rfl | rfl | rfl | rfl | rfl <;> decide

theorem isNameCharacter_of_mem_conditionSigns (sign : character ∈ conditionSigns) :
    isNameCharacter character = false := by
  simp only [conditionSigns, List.mem_cons, List.not_mem_nil, or_false] at sign
  rcases sign with rfl | rfl | rfl | rfl | rfl <;> decide

theorem signless_of_isNameStart (start : isNameStart character = true) :
    character ∉ conditionSigns := by
  intro sign
  rw [(facts_of_mem_conditionSigns sign).1] at start
  cases start

/-- Without a sign, only the name of an element can start a condition. -/
theorem readCondition_signless (signless : character ∉ conditionSigns) :
    readCondition compound (character :: rest) =
      if isNameStart character && admitsElement compound then
        .ok (some (.element (String.ofList (character :: rest.takeWhile isNameCharacter)),
          rest.dropWhile isNameCharacter))
      else .ok none := by
  simp only [conditionSigns, List.mem_cons, List.not_mem_nil, or_false, not_or] at signless
  obtain ⟨star, hash, dot, colon, bracket⟩ := signless
  rw [readCondition, if_neg star, if_neg hash, if_neg dot, if_neg colon, if_neg bracket]

theorem readCompound_paused (paused : Paused text) :
    readCompound compound text = .ok (compound, text) := by
  suffices none : readCondition compound text = .ok none by rw [readCompound_eq, none]
  cases text with
  | nil => rfl
  | cons character text =>
      have pause := paused character rfl
      have start : isNameStart character = false := by
        cases start : isNameStart character with
        | false => rfl
        | true =>
            have named := isNameCharacter_of_isNameStart start
            rw [isNameCharacter_of_pause pause] at named
            cases named
      have signless : character ∉ conditionSigns := by
        intro sign
        obtain ⟨-, solid, other⟩ := facts_of_mem_conditionSigns sign
        rcases pause with blank | joins
        · rw [solid] at blank
          cases blank
        · rw [other] at joins
          cases joins
      rw [readCondition_signless signless, start, Bool.false_and, if_neg Bool.false_ne_true]

/-- How a condition is written. -/
def conditionText : Condition → List Char
  | .universal => ['*']
  | .element name => name.toList
  | .id name => '#' :: name.toList
  | .hasClass name => '.' :: name.toList
  | .hasAttribute condition => condition.render
  | .hasPseudoClass condition => condition.render

/-- The condition starts with a sign of its own, is well-formed, and can be written. -/
def Signed : Condition → Prop
  | .universal => True
  | .element _ => False
  | .id name | .hasClass name => IsName name.toList
  | .hasAttribute condition => condition.WellFormed
  | .hasPseudoClass condition => condition.WellFormed ∧ condition.isWritable = true

theorem readCondition_signed {condition : Condition} (signed : Signed condition)
    (ends : Ends isNameCharacter rest) :
    readCondition compound (conditionText condition ++ rest) = .ok (some (condition, rest)) := by
  cases condition with
  | universal => rfl
  | element name => exact signed.elim
  | id name =>
      have read : readName .expectedId (name.toList ++ rest) = .ok (name, rest) :=
        readName_exact signed ends
      simp [conditionText, readCondition, read, Except.map]
  | hasClass name =>
      have read : readName .expectedClassName (name.toList ++ rest) = .ok (name, rest) :=
        readName_exact signed ends
      simp [conditionText, readCondition, read, Except.map]
  | hasAttribute condition =>
      have read := readAttribute_exact signed rest
      simp [conditionText, render_attribute, readCondition, read, Except.map]
  | hasPseudoClass condition =>
      have read := readPseudoClass_exact signed.1 signed.2 ends
      simp [conditionText, render_pseudoClass, readCondition, read, Except.map]

theorem ends_signed {condition : Condition} (signed : Signed condition) (rest : List Char) :
    Ends isNameCharacter (conditionText condition ++ rest) := by
  cases condition with
  | universal => exact ends_cons (by decide) _
  | element name => exact signed.elim
  | id name => exact ends_cons (by decide) _
  | hasClass name => exact ends_cons (by decide) _
  | hasAttribute condition =>
      rw [conditionText, render_attribute]
      exact ends_cons (by decide) _
  | hasPseudoClass condition =>
      rw [conditionText, render_pseudoClass]
      exact ends_cons (by decide) _

theorem ends_flatMap_signed {conditions : List Condition}
    (signed : ∀ condition ∈ conditions, Signed condition) (ends : Ends isNameCharacter rest) :
    Ends isNameCharacter (conditions.flatMap conditionText ++ rest) := by
  cases conditions with
  | nil => exact ends
  | cons condition others =>
      rw [List.flatMap_cons, List.append_assoc]
      exact ends_signed (signed condition List.mem_cons_self) _

/-- Conditions with signs are read one by one. -/
theorem readCompound_signed {conditions : List Condition}
    (signed : ∀ condition ∈ conditions, Signed condition) (ends : Ends isNameCharacter rest) :
    readCompound compound (conditions.flatMap conditionText ++ rest) =
      readCompound (conditions.foldl (fun result condition => condition.addTo result) compound)
        rest := by
  induction conditions generalizing compound with
  | nil => rfl
  | cons condition later ih =>
      have among : ∀ other ∈ later, Signed other := fun other member =>
        signed other (List.mem_cons_of_mem _ member)
      -- A name ends at the sign of the condition after it.
      have read : readCondition compound
          (conditionText condition ++ (later.flatMap conditionText ++ rest)) =
            .ok (some (condition, later.flatMap conditionText ++ rest)) :=
        readCondition_signed (signed condition List.mem_cons_self)
          (ends_flatMap_signed among ends)
      rw [List.flatMap_cons, List.append_assoc, readCompound_eq, read, List.foldl_cons]
      exact ih among

/-- The conditions of a compound but its element, in the order in which they are
written. -/
def signedConditions (compound : Compound) : List Condition :=
  (if compound.universal then [.universal] else []) ++ compound.id.toList.map .id ++
    compound.classes.map .hasClass ++ compound.attributes.map .hasAttribute ++
    compound.pseudoClasses.map .hasPseudoClass

theorem signed_of_mem (wellFormed : compound.WellFormed)
    (writable : compound.isWritable = true) :
    ∀ condition ∈ signedConditions compound, Signed condition := by
  simp only [signedConditions, List.mem_append, List.mem_map, Option.mem_toList]
  rintro condition ((((universal | ⟨name, same, rfl⟩) | ⟨name, member, rfl⟩) |
    ⟨feature, member, rfl⟩) | ⟨pseudoClass, member, rfl⟩)
  · split at universal
    · rw [List.mem_singleton.mp universal]
      trivial
    · cases universal
  · exact wellFormed.id name same
  · exact wellFormed.classes name member
  · exact wellFormed.attributes feature member
  · exact ⟨wellFormed.pseudoClasses pseudoClass member,
      List.all_eq_true.mp writable pseudoClass member⟩

/-- An element and the star exclude each other, so the element comes first. -/
theorem render_compound (wellFormed : compound.WellFormed) :
    compound.render = compound.element.elim [] String.toList ++
      (signedConditions compound).flatMap conditionText := by
  have single := wellFormed.single
  rcases compound with ⟨element, id, classes, attributes, pseudoClasses, universal⟩
  simp only [Compound.render, signedConditions, List.flatMap_append, List.flatMap_map]
  cases universal with
  | false => cases element <;> cases id <;> simp [conditionText]
  | true =>
      have absent : element = none := single rfl
      rw [absent]
      cases id <;> simp [conditionText]

/-- Conditions of one kind are added one by one as they are added all at once. -/
theorem foldl_addTo {Value : Type} (condition : Value → Condition)
    (addAll : Compound → List Value → Compound) (none : ∀ compound, addAll compound [] = compound)
    (one : ∀ compound value later,
      addAll ((condition value).addTo compound) later = addAll compound (value :: later))
    (compound : Compound) (values : List Value) :
    values.foldl (fun result value => (condition value).addTo result) compound =
      addAll compound values := by
  induction values generalizing compound with
  | nil => exact (none compound).symm
  | cons value later ih => rw [List.foldl_cons, ih, one]

/-- The conditions of a compound make up the compound. -/
theorem foldl_addTo_signedConditions (compound : Compound) :
    (signedConditions compound).foldl (fun result condition => condition.addTo result)
      { element := compound.element } = compound := by
  have classes := foldl_addTo .hasClass
    (fun compound names => { compound with classes := compound.classes ++ names })
    (by simp) (by simp [Condition.addTo])
  have attributes := foldl_addTo .hasAttribute
    (fun compound conditions => { compound with attributes := compound.attributes ++ conditions })
    (by simp) (by simp [Condition.addTo])
  have pseudoClasses := foldl_addTo .hasPseudoClass
    (fun compound conditions =>
      { compound with pseudoClasses := compound.pseudoClasses ++ conditions })
    (by simp) (by simp [Condition.addTo])
  simp only [signedConditions, List.foldl_append, List.foldl_map, classes, attributes,
    pseudoClasses]
  rcases compound with ⟨element, id, classes, attributes, pseudoClasses, universal⟩
  cases universal <;> cases id <;> rfl

/-- An element name is read where no element and no star came before it. -/
theorem readCondition_element {name : String} (isName : IsName name.toList)
    (starts : name.toList.head?.any isNameStart = true)
    (ends : Ends isNameCharacter rest) (admits : admitsElement compound = true) :
    readCondition compound (name.toList ++ rest) = .ok (some (.element name, rest)) := by
  obtain ⟨first, head, start⟩ := (Option.any_eq_true _ _).mp starts
  obtain ⟨tail, letters⟩ : ∃ tail, name.toList = first :: tail :=
    ⟨_, List.eq_cons_of_mem_head? head⟩
  have inside : ∀ character ∈ tail, isNameCharacter character = true := by
    intro character member
    refine isName.characters character ?_
    rw [letters]
    exact List.mem_cons_of_mem first member
  rw [letters, List.cons_append, readCondition_signless (signless_of_isNameStart start), start,
    admits, takeWhile_run inside ends, dropWhile_run inside ends, ← letters,
    String.ofList_toList]
  rfl

/-- Where no element may follow, the letters of one end the compound. -/
theorem readCompound_of_not_admits {first : Char} (start : isNameStart first = true)
    (barred : admitsElement compound = false) (text : List Char) :
    readCompound compound (first :: text) = .ok (compound, first :: text) := by
  rw [readCompound_eq, readCondition_signless (signless_of_isNameStart start), barred,
    Bool.and_false, if_neg Bool.false_ne_true]

/-- Reading a written compound comes to the compound, and goes on with what follows. -/
theorem readCompound_render (wellFormed : compound.WellFormed)
    (writable : compound.isWritable = true) (ends : Ends isNameCharacter rest) :
    readCompound {} (compound.render ++ rest) = readCompound compound rest := by
  have signed := signed_of_mem wellFormed writable
  -- The reader takes an element only while it has seen none, so the element is split off.
  have later : readCompound { element := compound.element }
      ((signedConditions compound).flatMap conditionText ++ rest) = readCompound compound rest := by
    rw [readCompound_signed signed ends, foldl_addTo_signedConditions]
  rw [render_compound wellFormed, List.append_assoc]
  cases element : compound.element with
  | none =>
      rw [element] at later
      exact later
  | some name =>
      obtain ⟨isName, starts⟩ := wellFormed.element name element
      have read := readCondition_element isName starts (ends_flatMap_signed signed ends)
        (show admitsElement {} = true from rfl)
      rw [element] at later
      rw [Option.elim_some, readCompound_eq, read]
      exact later

theorem readCompound_exact (wellFormed : compound.WellFormed)
    (writable : compound.isWritable = true) (paused : Paused rest) :
    readCompound {} (compound.render ++ rest) = .ok (compound, rest) := by
  rw [readCompound_render wellFormed writable paused.ends, readCompound_paused paused]

/-! ## Chains -/

theorem Joint.inhabited {combinator : Combinator} {between : List Char}
    (joint : Joint combinator between) : between ≠ [] := by
  cases joint with
  | blanks _ inhabited => exact inhabited
  | sign => exact List.append_ne_nil_of_right_ne_nil _ (List.cons_ne_nil _ _)

theorem combinatorOf?_sign {combinator : Combinator} (apart : combinator ≠ .descendant) :
    combinatorOf? combinator.sign = some combinator := by
  cases combinator with
  | descendant => exact absurd rfl apart
  | _ => rfl

theorem isBlank_sign {combinator : Combinator} (apart : combinator ≠ .descendant) :
    isBlank combinator.sign = false := by
  cases combinator with
  | descendant => exact absurd rfl apart
  | _ => decide

theorem Joint.paused {combinator : Combinator} {between : List Char}
    (joint : Joint combinator between) : Paused between := by
  cases joint with
  | blanks blank => exact paused_of_blank blank
  | @sign _ before after apart blank =>
      cases before with
      | nil =>
          intro character head
          cases head
          refine .inr ?_
          rw [combinatorOf?_sign apart]
          rfl
      | cons first before =>
          exact paused_append (List.cons_ne_nil first before) (paused_of_blank blank) _

/-- What a well-formed compound starts with is no pause. -/
theorem exists_head_render (wellFormed : compound.WellFormed)
    (writable : compound.isWritable = true) :
    ∃ first tail, compound.render = first :: tail ∧ ¬ Pause first := by
  -- At a pause reading stops before the first condition, so nothing could be read back.
  have unpaused : ¬ Paused compound.render := by
    intro paused
    have read := readCompound_exact wellFormed writable paused_nil
    rw [List.append_nil, readCompound_paused paused] at read
    injection read with same
    have empty : ({} : Compound) = compound := congrArg Prod.fst same
    have inhabited := wellFormed.inhabited
    rw [← empty] at inhabited
    cases inhabited
  simp only [Paused, not_forall] at unpaused
  obtain ⟨first, head, apart⟩ := unpaused
  exact ⟨first, _, List.eq_cons_of_mem_head? head, apart⟩

theorem Spaced.exists_head {links : List Link} (chain : Chain links)
    (writable : ∀ link ∈ links, link.compound.isWritable = true) (spaced : Spaced links text) :
    ∃ first tail, text = first :: tail ∧ ¬ Pause first := by
  cases spaced with
  | last =>
      cases chain with
      | last wellFormed =>
          obtain ⟨first, tail, same, apart⟩ :=
            exists_head_render wellFormed (writable _ List.mem_cons_self)
          exact ⟨first, _, by rw [same, List.cons_append], apart⟩
  | link =>
      cases chain with
      | link wellFormed =>
          obtain ⟨first, tail, same, apart⟩ :=
            exists_head_render wellFormed (writable _ List.mem_cons_self)
          exact ⟨first, _, by rw [same, List.cons_append, List.cons_append], apart⟩

/-- The equation of the reader where it finds a compound. -/
theorem readLinks_eq {afterCombinator : Bool}
    (read : readCompound {} text = .ok (compound, rest)) (inhabited : compound.isEmpty = false) :
    readLinks afterCombinator text =
      match skipBlanks rest with
      | [] => .ok [{ compound }]
      | character :: remaining =>
          match combinatorOf? character with
          | some combinator =>
              if (skipBlanks remaining).isEmpty then stop .expectedSelector []
              else
                (readLinks true (skipBlanks remaining)).map fun links =>
                  { compound, combinator := some combinator } :: links
          | none =>
              if remaining.length + 1 < rest.length then
                (readLinks true (character :: remaining)).map fun links =>
                  { compound, combinator := some .descendant } :: links
              else stop (.unexpectedCharacter character) (character :: remaining) := by
  rw [readLinks]
  split
  · rename_i failed
    rw [read] at failed
    cases failed
  · rename_i found
    rw [read] at found
    cases found
    rw [inhabited, if_neg Bool.false_ne_true]
    split
    · rename_i same
      rw [same]
    · rename_i same
      rewrite [same]
      rfl

/-- A joint in front of the next compound is read as its combinator. -/
theorem readLinks_joint {afterCombinator : Bool} {combinator : Combinator}
    {between tail : List Char}
    (read : readCompound {} text = .ok (compound, between ++ character :: tail))
    (inhabited : compound.isEmpty = false) (joint : Joint combinator between)
    (apart : ¬ Pause character) :
    readLinks afterCombinator text =
      (readLinks true (character :: tail)).map fun links =>
        { compound, combinator := some combinator } :: links := by
  have solid := skipBlanks_cons (isBlank_of_not_pause apart) tail
  cases joint with
  | blanks blank some =>
      have skipped : skipBlanks (between ++ character :: tail) = character :: tail := by
        rw [skipBlanks_append blank, solid]
      have shorter : tail.length + 1 < (between ++ character :: tail).length := by
        have positive := List.length_pos_of_ne_nil some
        rw [List.length_append, List.length_cons]
        omega
      rw [readLinks_eq read inhabited, skipped]
      simp only [combinatorOf?_of_not_pause apart]
      exact if_pos shorter
  | @sign _ before after other blankBefore blankAfter =>
      have skipped : skipBlanks (before ++ combinator.sign :: after ++ character :: tail) =
          combinator.sign :: (after ++ character :: tail) := by
        rw [List.append_assoc, skipBlanks_append blankBefore, List.cons_append,
          skipBlanks_cons (isBlank_sign other)]
      have following : skipBlanks (after ++ character :: tail) = character :: tail := by
        rw [skipBlanks_append blankAfter, solid]
      rw [readLinks_eq read inhabited, skipped]
      simp only [combinatorOf?_sign other, following]
      rfl

/-- The links are read from any text in which they may be written. -/
theorem readLinks_exact {links : List Link} (chain : Chain links)
    (writable : ∀ link ∈ links, link.compound.isWritable = true) (spaced : Spaced links text)
    (afterCombinator : Bool) : readLinks afterCombinator text = .ok links := by
  induction chain generalizing text afterCombinator with
  | last wellFormed =>
      cases spaced with
      | last blank =>
          have read := readCompound_exact wellFormed (writable _ List.mem_cons_self)
            (paused_of_blank blank)
          rw [readLinks_eq read wellFormed.inhabited, skipBlanks_of_blank blank]
  | link wellFormed later ih =>
      have among := fun link member => writable link (List.mem_cons_of_mem _ member)
      cases spaced with
      | @link compound combinator _ joint following joins spaced =>
          -- The compound ends where the joint starts, the joint where the next compound does.
          obtain ⟨first, tail, same, apart⟩ := spaced.exists_head later among
          have read := readCompound_exact wellFormed (writable _ List.mem_cons_self)
            (paused_append joins.inhabited joins.paused following)
          rw [← List.append_assoc, same] at read
          rw [same, readLinks_joint read wellFormed.inhabited joins apart, ← same, ih among spaced]
          rfl

/-- A well-formed selector whose numbers can be written is what is read from every text in
which it may be written. -/
theorem parse_of_spaced {selector : Selector} {leading : List Char}
    (wellFormed : selector.WellFormed) (writable : selector.isWritable = true)
    (blank : Blank leading) (spaced : Spaced selector.links text) :
    parse (String.ofList (leading ++ text)) = .ok selector := by
  have each := List.all_eq_true.mp writable
  obtain ⟨first, tail, same, apart⟩ := spaced.exists_head wellFormed each
  have start : skipBlanks (leading ++ text) = text := by
    rw [skipBlanks_append blank, same, skipBlanks_cons (isBlank_of_not_pause apart)]
  have links := readLinks_exact wellFormed each spaced false
  rw [parse, String.toList_ofList, readSelector]
  simp only [start, links]
  rw [same]
  rfl

end WidgetStyle.Selector
