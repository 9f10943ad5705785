import WidgetStyle.Proofs.Selector.Readings

/-!
# Selectors that were read

A selector that was read has all its parts: no compound is empty, names are names,
comparisons have a text, places count from one and have few enough digits, and exactly the
last link lacks a combinator.  Two things can still keep it from being written down.  A star
in front of an element name is no start of a compound that can be read, and a double quote
inside a text closes the quotes around it.  A selector that was read is read back from its
written form exactly when it has neither.  The digits of places are the only thing that can
keep a well-formed selector from being written and read back.
-/

namespace WidgetStyle

open WidgetStyle.Text WidgetStyle.Selector

/-! ## Parts -/

/-- A comparison has a text. -/
def AttributeTest.Complete : AttributeTest → Prop
  | present => True
  | compare _ value _ => value.isSome = true

/-- Every part of the compound has the name or the argument that it needs. -/
structure Compound.Complete (compound : Compound) : Prop where
  element : ∀ name ∈ compound.element,
    IsName name.toList ∧ name.toList.head?.any isNameStart = true
  id : ∀ name ∈ compound.id, IsName name.toList
  classes : ∀ name ∈ compound.classes, IsName name.toList
  attributes : ∀ condition ∈ compound.attributes,
    IsName condition.name.toList ∧ condition.test.Complete
  pseudoClasses : ∀ condition ∈ compound.pseudoClasses,
    condition.WellFormed ∧ condition.isWritable = true

theorem Compound.Complete.isWritable {compound : Compound} (complete : compound.Complete) :
    compound.isWritable = true :=
  List.all_eq_true.mpr fun condition member => (complete.pseudoClasses condition member).2

/-- The compound has a part, and its parts are complete. -/
structure Compound.Legible (compound : Compound) : Prop where
  inhabited : compound.isEmpty = false
  complete : compound.Complete

/-- The text of a comparison fits between double quotes. -/
def AttributeTest.Quotable : AttributeTest → Prop
  | present => True
  | compare _ value _ => ∀ text ∈ value, '"' ∉ text.toList

instance : (test : AttributeTest) → Decidable test.Quotable
  | .present => .isTrue trivial
  | .compare _ value _ => inferInstanceAs (Decidable (∀ text ∈ value, '"' ∉ text.toList))

/-- The written form of the compound says what the compound says. -/
structure Compound.Faithful (compound : Compound) : Prop where
  single : compound.universal = true → compound.element = none
  quotable : ∀ condition ∈ compound.attributes, condition.test.Quotable

instance (compound : Compound) : Decidable compound.Faithful :=
  decidable_of_iff
    ((compound.universal = true → compound.element = none) ∧
      ∀ condition ∈ compound.attributes, condition.test.Quotable)
    ⟨fun ⟨single, quotable⟩ => ⟨single, quotable⟩,
      fun faithful => ⟨faithful.single, faithful.quotable⟩⟩

/-- The star and the names of a compound. -/
def Compound.naming (compound : Compound) : Compound :=
  { compound with attributes := [], pseudoClasses := [] }

theorem AttributeCondition.wellFormed_of_quotable {condition : AttributeCondition}
    (complete : IsName condition.name.toList ∧ condition.test.Complete)
    (quotable : condition.test.Quotable) : condition.WellFormed := by
  refine ⟨complete.1, ?_⟩
  rcases condition with ⟨name, _ | ⟨comparison, value, ignoreCase⟩⟩
  · trivial
  · obtain ⟨text, rfl⟩ := Option.isSome_iff_exists.mp complete.2
    exact ⟨text, rfl, quotable text rfl⟩

theorem Compound.Legible.wellFormed {compound : Compound} (legible : compound.Legible)
    (faithful : compound.Faithful) : compound.WellFormed where
  inhabited := legible.inhabited
  element := legible.complete.element
  single := faithful.single
  id := legible.complete.id
  classes := legible.complete.classes
  attributes condition member :=
    AttributeCondition.wellFormed_of_quotable (legible.complete.attributes condition member)
      (faithful.quotable condition member)
  pseudoClasses condition member := (legible.complete.pseudoClasses condition member).1

namespace Selector

variable {text rest : List Char} {compound : Compound} {links : List Link}

/-- Compounds that pass the test, each of which but the last has a combinator. -/
inductive ChainOf (test : Compound → Prop) : List Link → Prop where
  | last {compound : Compound} : test compound → ChainOf test [{ compound }]
  | link {compound : Compound} {combinator : Combinator} {links : List Link} :
      test compound → ChainOf test links →
        ChainOf test ({ compound, combinator := some combinator } :: links)

theorem ChainOf.chain (legible : ChainOf Compound.Legible links)
    (faithful : ∀ link ∈ links, link.compound.Faithful) : Chain links := by
  induction legible with
  | last legible => exact .last (legible.wellFormed (faithful _ List.mem_cons_self))
  | link legible _ ih =>
      exact .link (legible.wellFormed (faithful _ List.mem_cons_self))
        (ih fun link member => faithful link (List.mem_cons_of_mem _ member))

theorem ChainOf.isWritable (legible : ChainOf Compound.Legible links) :
    ∀ link ∈ links, link.compound.isWritable = true := by
  induction legible with
  | last legible => exact List.forall_mem_singleton.mpr legible.complete.isWritable
  | link legible _ ih => exact List.forall_mem_cons.mpr ⟨legible.complete.isWritable, ih⟩

/-! ## Completeness of what is read -/

theorem ReadsPseudoClass.wellFormed {condition : PseudoClass}
    (reads : ReadsPseudoClass text condition rest) :
    condition.WellFormed ∧ condition.isWritable = true := by
  induction reads with
  | state => exact ⟨trivial, rfl⟩
  | nthChild _ _ placed | nthLastChild _ _ placed =>
      have writable := placed.isWritable
      cases placed with
      | digits _ _ _ positive => exact ⟨⟨_, rfl, by omega⟩, writable⟩
  | negation _ _ _ _ _ ih => exact ih

theorem ReadsAttribute.complete {condition : AttributeCondition}
    (reads : ReadsAttribute text condition rest) :
    IsName condition.name.toList ∧ condition.test.Complete := by
  cases reads with
  | present named => exact ⟨isName_of_readName named, trivial⟩
  | compare named => exact ⟨isName_of_readName named, rfl⟩

theorem isName_element {first : Char} (start : isNameStart first = true) (text : List Char) :
    IsName (first :: text.takeWhile isNameCharacter) := by
  refine ⟨List.cons_ne_nil _ _, ?_⟩
  intro character member
  rcases List.mem_cons.mp member with rfl | later
  · exact isNameCharacter_of_isNameStart start
  · exact List.mem_takeWhile_imp later

/-- A condition more leaves the parts complete. -/
theorem complete_addTo {condition : Condition} (complete : compound.Complete)
    (reads : ReadsCondition compound text condition rest) :
    (condition.addTo compound).Complete := by
  obtain ⟨element, id, classes, attributes, pseudoClasses⟩ := complete
  cases reads with
  | universal => exact ⟨element, id, classes, attributes, pseudoClasses⟩
  | id found =>
      refine ⟨element, ?_, classes, attributes, pseudoClasses⟩
      rintro name ⟨⟩
      exact isName_of_readName found
  | hasClass found =>
      refine ⟨element, id, List.forall_mem_append.mpr ⟨classes, ?_⟩, attributes, pseudoClasses⟩
      exact List.forall_mem_singleton.mpr (isName_of_readName found)
  | hasPseudoClass found =>
      refine ⟨element, id, classes, attributes, List.forall_mem_append.mpr ⟨pseudoClasses, ?_⟩⟩
      exact List.forall_mem_singleton.mpr (readPseudoClass_eq_ok_iff.mp found).wellFormed
  | hasAttribute found =>
      refine ⟨element, id, classes, List.forall_mem_append.mpr ⟨attributes, ?_⟩, pseudoClasses⟩
      exact List.forall_mem_singleton.mpr (readAttribute_eq_ok_iff.mp found).complete
  | element start =>
      refine ⟨?_, id, classes, attributes, pseudoClasses⟩
      rintro name ⟨⟩
      rw [String.toList_ofList]
      exact ⟨isName_element start _, start⟩

theorem complete_of_readCompound {result : Compound} (complete : compound.Complete)
    (read : readCompound compound text = .ok (result, rest)) : result.Complete := by
  fun_induction readCompound compound text with
  | case1 => cases read
  | case2 =>
      cases read
      exact complete
  | case3 compound text condition remaining next ih =>
      exact ih (complete_addTo complete (readsCondition next)) read

theorem complete_empty : Compound.Complete {} := by
  constructor <;> simp

/-- What is read is legible. -/
theorem ReadsLinks.legible (reads : ReadsLinks text links) :
    ChainOf Compound.Legible links := by
  induction reads with
  | last read inhabited =>
      exact .last ⟨inhabited, complete_of_readCompound complete_empty read⟩
  | link read inhabited _ _ ih =>
      exact .link ⟨inhabited, complete_of_readCompound complete_empty read⟩ ih

/-! ## What cannot be written down -/

/-- The text between double quotes has none. -/
theorem quotable_of_readValue {value : String}
    (read : readValue ('"' :: text) = .ok (value, rest)) : '"' ∉ value.toList := by
  simp only [readValue, readQuoted] at read
  split at read
  · cases read
  · cases read
    rw [String.toList_ofList]
    intro member
    simpa using List.mem_takeWhile_imp member

/-- Whatever condition is read from a written one has a text that fits between quotes. -/
theorem ReadsAttribute.quotable {condition written : AttributeCondition}
    (complete : IsName written.name.toList ∧ written.test.Complete)
    (reads : ReadsAttribute (written.name.toList ++ (testText written.test ++ rest)) condition
      text) : condition.test.Quotable := by
  obtain ⟨isName, complete⟩ := complete
  rcases written with ⟨name, _ | ⟨comparison, value, ignoreCase⟩⟩
  · have exactly : readName .expectedAttributeName (name.toList ++ ']' :: rest) =
        .ok (name, ']' :: rest) := readName_exact isName (ends_cons (by decide) rest)
    cases reads with
    | present => trivial
    | compare named compared =>
        rw [skipBlanks_name isName] at named
        cases exactly.symm.trans named
        cases compared
  · obtain ⟨value, rfl⟩ := Option.isSome_iff_exists.mp complete
    obtain ⟨sign, operator, spelt, bound, solid, -⟩ := exists_sign_render comparison
    let quoted := '"' :: (value.toList ++ '"' :: (flagText ignoreCase ++ rest))
    have parts : testText (.compare comparison (some value) ignoreCase) ++ rest =
        sign :: (operator ++ quoted) := by
      simp [testText, quoted, spelt]
    have exactly : readName .expectedAttributeName
        (name.toList ++ sign :: (operator ++ quoted)) =
          .ok (name, sign :: (operator ++ quoted)) := readName_exact isName (ends_cons bound _)
    cases reads with
    | present => trivial
    | compare named compared valued =>
        rw [skipBlanks_name isName, parts] at named
        cases exactly.symm.trans named
        rw [skipBlanks_cons solid, ← List.cons_append, ← spelt, readComparison_exact] at compared
        cases compared
        rw [skipBlanks_cons (by decide)] at valued
        rintro text ⟨⟩
        exact quotable_of_readValue valued

/-- Conditions that were read are kept. -/
theorem attributes_prefix_of_readCompound {result : Compound}
    (read : readCompound compound text = .ok (result, rest)) :
    compound.attributes <+: result.attributes := by
  fun_induction readCompound compound text with
  | case1 => cases read
  | case2 =>
      cases read
      exact List.prefix_rfl
  | case3 compound text condition remaining next ih =>
      refine List.IsPrefix.trans ?_ (ih read)
      cases condition with
      | hasAttribute condition => exact List.prefix_append _ _
      | _ => exact List.prefix_rfl

theorem eq_of_prefix {Value : Type} {before after all : List Value} {one other : Value}
    (left : before ++ [one] <+: all) (right : before ++ other :: after <+: all) :
    one = other := by
  obtain ⟨rest, rfl⟩ := left
  rw [List.append_assoc, List.prefix_append_right_inj] at right
  exact (List.cons_prefix_cons.mp right).1.symm

/-- Attribute conditions that are read back fit between quotes, one after the other. -/
theorem quotable_of_readCompound {conditions : List AttributeCondition} {result : Compound}
    (complete : ∀ condition ∈ conditions,
      IsName condition.name.toList ∧ condition.test.Complete)
    (read : readCompound compound (conditions.flatMap AttributeCondition.render ++ text) =
      .ok (result, rest))
    (same : compound.attributes ++ conditions <+: result.attributes) :
    ∀ condition ∈ conditions, condition.test.Quotable := by
  induction conditions generalizing compound with
  | nil => exact fun _ member => by cases member
  | cons condition others ih =>
      have first := complete condition List.mem_cons_self
      rw [List.flatMap_cons, List.append_assoc, render_attribute, List.cons_append,
        List.append_assoc, readCompound_eq] at read
      split at read
      · cases read
      · rename_i nothing
        exact absurd nothing (by
          simp only [readCondition]
          cases readAttribute _ <;> simp [Except.map])
      · rename_i found remaining next
        obtain ⟨⟨feature, remaining⟩, attributed, taken⟩ := exists_of_map_eq_ok next
        cases taken
        have grown := attributes_prefix_of_readCompound read
        obtain rfl : feature = condition := eq_of_prefix grown same
        have quotable := (readAttribute_eq_ok_iff.mp attributed).quotable first
        have wellFormed := AttributeCondition.wellFormed_of_quotable first quotable
        rw [readAttribute_exact wellFormed] at attributed
        cases attributed
        refine List.forall_mem_cons.mpr ⟨quotable, ?_⟩
        refine ih (fun other member => complete other (List.mem_cons_of_mem _ member)) read ?_
        simpa [Condition.addTo] using same

/-- A star in front of an element name is a compound of its own. -/
theorem single_of_readCompound (complete : compound.Complete)
    (read : readCompound {} (compound.render ++ text) = .ok (compound, rest)) :
    compound.universal = true → compound.element = none := by
  intro universal
  cases element : compound.element with
  | none => rfl
  | some name =>
      obtain ⟨first, head, start⟩ := (Option.any_eq_true _ _).mp (complete.element name element).2
      obtain ⟨tail, letters⟩ : ∃ tail, name.toList = first :: tail :=
        ⟨_, List.eq_cons_of_mem_head? head⟩
      obtain ⟨later, written⟩ : ∃ later, compound.render ++ text = '*' :: first :: later := by
        simp [Compound.render, universal, element, letters]
      have star : readCompound {} ('*' :: first :: later) =
          .ok ({ universal := true }, first :: later) := by
        rw [readCompound_eq]
        exact readCompound_of_not_admits start rfl later
      rw [written, star] at read
      cases read
      cases element

theorem eq_empty_of_isEmpty (empty : compound.isEmpty = true) : compound = {} := by
  rcases compound with ⟨element, id, classes, attributes, pseudoClasses, universal⟩
  simp only [Compound.isEmpty, Bool.and_eq_true, Option.isNone_iff_eq_none, List.isEmpty_iff,
    Bool.not_eq_true'] at empty
  obtain ⟨⟨⟨⟨⟨rfl, rfl⟩, rfl⟩, rfl⟩, rfl⟩, rfl⟩ := empty
  rfl

/-- The star and the names are read off the front of a written compound. -/
theorem readCompound_naming (complete : compound.Complete)
    (single : compound.universal = true → compound.element = none)
    (ends : Ends isNameCharacter text) :
    readCompound {} (compound.naming.render ++ text) = readCompound compound.naming text := by
  cases empty : compound.naming.isEmpty with
  | true =>
      rw [eq_empty_of_isEmpty empty]
      rfl
  | false =>
      have wellFormed : compound.naming.WellFormed :=
        { inhabited := empty
          element := complete.element
          single := single
          id := complete.id
          classes := complete.classes
          attributes := fun _ member => nomatch member
          pseudoClasses := fun _ member => nomatch member }
      exact readCompound_render wellFormed rfl ends

theorem ends_flatMap {Value : Type} {values : List Value} {written : Value → List Char}
    (starts : ∀ value, ∃ sign tail, written value = sign :: tail ∧ isNameCharacter sign = false)
    (ends : Ends isNameCharacter text) :
    Ends isNameCharacter (values.flatMap written ++ text) := by
  cases values with
  | nil => exact ends
  | cons value others =>
      obtain ⟨sign, tail, same, fails⟩ := starts value
      rw [List.flatMap_cons, same]
      exact ends_cons fails _

/-- Only a faithful compound is read back from its written form. -/
theorem faithful_of_readCompound (complete : compound.Complete)
    (ends : Ends isNameCharacter text)
    (read : readCompound {} (compound.render ++ text) = .ok (compound, rest)) :
    compound.Faithful := by
  have single := single_of_readCompound complete read
  refine ⟨single, ?_⟩
  let later := compound.attributes.flatMap AttributeCondition.render ++
    (compound.pseudoClasses.flatMap PseudoClass.render ++ text)
  have parts : compound.render ++ text = compound.naming.render ++ later := by
    simp only [Compound.render, Compound.naming, later, List.append_assoc, List.flatMap_nil,
      List.nil_append]
    rfl
  have apart : Ends isNameCharacter later :=
    ends_flatMap (fun condition => ⟨_, _, render_attribute condition, by decide⟩)
      (ends_flatMap (fun condition => ⟨_, _, render_pseudoClass condition, by decide⟩) ends)
  rw [parts, readCompound_naming complete single apart] at read
  exact quotable_of_readCompound complete.attributes read List.prefix_rfl

/-! ## Chains -/

/-- A written compound starts with no blank. -/
theorem Compound.Legible.skipBlanks_render (legible : compound.Legible) (text : List Char) :
    skipBlanks (compound.render ++ text) = compound.render ++ text := by
  suffices solid : ∃ first ∈ compound.render.head?, isBlank first = false by
    obtain ⟨first, head, solid⟩ := solid
    rw [List.eq_cons_of_mem_head? head, List.cons_append, skipBlanks_cons solid]
  obtain ⟨inhabited, complete⟩ := legible
  rcases compound with ⟨element, id, classes, attributes, pseudoClasses, universal⟩
  cases universal with
  | true => exact ⟨'*', by simp [Compound.render], by decide⟩
  | false =>
      rcases element with _ | name
      · rcases id with _ | name
        · rcases classes with _ | ⟨name, classes⟩
          · rcases attributes with _ | ⟨condition, attributes⟩
            · rcases pseudoClasses with _ | ⟨condition, pseudoClasses⟩
              · cases inhabited
              · exact ⟨':', by simp [Compound.render, render_pseudoClass], by decide⟩
            · exact ⟨'[', by simp [Compound.render, render_attribute], by decide⟩
          · exact ⟨'.', by simp [Compound.render], by decide⟩
        · exact ⟨'#', by simp [Compound.render], by decide⟩
      · have isName := (complete.element name rfl).1
        obtain ⟨first, tail, letters⟩ := List.exists_cons_of_ne_nil isName.inhabited
        refine ⟨first, by simp [Compound.render, letters], ?_⟩
        refine isBlank_eq_false (isName.characters first ?_) isNameCharacter_blankCode
        rw [letters]
        exact List.mem_cons_self

theorem ChainOf.skipBlanks_render (legible : ChainOf Compound.Legible links) :
    skipBlanks (links.flatMap Link.render) = links.flatMap Link.render := by
  cases legible with
  | last legible | link legible =>
      rw [List.flatMap_cons, Link.render, List.append_assoc]
      exact Compound.Legible.skipBlanks_render legible _

/-- What follows a joint does not depend on how the joint is written. -/
theorem Joint.following_eq {combinator : Combinator} {joint other following rest : List Char}
    (one : Joint combinator joint) (two : Joint combinator other)
    (same : joint ++ following = other ++ rest) (solid : skipBlanks following = following)
    (firm : skipBlanks rest = rest) : following = rest := by
  have skipped := congrArg skipBlanks same
  cases one with
  | blanks blank =>
      cases two with
      | blanks other => rwa [skipBlanks_append blank, skipBlanks_append other, solid, firm] at skipped
      | sign apart => exact absurd rfl apart
  | sign apart before after =>
      cases two with
      | blanks => exact absurd rfl apart
      | sign _ otherBefore otherAfter =>
          rw [List.append_assoc, List.append_assoc, skipBlanks_append before,
            skipBlanks_append otherBefore, List.cons_append, List.cons_append,
            skipBlanks_cons (isBlank_sign apart), skipBlanks_cons (isBlank_sign apart)] at skipped
          have inner := congrArg skipBlanks (List.cons.inj skipped).2
          rwa [skipBlanks_append after, skipBlanks_append otherAfter, solid, firm] at inner

/-- Only faithful compounds are read back from the written form of a chain. -/
theorem ChainOf.faithful (legible : ChainOf Compound.Legible links)
    (reads : ReadsLinks (links.flatMap Link.render) links) :
    ∀ link ∈ links, link.compound.Faithful := by
  induction legible with
  | @last compound legible =>
      cases reads with
      | last read =>
          have ending : Ends isNameCharacter [] := fun _ head => by cases head
          rw [List.flatMap_singleton] at read
          exact List.forall_mem_singleton.mpr
            (faithful_of_readCompound legible.complete ending read)
  | @link compound combinator links legible later ih =>
      cases reads with
      | @link _ joint following _ _ _ read _ joins further =>
          have between := joint_render combinator
          let tail := combinator.render ++ links.flatMap Link.render
          have parts : List.flatMap Link.render
              ({ compound, combinator := some combinator } :: links) =
                compound.render ++ tail := by
            simp [Link.render, tail]
          have paused : Paused tail := paused_append between.inhabited between.paused _
          rw [parts] at read
          have faithful := faithful_of_readCompound legible.complete paused.ends read
          -- A faithful compound is read to its end, so the joint is the written combinator.
          rw [readCompound_exact (legible.wellFormed faithful) legible.complete.isWritable
            paused] at read
          have same : tail = joint ++ following := congrArg Prod.snd (Except.ok.inj read)
          have rest : following = links.flatMap Link.render :=
            joins.following_eq between same.symm further.skipBlanks_eq later.skipBlanks_render
          rw [rest] at further
          exact List.forall_mem_cons.mpr ⟨faithful, ih further⟩

/-- A selector that was read can be written. -/
theorem isWritable_of_parse {text : String} {selector : Selector}
    (read : parse text = .ok selector) : selector.isWritable = true :=
  List.all_eq_true.mpr (readSelector_eq_ok_iff.mp read).legible.isWritable

theorem toText_of_parse {text : String} {selector : Selector}
    (read : parse text = .ok selector) :
    selector.toText = .ok (String.ofList selector.render) :=
  if_pos (isWritable_of_parse read)

/-- A selector that was read is what is read from its written form exactly when all its
compounds are faithful. -/
theorem parse_toText_iff {text : String} {selector : Selector}
    (read : parse text = .ok selector) :
    ∃ written, selector.toText = .ok written ∧
      (parse written = .ok selector ↔
        ∀ link ∈ selector.links, link.compound.Faithful) := by
  have legible := (readSelector_eq_ok_iff.mp read).legible
  refine ⟨_, toText_of_parse read, ?_⟩
  rw [parse, String.toList_ofList, readSelector_eq_ok_iff, render, legible.skipBlanks_render]
  constructor
  · exact legible.faithful
  · intro faithful
    have chain := legible.chain faithful
    exact readsLinks_of_readLinks
      (readLinks_exact chain legible.isWritable chain.spaced_render false)

/-- What is read from conditions out of their written order, in every spelling. -/
def titledPanel : Selector where
  links :=
    [{ compound :=
        { element := some "Panel"
          classes := ["wide"]
          attributes := [⟨"title", .compare .equals (some "a > b") true⟩,
            ⟨"id", .compare .endsWith (some "it's") false⟩]
          pseudoClasses := [.negation (.nthChild (some 2))] }
       combinator := some .adjacentSibling },
      { compound := { universal := true } }]

theorem parse_toText_titledPanel :
    parse "[title = 'a > b'I]:NOT( :nth-child( 02))Panel[id$=it's].wide+*" = .ok titledPanel ∧
      ∃ written, titledPanel.toText = .ok written ∧ parse written = .ok titledPanel := by
  have read : parse "[title = 'a > b'I]:NOT( :nth-child( 02))Panel[id$=it's].wide+*" =
      .ok titledPanel := by decide +kernel
  obtain ⟨written, text, exact⟩ := parse_toText_iff read
  exact ⟨read, written, text, exact.mpr (by decide +kernel)⟩

/-- A double quote between single quotes. -/
def doubleQuote : Selector :=
  .ofCompound { attributes := [⟨"title", .compare .equals (some "\"") false⟩] }

/-- A star behind the name of an element. -/
def starredButton : Selector :=
  .ofCompound { element := some "Button", universal := true }

/-- Both selectors are read, and the written form of neither is. -/
theorem doubleQuote_refused :
    parse "[title='\"']" = .ok doubleQuote ∧ doubleQuote.toText = .ok "[title=\"\"\"]" ∧
      parse "[title=\"\"\"]" = .error (.refused ⟨.expectedAttributeClosing, 9⟩) ∧
      parse "Button*" = .ok starredButton ∧ starredButton.toText = .ok "*Button" ∧
      parse "*Button" = .error (.refused ⟨.unexpectedCharacter 'B', 1⟩) := by
  refine ⟨?_, ?_, ?_, ?_, ?_, ?_⟩
  · decide +kernel
  · decide +kernel
  · decide +kernel
  · decide +kernel
  · decide +kernel
  · decide +kernel

/-! ## What can be written down -/

/-- A well-formed selector is what is read from its written form, and from every other text in
which it may be written, exactly when none of its places has too many digits. -/
theorem parse_spaced_iff {selector : Selector} (wellFormed : selector.WellFormed) :
    ((∃ written, selector.toText = .ok written ∧ parse written = .ok selector) ↔
        selector.isWritable = true) ∧
      ∀ leading text, Blank leading → Spaced selector.links text →
        (parse (String.ofList (leading ++ text)) = .ok selector ↔
          selector.isWritable = true) := by
  constructor
  · constructor
    · rintro ⟨written, -, read⟩
      exact isWritable_of_parse read
    · intro few
      have blank : Blank [] := fun _ member => by cases member
      have spaced : Spaced selector.links selector.render := Chain.spaced_render wellFormed
      have read := parse_of_spaced wellFormed few blank spaced
      rw [List.nil_append] at read
      exact ⟨_, if_pos few, read⟩
  · intro leading text blank spaced
    exact ⟨isWritable_of_parse, fun few => parse_of_spaced wellFormed few blank spaced⟩

/-- A closing bracket inside quotes, in front of the one that closes. -/
def widePanel : Compound where
  element := some "Panel"
  classes := ["wide"]
  attributes := [⟨"title", .compare .contains (some "a, ]") true⟩, ⟨"open", .present⟩]

/-- A negation of a negation right behind a star. -/
def twelfth : Compound where
  universal := true
  pseudoClasses := [.negation (.negation (.nthChild (some 12)))]

def firstSave : Compound where
  id := some "save"
  pseudoClasses := [.state .firstChild]

def saveButton : Selector where
  links := [{ compound := widePanel, combinator := some .child },
    { compound := twelfth, combinator := some .descendant }, { compound := firstSave }]

/-- The save button without blanks where none are needed, and with many elsewhere. -/
def looseText : List Char :=
  "Panel.wide[title*=\"a, ]\" i][open]>\t*:not(:not(:nth-child(12)))\n #save:first-child ".toList

theorem spaced_looseText : Spaced saveButton.links looseText := by
  have blank (text : List Char) (all : text.all isBlank = true) : Blank text :=
    List.all_eq_true.mp all
  have parts : widePanel.render ++ ([] ++ '>' :: ['\t']) ++
      (twelfth.render ++ ['\n', ' '] ++ (firstSave.render ++ [' '])) = looseText := by
    decide +kernel
  rw [← parts]
  have sign : Joint .child ([] ++ '>' :: ['\t']) :=
    .sign (by decide) (blank [] rfl) (blank ['\t'] (by decide))
  have blanks : Joint .descendant ['\n', ' '] :=
    .blanks (blank _ (by decide)) (List.cons_ne_nil _ _)
  exact .link sign (.link blanks (.last (blank [' '] (by decide))))

theorem parse_looseText :
    saveButton.WellFormed ∧ Spaced saveButton.links looseText ∧
      (∃ written, saveButton.toText = .ok written ∧ parse written = .ok saveButton) ∧
        parse (String.ofList (['\t'] ++ looseText)) = .ok saveButton := by
  have wellFormed : saveButton.WellFormed := by decide +kernel
  have tab : Blank ['\t'] := List.all_eq_true.mp (by decide)
  have few : saveButton.isWritable = true := by decide +kernel
  obtain ⟨rendered, spaced⟩ := parse_spaced_iff wellFormed
  exact ⟨wellFormed, spaced_looseText, rendered.mpr few,
    (spaced _ _ tab spaced_looseText).mpr few⟩

/-- The place whose written form is a one with a number of zeros behind it. -/
def placeBehind (zeros : Nat) : Selector :=
  .ofCompound { pseudoClasses := [.nthChild (some (Nat.pow 10 zeros))] }

/-- A power of ten has one digit more than it has zeros. -/
theorem length_toDigits_pow_le_iff {zeros bound : Nat} (positive : 0 < bound) :
    (Nat.toDigits 10 (Nat.pow 10 zeros)).length ≤ bound ↔ zeros < bound := by
  have powers : Nat.pow 10 zeros < 10 ^ bound ↔ zeros < bound :=
    Nat.pow_lt_pow_iff_right (by decide)
  rw [Nat.length_toDigits_le_iff (by decide) positive, powers]

theorem isWritable_placeBehind_iff {zeros : Nat} :
    (placeBehind zeros).isWritable = true ↔ zeros < maxDigits := by
  have digits : (placeBehind zeros).isWritable = Text.isWritable (Nat.pow 10 zeros) := by
    simp [placeBehind, ofCompound, isWritable, Compound.isWritable, PseudoClass.isWritable]
  rw [digits, Text.isWritable, decide_eq_true_iff, Int.natAbs_natCast,
    length_toDigits_pow_le_iff (by decide)]

theorem wellFormed_placeBehind (zeros : Nat) : (placeBehind zeros).WellFormed := by
  have place : (1 : Int) ≤ Nat.pow 10 zeros := Int.ofNat_le.mpr (Nat.one_le_pow _ _ (by decide))
  refine .last ⟨rfl, ?_, ?_, ?_, ?_, ?_, ?_⟩
  · intro name member
    cases member
  · intro universal
    cases universal
  · intro name member
    cases member
  · intro name member
    cases member
  · intro condition member
    cases member
  · intro condition member
    rw [List.mem_singleton.mp member]
    exact ⟨_, rfl, place⟩

/-- A well-formed selector that has no written form, and that is not read from the text with
all its digits. -/
theorem placeBehind_unwritten :
    (placeBehind maxDigits).WellFormed ∧ (placeBehind maxDigits).toText = .error .written ∧
      parse (String.ofList (placeBehind maxDigits).render) ≠ .ok (placeBehind maxDigits) := by
  have excess : ¬(placeBehind maxDigits).isWritable = true := fun few =>
    Nat.lt_irrefl _ (isWritable_placeBehind_iff.mp few)
  refine ⟨wellFormed_placeBehind maxDigits, if_neg excess, ?_⟩
  intro read
  exact excess (isWritable_of_parse read)

end Selector

end WidgetStyle
