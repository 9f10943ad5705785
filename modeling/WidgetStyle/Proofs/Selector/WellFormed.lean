import WidgetStyle.Proofs.Text.Blanks
import WidgetStyle.Selector.Reader
import WidgetStyle.Selector.Render

/-!
# Well-formed selectors

A selector is well-formed when every part of it can be written down: names are names,
no compound is empty, comparisons have a text that fits between double quotes, places
count from one, and exactly the last link lacks a combinator.  Such a selector may be
written with blanks of any kind and number around its signs, between the compounds
that only blanks join, and at both ends.
-/

namespace WidgetStyle

open WidgetStyle.Text WidgetStyle.Selector

/-! ## Parts -/

/-- A non-empty text of name characters. -/
structure IsName (text : List Char) : Prop where
  inhabited : text ≠ []
  characters : ∀ character ∈ text, isNameCharacter character = true

instance (text : List Char) : Decidable (IsName text) :=
  decidable_of_iff (text ≠ [] ∧ text.all isNameCharacter = true)
    ⟨fun ⟨inhabited, characters⟩ => ⟨inhabited, List.all_eq_true.mp characters⟩,
      fun isName => ⟨isName.inhabited, List.all_eq_true.mpr isName.characters⟩⟩

/-- The pseudo-class has the argument that it needs. -/
def PseudoClass.WellFormed : PseudoClass → Prop
  | state _ => True
  | nthChild place | nthLastChild place => ∃ number ∈ place, 1 ≤ number
  | negation inner => inner.WellFormed
  | negationOfNothing => False

instance PseudoClass.decidableWellFormed :
    (condition : PseudoClass) → Decidable condition.WellFormed
  | state _ => .isTrue trivial
  | nthChild place | nthLastChild place =>
      inferInstanceAs (Decidable (∃ number ∈ place, 1 ≤ number))
  | negation inner => inner.decidableWellFormed
  | negationOfNothing => .isFalse id

/-- A comparison has a text, which stands between double quotes as it is. -/
def AttributeTest.WellFormed : AttributeTest → Prop
  | present => True
  | compare _ value _ => ∃ text ∈ value, '"' ∉ text.toList

instance : (test : AttributeTest) → Decidable test.WellFormed
  | .present => .isTrue trivial
  | .compare _ value _ => inferInstanceAs (Decidable (∃ text ∈ value, '"' ∉ text.toList))

structure AttributeCondition.WellFormed (condition : AttributeCondition) : Prop where
  name : IsName condition.name.toList
  test : condition.test.WellFormed

instance (condition : AttributeCondition) : Decidable condition.WellFormed :=
  decidable_of_iff (IsName condition.name.toList ∧ condition.test.WellFormed)
    ⟨fun ⟨name, test⟩ => ⟨name, test⟩, fun wellFormed => ⟨wellFormed.name, wellFormed.test⟩⟩

structure Compound.WellFormed (compound : Compound) : Prop where
  inhabited : compound.isEmpty = false
  element : ∀ name ∈ compound.element,
    IsName name.toList ∧ name.toList.head?.any isNameStart = true
  single : compound.universal = true → compound.element = none
  id : ∀ name ∈ compound.id, IsName name.toList
  classes : ∀ name ∈ compound.classes, IsName name.toList
  attributes : ∀ condition ∈ compound.attributes, condition.WellFormed
  pseudoClasses : ∀ condition ∈ compound.pseudoClasses, condition.WellFormed

instance (compound : Compound) : Decidable compound.WellFormed :=
  decidable_of_iff
    (compound.isEmpty = false ∧
      (∀ name ∈ compound.element,
        IsName name.toList ∧ name.toList.head?.any isNameStart = true) ∧
      (compound.universal = true → compound.element = none) ∧
      (∀ name ∈ compound.id, IsName name.toList) ∧
      (∀ name ∈ compound.classes, IsName name.toList) ∧
      (∀ condition ∈ compound.attributes, condition.WellFormed) ∧
      ∀ condition ∈ compound.pseudoClasses, condition.WellFormed)
    ⟨fun ⟨inhabited, element, single, id, classes, attributes, pseudoClasses⟩ =>
        ⟨inhabited, element, single, id, classes, attributes, pseudoClasses⟩,
      fun wellFormed => ⟨wellFormed.inhabited, wellFormed.element, wellFormed.single,
        wellFormed.id, wellFormed.classes, wellFormed.attributes, wellFormed.pseudoClasses⟩⟩

namespace Selector

/-! ## Chains -/

/-- Well-formed compounds, each of which but the last has a combinator. -/
inductive Chain : List Link → Prop where
  | last {compound : Compound} : compound.WellFormed → Chain [{ compound }]
  | link {compound : Compound} {combinator : Combinator} {links : List Link} :
      compound.WellFormed → Chain links →
        Chain ({ compound, combinator := some combinator } :: links)

instance Chain.decidable : (links : List Link) → Decidable (Chain links)
  | [] => .isFalse (by rintro ⟨⟩)
  | [⟨compound, none⟩] =>
      decidable_of_iff compound.WellFormed ⟨.last, fun | .last wellFormed => wellFormed⟩
  | ⟨_, none⟩ :: _ :: _ => .isFalse (by rintro ⟨⟩)
  | ⟨compound, some _⟩ :: links =>
      have := Chain.decidable links
      decidable_of_iff (compound.WellFormed ∧ Chain links)
        ⟨fun ⟨wellFormed, chain⟩ => .link wellFormed chain,
          fun | .link wellFormed chain => ⟨wellFormed, chain⟩⟩

def WellFormed (selector : Selector) : Prop :=
  Chain selector.links

instance (selector : Selector) : Decidable selector.WellFormed :=
  Chain.decidable selector.links

/-! ## Spacing -/

/-- How a combinator may be written: the descendant one as blanks alone, at least one of
them, and any other as its sign with blanks or none on either side. -/
inductive Joint : Combinator → List Char → Prop where
  | blanks {blanks : List Char} : Blank blanks → blanks ≠ [] → Joint .descendant blanks
  | sign {combinator : Combinator} {before after : List Char} :
      combinator ≠ .descendant → Blank before → Blank after →
        Joint combinator (before ++ combinator.sign :: after)

/-- The texts in which the links may be written after blanks at the start: the compounds
as they are, any joints between them, and any blanks at the end. -/
inductive Spaced : List Link → List Char → Prop where
  | last {compound : Compound} {blanks : List Char} :
      Blank blanks → Spaced [{ compound }] (compound.render ++ blanks)
  | link {compound : Compound} {combinator : Combinator} {links : List Link}
      {joint text : List Char} :
      Joint combinator joint → Spaced links text →
        Spaced ({ compound, combinator := some combinator } :: links)
          (compound.render ++ joint ++ text)

theorem joint_render (combinator : Combinator) : Joint combinator combinator.render := by
  have space : Blank [' '] := by
    intro character member
    rw [List.mem_singleton.mp member]
    rfl
  cases combinator with
  | descendant => exact .blanks space (List.cons_ne_nil _ _)
  | _ => exact .sign (by decide) space space

/-- The written form of a well-formed selector is among these texts. -/
theorem Chain.spaced_render {links : List Link} (chain : Chain links) :
    Spaced links (links.flatMap Link.render) := by
  induction chain with
  | @last compound _ =>
      have spaced := @Spaced.last compound [] (fun _ member => by cases member)
      simpa [Link.render] using spaced
  | @link compound combinator links _ _ ih =>
      have spaced := @Spaced.link compound combinator links _ _ (joint_render combinator) ih
      simpa [Link.render] using spaced

end Selector

end WidgetStyle
