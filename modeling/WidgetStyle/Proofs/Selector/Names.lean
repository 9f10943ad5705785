import WidgetStyle.Proofs.Outcomes
import WidgetStyle.Selector.Group

/-!
# Names in selectors

A selector that was read asks for no empty name: a sign that announces a name is a
fault where none follows.  What reading one condition can come to is said once, as a
relation; what holds of compounds, chains and groups follows from it.
-/

namespace WidgetStyle

/-- The compound asks for no empty name. -/
structure Compound.Named (compound : Compound) : Prop where
  element : compound.element ≠ some ""
  id : compound.id ≠ some ""
  classes : "" ∉ compound.classes
  attributes : ∀ condition ∈ compound.attributes, condition.name ≠ ""

namespace Selector

open WidgetStyle.Text

variable {compound : Compound} {condition : Condition} {text rest : List Char}

/-- No compound of the selector asks for an empty name. -/
def Named (selector : Selector) : Prop :=
  ∀ link ∈ selector.links, link.compound.Named

theorem Named.target {selector : Selector} (named : selector.Named)
    (target : selector.target? = some compound) : compound.Named := by
  rcases Option.map_eq_some_iff.mp target with ⟨link, last, rfl⟩
  exact named link (List.mem_of_getLast? last)

/-! ## Conditions -/

/-- What is read as one condition after the compound: the text, the condition, and
the text that is left. -/
inductive ReadsCondition (compound : Compound) : List Char → Condition → List Char → Prop where
  | universal {rest : List Char} : ReadsCondition compound ('*' :: rest) .universal rest
  | id {text rest : List Char} {name : String} :
      readName .expectedId text = .ok (name, rest) →
        ReadsCondition compound ('#' :: text) (.id name) rest
  | hasClass {text rest : List Char} {name : String} :
      readName .expectedClassName text = .ok (name, rest) →
        ReadsCondition compound ('.' :: text) (.hasClass name) rest
  | hasPseudoClass {text rest : List Char} {condition : PseudoClass} :
      readPseudoClass text = .ok (condition, rest) →
        ReadsCondition compound (':' :: text) (.hasPseudoClass condition) rest
  | hasAttribute {text rest : List Char} {condition : AttributeCondition} :
      readAttribute text = .ok (condition, rest) →
        ReadsCondition compound ('[' :: text) (.hasAttribute condition) rest
  | element {first : Char} {text : List Char} :
      isNameStart first = true → admitsElement compound = true →
        ReadsCondition compound (first :: text)
          (.element (String.ofList (first :: text.takeWhile isNameCharacter)))
          (text.dropWhile isNameCharacter)

theorem readsCondition (read : readCondition compound text = .ok (some (condition, rest))) :
    ReadsCondition compound text condition rest := by
  cases text with
  | nil => cases read
  | cons character text =>
      simp only [readCondition] at read
      split at read
      · rename_i star
        cases read
        rw [star]
        exact .universal
      · split at read
        · rename_i sign
          rcases exists_of_map_eq_ok read with ⟨⟨name, remaining⟩, named, same⟩
          cases same
          rw [sign]
          exact .id named
        · split at read
          · rename_i sign
            rcases exists_of_map_eq_ok read with ⟨⟨name, remaining⟩, named, same⟩
            cases same
            rw [sign]
            exact .hasClass named
          · split at read
            · rename_i sign
              rcases exists_of_map_eq_ok read with ⟨⟨pseudoClass, remaining⟩, named, same⟩
              cases same
              rw [sign]
              exact .hasPseudoClass named
            · split at read
              · rename_i sign
                rcases exists_of_map_eq_ok read with ⟨⟨feature, remaining⟩, named, same⟩
                cases same
                rw [sign]
                exact .hasAttribute named
              · split at read
                · rename_i starts
                  rw [Bool.and_eq_true] at starts
                  cases read
                  exact .element starts.1 starts.2
                · cases read

/-! ## Names -/

theorem name_ne_empty {missing : SelectorFault} {name : String}
    (read : readName missing text = .ok (name, rest)) : name ≠ "" := by
  rw [readName] at read
  split at read
  · cases read
  · rename_i inhabited
    cases read
    simpa using inhabited

theorem attributeName_ne_empty {feature : AttributeCondition}
    (read : readAttribute text = .ok (feature, rest)) : feature.name ≠ "" := by
  rcases exists_of_bind_eq_ok read with ⟨⟨name, afterName⟩, named, body⟩
  have inhabited := name_ne_empty named
  simp only at body
  split at body
  · cases body
    exact inhabited
  · rcases exists_of_bind_eq_ok body with ⟨⟨comparison, afterOperator⟩, -, valued⟩
    rcases exists_of_bind_eq_ok valued with ⟨⟨value, afterValue⟩, -, closed⟩
    simp only at closed
    split at closed
    · cases closed
      exact inhabited
    · cases closed

/-- A condition more that asks for no empty name. -/
theorem named_addTo (named : compound.Named) (read : ReadsCondition compound text condition rest) :
    (condition.addTo compound).Named := by
  cases read with
  | universal => exact ⟨named.element, named.id, named.classes, named.attributes⟩
  | id found =>
      refine ⟨named.element, ?_, named.classes, named.attributes⟩
      simp [Condition.addTo, name_ne_empty found]
  | hasClass found =>
      refine ⟨named.element, named.id, ?_, named.attributes⟩
      simp [Condition.addTo, named.classes, (name_ne_empty found).symm]
  | hasPseudoClass found => exact ⟨named.element, named.id, named.classes, named.attributes⟩
  | hasAttribute found =>
      refine ⟨named.element, named.id, named.classes, ?_⟩
      intro other member
      rcases List.mem_append.mp member with before | last
      · exact named.attributes other before
      · rw [List.mem_singleton.mp last]
        exact attributeName_ne_empty found
  | element starts admits =>
      refine ⟨?_, named.id, named.classes, named.attributes⟩
      simp [Condition.addTo]

theorem named_of_readCompound {result : Compound} (named : compound.Named)
    (read : readCompound compound text = .ok (result, rest)) : result.Named := by
  fun_induction readCompound compound text with
  | case1 compound text fault next => cases read
  | case2 compound text next =>
      cases read
      exact named
  | case3 compound text condition remaining next ih =>
      exact ih (named_addTo named (readsCondition next)) read

/-! ## Chains and groups -/

theorem named_cons {link : Link} {links : List Link} :
    Named ⟨link :: links⟩ ↔ link.compound.Named ∧ Named ⟨links⟩ := by
  simp [Named]

theorem stopAtMissing_ne_ok {Value : Type} (afterCombinator : Bool) (value : Value) :
    stopAtMissing afterCombinator text ≠ .ok value := by
  cases text with
  | nil => simp [stopAtMissing, stop]
  | cons character text => cases afterCombinator <;> simp [stopAtMissing, stop]

theorem named_of_readLinks {afterCombinator : Bool} {links : List Link}
    (read : readLinks afterCombinator text = .ok links) : Named ⟨links⟩ := by
  have blank : Compound.Named {} := by constructor <;> simp
  fun_induction readLinks afterCombinator text generalizing links with
  | case1 => cases read
  | case2 => exact absurd read (stopAtMissing_ne_ok _ links)
  | case3 _ _ compound _ first =>
      cases read
      simp [Named, named_of_readCompound blank first]
  | case4 => cases read
  | case5 _ _ compound _ first =>
      rename_i further
      rcases exists_of_map_eq_ok read with ⟨later, next, rfl⟩
      exact named_cons.mpr ⟨named_of_readCompound blank first, further next⟩
  | case6 _ _ compound _ first =>
      rename_i further
      rcases exists_of_map_eq_ok read with ⟨later, next, rfl⟩
      exact named_cons.mpr ⟨named_of_readCompound blank first, further next⟩
  | case7 => cases read

theorem named_of_readSelector {selector : Selector} (read : readSelector text = .ok selector) :
    selector.Named := by
  simp only [readSelector] at read
  split at read
  · rename_i links found
    cases read
    split at found
    · cases found
    · exact named_of_readLinks found
  · cases read
  · cases read

theorem named_of_mem_readSegments {offset : Nat} {segments : List (List Char)}
    {group : List Selector} (read : readSegments offset segments = .ok group)
    {selector : Selector} (member : selector ∈ group) : selector.Named := by
  induction segments generalizing offset group with
  | nil =>
      cases read
      cases member
  | cons segment others ih =>
      simp only [readSegments] at read
      split at read
      · exact ih read member
      · split at read
        · cases read
        · rename_i first found
          rcases exists_of_map_eq_ok read with ⟨later, rest, rfl⟩
          rcases List.mem_cons.mp member with rfl | among
          · exact named_of_readSelector found
          · exact ih rest among

/-- No selector of a group that was read asks for an empty name. -/
theorem named_of_mem_parseGroup {text : String} {group : List Selector}
    (read : parseGroup text = .ok group) {selector : Selector} (member : selector ∈ group) :
    selector.Named :=
  named_of_mem_readSegments read member

end Selector

end WidgetStyle
