import WidgetStyle.Proofs.Matching.Single
import WidgetStyle.Proofs.Selector.Appending

/-!
# Conditions that narrow

A node meets a compound with more conditions behind it when it meets the compound and the
conditions, unless an id takes the place of another one.  So a condition written right behind
an accepted compound narrows it, but for an id behind an id of another name, of which the
first one is forgotten.
-/

namespace WidgetStyle

/-- Where no id is forgotten, all conditions of both compounds are asked for. -/
theorem Compound.holdsOf_followedBy {compound added : Compound} (nameless : added.element = none)
    (kept : ∀ name ∈ compound.id, ∀ other ∈ added.id, name = other) (node : Node) :
    (compound.followedBy added).holdsOf node = true ↔
      compound.holdsOf node = true ∧ added.holdsOf node = true := by
  have ids : (added.id.or compound.id).all (fun name => node.identity.elementId == some name) =
      (compound.id.all (fun name => node.identity.elementId == some name) &&
        added.id.all (fun name => node.identity.elementId == some name)) := by
    cases own : compound.id with
    | none => simp
    | some name =>
        cases later : added.id with
        | none => simp
        | some other =>
            rw [kept name own other later]
            simp
  simp only [holdsOf, followedBy, nameless, ids, Option.none_or, Option.all_none, List.all_append,
    Bool.and_eq_true]
  tauto

theorem Compound.elementId_of_holdsOf {compound : Compound} {name : String}
    (named : compound.id = some name) {node : Node} (holds : compound.holdsOf node = true) :
    node.identity.elementId = some name := by
  simp only [holdsOf, named, Option.all_some, Bool.and_eq_true, beq_iff_eq] at holds
  exact holds.1.1.1.2

namespace Selector

open WidgetStyle.Text

/-- Conditions right behind an accepted compound narrow it exactly if no id takes the place of
one of another name, or nothing at all is selected. -/
theorem selects_appended_imp_iff {text more : String} {compound added whole : Compound}
    (accepted : parse text = .ok (ofCompound compound)) (solid : EndsSolid text.toList)
    (acceptedMore : parse more = .ok (ofCompound added)) (nameless : added.element = none)
    (together : parse (text ++ more) = .ok (ofCompound whole)) :
    (∀ surroundings node, (ofCompound whole).selects surroundings node = true →
        (ofCompound compound).selects surroundings node = true ∧
          (ofCompound added).selects surroundings node = true) ↔
      ∀ name ∈ compound.id, ∀ other ∈ added.id, name ≠ other →
        ∀ surroundings node, (ofCompound whole).selects surroundings node = false := by
  rw [eq_followedBy_of_parse accepted solid acceptedMore nameless together]
  simp only [selects_ofCompound]
  constructor
  · intro narrows name own other later differ surroundings node
    rw [Bool.eq_false_iff]
    intro holds
    obtain ⟨first, second⟩ := narrows surroundings node holds
    have named := Compound.elementId_of_holdsOf own first
    rw [Compound.elementId_of_holdsOf later second] at named
    exact differ (Option.some.inj named).symm
  · intro forgets surroundings node holds
    refine (Compound.holdsOf_followedBy nameless ?_ node).mp holds
    intro name own other later
    by_contra differ
    rw [forgets name own other later differ surroundings node] at holds
    cases holds

/-- A button with an id, while it is disabled. -/
def disabledGo : Compound :=
  { element := some "Button", id := some "go", attributes := [⟨"disabled", .present⟩] }

theorem disabledGo_narrows :
    parse "Button#go" = .ok (ofCompound { element := some "Button", id := some "go" }) ∧
      EndsSolid "Button#go".toList ∧
      parse "[disabled]" = .ok (ofCompound { attributes := [⟨"disabled", .present⟩] }) ∧
      parse ("Button#go" ++ "[disabled]") = .ok (ofCompound disabledGo) ∧
      ∀ surroundings node, (ofCompound disabledGo).selects surroundings node = true →
        (ofCompound { element := some "Button", id := some "go" }).selects surroundings node =
            true ∧
          (ofCompound { attributes := [⟨"disabled", .present⟩] }).selects surroundings node =
            true := by
  have accepted : parse "Button#go" =
      .ok (ofCompound { element := some "Button", id := some "go" }) := by decide +kernel
  have solid : EndsSolid "Button#go".toList := by decide
  have acceptedMore : parse "[disabled]" =
      .ok (ofCompound { attributes := [⟨"disabled", .present⟩] }) := by decide +kernel
  have together : parse ("Button#go" ++ "[disabled]") = .ok (ofCompound disabledGo) := by
    decide +kernel
  have narrows := selects_appended_imp_iff accepted solid acceptedMore rfl together
  exact ⟨accepted, solid, acceptedMore, together, narrows.mpr fun _ _ _ none => nomatch none⟩

/-- Of two ids the first one is forgotten, and nodes are selected that it does not name. -/
theorem secondId_widens :
    parse "#a" = .ok (ofId "a") ∧ EndsSolid "#a".toList ∧ parse "#b" = .ok (ofId "b") ∧
      parse ("#a" ++ "#b") = .ok (ofId "b") ∧
      ∃ node : Node, ∀ surroundings, (ofId "b").selects surroundings node = true ∧
        (ofId "a").selects surroundings node = false := by
  refine ⟨by decide +kernel, by decide, by decide +kernel, by decide +kernel, ?_⟩
  let second : Node := { id := ⟨1⟩, identity := { elementId := some "b" } }
  refine ⟨second, fun surroundings => ⟨?_, ?_⟩⟩
  · rw [ofId, selects_ofCompound]
    decide
  · rw [ofId, selects_ofCompound]
    decide

end Selector

end WidgetStyle
