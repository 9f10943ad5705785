import WidgetStyle.Text.Lowercase

/-!
# Lower case of longer texts

The small form of a character does not depend on what stands around it, but for the capital
sigma.  Where a text holds none, its lower case is the beginning of the lower case of every
text that goes on from it.  That it holds none shows in its lower case being plain.
-/

namespace WidgetStyle.Text

variable {text more before : List Char}

/-- No character is a capital sigma. -/
def Sigmaless (text : List Char) : Prop :=
  ∀ character ∈ text, character.toNat ≠ 0x3a3

/-- All characters are ASCII characters. -/
def Plain (text : List Char) : Prop :=
  ∀ character ∈ text, character.toNat < 0x80

theorem lowerSingle_ne_nil (character : Char) : lowerSingle character ≠ [] := by
  unfold lowerSingle
  split
  · exact List.cons_ne_nil _ _
  · split
    · exact List.cons_ne_nil _ _
    · split <;> exact List.cons_ne_nil _ _

theorem lowerFrom_ne_nil (some : text ≠ []) : lowerFrom before text ≠ [] := by
  cases text with
  | nil => exact absurd rfl some
  | cons character text =>
      apply List.append_ne_nil_of_left_ne_nil
      split
      · split <;> exact List.cons_ne_nil _ _
      · exact lowerSingle_ne_nil character

theorem lower_eq_nil_iff : lower text = [] ↔ text = [] := by
  constructor
  · intro nothing
    exact Classical.byContradiction fun some => lowerFrom_ne_nil some nothing
  · rintro rfl
    rfl

theorem lowerFrom_append (sigmaless : Sigmaless text) (before more : List Char) :
    lowerFrom before (text ++ more) =
      lowerFrom before text ++ lowerFrom (text.reverse ++ before) more := by
  induction text generalizing before with
  | nil => rfl
  | cons character text ih =>
      obtain ⟨ordinary, later⟩ := List.forall_mem_cons.mp sigmaless
      rw [List.cons_append, lowerFrom, lowerFrom, if_neg ordinary, if_neg ordinary, ih later,
        List.reverse_cons, List.append_assoc, List.append_assoc]
      rfl

/-- Both small forms of the sigma are beyond ASCII. -/
theorem sigmaless_of_plain (plain : Plain (lowerFrom before text)) : Sigmaless text := by
  induction text generalizing before with
  | nil => exact fun _ member => nomatch member
  | cons character text ih =>
      obtain ⟨small, later⟩ := List.forall_mem_append.mp plain
      refine List.forall_mem_cons.mpr ⟨?_, ih later⟩
      intro sigma
      rw [if_pos sigma] at small
      split at small
      · exact absurd (small _ List.mem_cons_self) (by decide)
      · exact absurd (small _ List.mem_cons_self) (by decide)

/-- Lower case that is plain goes on when the text does. -/
theorem exists_lower_append (plain : Plain (lower text)) (some : more ≠ []) :
    ∃ further, further ≠ [] ∧ lower (text ++ more) = lower text ++ further :=
  ⟨_, lowerFrom_ne_nil some, lowerFrom_append (sigmaless_of_plain plain) [] more⟩

end WidgetStyle.Text
