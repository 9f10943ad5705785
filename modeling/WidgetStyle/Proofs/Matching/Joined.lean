import WidgetStyle.Matching.Selector
import WidgetStyle.Proofs.Selector.Continuation

/-!
# Selectors with one more compound

A selector goes on behind its target with a combinator and one more compound.  The longer
selector selects a node that meets the compound and has, where the combinator leads, a node
that the shorter one selects.  With the star for the compound it asks for nothing but the way,
and its text is the text of the shorter one with the sign and the star behind it.
-/

namespace WidgetStyle

/-- The compound that asks for nothing. -/
def Compound.star : Compound where
  universal := true

@[simp] theorem Compound.holdsOf_star (node : Node) : Compound.star.holdsOf node = true := by
  simp [holdsOf, star]

namespace Selector

open WidgetStyle.Text

variable {selector : Selector} {links : List Link} {text : List Char} {combinator : Combinator}

/-! ## Selecting -/

theorem extendLinks_cons (inhabited : links ≠ []) (link : Link) (combinator : Combinator)
    (compound : Compound) :
    extendLinks (link :: links) combinator compound =
      link :: extendLinks links combinator compound := by
  cases links with
  | nil => exact absurd rfl inhabited
  | cons next links => rfl

/-- Backwards, the new compound comes first, and the old target leads to it. -/
theorem reverse_extendLinks {target : Link} {before : List Link}
    (backwards : links.reverse = target :: before) (combinator : Combinator)
    (compound : Compound) :
    (extendLinks links combinator compound).reverse =
      { compound } :: { target with combinator := some combinator } :: before := by
  induction links generalizing before with
  | nil => cases backwards
  | cons link links ih =>
      by_cases further : links = []
      · subst further
        cases backwards
        rfl
      · have inhabited : links.reverse ≠ [] := by simpa using further
        obtain ⟨last, earlier, same⟩ := List.exists_cons_of_ne_nil inhabited
        rw [List.reverse_cons, same, List.cons_append, List.cons.injEq] at backwards
        obtain ⟨rfl, rfl⟩ := backwards
        rw [extendLinks_cons further, List.reverse_cons, ih same]
        rfl

theorem selects_joined (inhabited : selector.links ≠ []) (combinator : Combinator)
    (compound : Compound) (surroundings : Surroundings) (node : Node) :
    (selector.joined combinator compound).selects surroundings node =
      (compound.holdsOf node &&
        (surroundings.leftOf combinator node).any (selector.selects surroundings)) := by
  have some : selector.links.reverse ≠ [] := by simpa using inhabited
  obtain ⟨target, before, backwards⟩ := List.exists_cons_of_ne_nil some
  have shorter : selector.selects surroundings =
      matchesFrom surroundings target.compound before := by
    funext other
    simp only [selects, backwards]
  rw [selects, joined, reverse_extendLinks backwards, shorter]
  rfl

/-! ## Reading -/

theorem ReadsLinks.inhabited (reads : ReadsLinks text links) : links ≠ [] := by
  cases reads with
  | last => exact List.cons_ne_nil _ _
  | link => exact List.cons_ne_nil _ _

theorem readsLinks_star : ReadsLinks ['*'] [{ compound := Compound.star }] := by
  have read : readCompound {} ['*'] = .ok (Compound.star, []) := by
    rw [readCompound_eq]
    exact readCompound_paused paused_nil
  exact .last read rfl blank_nil

theorem paused_sign (apart : combinator ≠ .descendant) (rest : List Char) :
    Paused (combinator.sign :: rest) := by
  intro character head
  cases head
  exact .inr (by rw [combinatorOf?_sign apart]; rfl)

/-- Behind the links of a chain a combinator's sign and a star are read as one more link. -/
theorem ReadsLinks.join (reads : ReadsLinks text links) (apart : combinator ≠ .descendant) :
    ReadsLinks (text ++ [combinator.sign, '*']) (extendLinks links combinator .star) := by
  have ends : Ends isNameCharacter [combinator.sign, '*'] := (paused_sign apart _).ends
  induction reads with
  | @last text rest compound read inhabited blank =>
      have goesOn : Paused (rest ++ [combinator.sign, '*']) := by
        cases rest with
        | nil => exact paused_sign apart _
        | cons first rest =>
            exact paused_append (List.cons_ne_nil _ _) (paused_of_blank blank) _
      have on : readCompound {} (text ++ [combinator.sign, '*']) =
          .ok (compound, (rest ++ [combinator.sign]) ++ ['*']) := by
        rw [readCompound_append ends read, readCompound_paused goesOn, List.append_assoc]
        rfl
      exact .link on inhabited (.sign apart blank blank_nil) readsLinks_star
  | @link text joint following compound inner links read inhabited joins later ih =>
      have on : readCompound {} (text ++ [combinator.sign, '*']) =
          .ok (compound, joint ++ (following ++ [combinator.sign, '*'])) := by
        rw [readCompound_append ends read, List.append_assoc]
        exact readCompound_paused (paused_append joins.inhabited joins.paused _)
      rw [extendLinks_cons later.inhabited]
      exact .link on inhabited joins ih

/-- The text of a selector with a combinator's sign and a star behind it. -/
def starBehind (text : String) (combinator : Combinator) : String :=
  text ++ String.ofList [combinator.sign, '*']

theorem parse_starBehind {text : String} (accepted : parse text = .ok selector)
    (apart : combinator ≠ .descendant) :
    parse (starBehind text combinator) = .ok (selector.joined combinator .star) := by
  have reads := readSelector_eq_ok_iff.mp accepted
  obtain ⟨first, tail, begins, -⟩ := reads.exists_head
  have solid : skipBlanks text.toList ≠ [] := by
    rw [begins]
    exact List.cons_ne_nil _ _
  rw [parse, starBehind, String.toList_append, String.toList_ofList, readSelector_eq_ok_iff,
    skipBlanks_append_of_ne_nil solid]
  exact reads.join apart

theorem inhabited_of_parse {text : String} (accepted : parse text = .ok selector) :
    selector.links ≠ [] :=
  (readSelector_eq_ok_iff.mp accepted).inhabited

end Selector

end WidgetStyle
