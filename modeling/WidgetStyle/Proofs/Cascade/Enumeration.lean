import WidgetStyle.Proofs.Cascade.Agreement

/-!
# Classes in any order

The classes of a node are a set, and whoever goes through a set meets its members in some
order.  The index of selectors goes through the classes of the node to be styled, and a
condition on the class attribute through those of any node that matching meets.  In which
order they come shows in the order in which selectors are tried, and among selectors of the
same rank in the order of the matches.  It does not show in the ranks and rules of the
matches, and so not in the style.
-/

namespace WidgetStyle

namespace Node

/-- The node with its classes listed as given. -/
def listing (node : Node) (classes : List String) : Node :=
  { node with identity := { node.identity with classes } }

/-- The same node, whose classes are listed in some order. -/
def Relisted (left right : Node) : Prop :=
  ∃ classes, left.identity.classes.Perm classes ∧ right = left.listing classes

theorem Relisted.like {left right : Node} (relisted : left.Relisted right) :
    left.Like right := by
  obtain ⟨classes, perm, rfl⟩ := relisted
  exact ⟨rfl, rfl, perm, fun _ _ => rfl, rfl⟩

end Node

namespace Surroundings

variable {left right : NodeId → Option Node}

/-- The node looked up under an id, if there is an id. -/
theorem bind_relisted (lookups : ∀ id, Option.Rel Node.Relisted (left id) (right id))
    (id : Option NodeId) : Option.Rel Node.Relisted (id.bind left) (id.bind right) := by
  cases id with
  | none => exact .none
  | some id => exact lookups id

/-- Lookups that answer with the same nodes lead from the same nodes to the same nodes. -/
theorem leadsAlike_relisted (lookups : ∀ id, Option.Rel Node.Relisted (left id) (right id))
    (reach : Nat) : LeadsAlike (ofLookup left reach) (ofLookup right reach) Node.Relisted := by
  refine leadsAlike_of_steps rfl ?_ ?_
  · rintro node _ ⟨classes, -, rfl⟩
    exact bind_relisted lookups node.parent
  · rintro node _ ⟨classes, -, rfl⟩
    have parents := bind_relisted lookups node.parent
    simp only [ofLookup, Node.listing]
    generalize node.parent.bind left = one, node.parent.bind right = other at parents
    cases parents with
    | none => exact .none
    | some same =>
        obtain ⟨_, -, rfl⟩ := same
        simp only [Node.listing]
        split
        · exact .none
        · exact bind_relisted lookups _

end Surroundings

namespace Cascade

/-- However the classes of a node and of all nodes that a lookup answers with are listed, the
node is matched by the same rules at the same ranks in the same order, and it has the same
style below any parent.  Where matching or styling fails, both fail alike. -/
theorem relisted_matched_and_styled (cascade : Cascade) {left right : NodeId → Option Node}
    {first second : Node} (relisted : first.Relisted second)
    (lookups : ∀ id, Option.Rel Node.Relisted (left id) (right id)) (reach : Nat)
    (parentStyle : Option Style) :
    cascade.rankedMatches (.ofLookup left reach) first =
        cascade.rankedMatches (.ofLookup right reach) second ∧
      cascade.styleBelow parentStyle (.ofLookup left reach) first =
        cascade.styleBelow parentStyle (.ofLookup right reach) second := by
  have leads := Surroundings.leadsAlike_relisted lookups reach
  have selected : ∀ selector : Selector, selector.selects (.ofLookup left reach) first =
      selector.selects (.ofLookup right reach) second := fun selector =>
    Selector.selects_eq_of_agrees leads selector
      (fun same link _ => link.compound.holdsOf_eq same.like) relisted
  have matched := cascade.rankedMatches_eq_of_selects relisted.like selected
  have inlineStyles : first.inlineStyle = second.inlineStyle := by
    obtain ⟨classes, -, rfl⟩ := relisted
    rfl
  exact ⟨matched, styleFrom_eq_of_ranked matched inlineStyles _⟩

/-- A rule of two selectors of one rank, and a rule for texts of classes. -/
def badges : Sheet where
  rules :=
    [ { selector := ".row .new, .wide .hot"
        declarations := [{ property := "gap", value := "2" }] },
      { selector := "[class='hot new']"
        declarations := [{ property := "opacity", value := "0.5" }] } ]

/-- A badge in a row with its classes in the given order. -/
def badge (classes : List String) : Node where
  id := ⟨2⟩
  identity := { classes }
  placement := .ofIndex 0 1
  parent := some ⟨1⟩

/-- The row and its badge by their ids, with the classes of both in the given orders. -/
def badgeRow (row classes : List String) (id : NodeId) : Option Node :=
  if id = ⟨1⟩ then some { id := ⟨1⟩, identity := { classes := row }, children := [⟨2⟩] }
  else if id = ⟨2⟩ then some (badge classes)
  else none

/-- The two selectors of the first rule are tried in either order, which makes no difference
to the rules that match and to the style. -/
theorem badges_relisted :
    (badge ["new", "hot"]).Relisted (badge ["hot", "new"]) ∧
      (ofSheet badges {}).set.map (·.index.positionsFor (badge ["new", "hot"]).identity) =
        .ok [2, 0, 1] ∧
      (ofSheet badges {}).set.map (·.index.positionsFor (badge ["hot", "new"]).identity) =
        .ok [2, 1, 0] ∧
      (ofSheet badges {}).rankedMatches (.ofLookup (badgeRow ["row", "wide"] ["new", "hot"]) 2)
          (badge ["new", "hot"]) =
        (ofSheet badges {}).rankedMatches (.ofLookup (badgeRow ["wide", "row"] ["hot", "new"]) 2)
          (badge ["hot", "new"]) ∧
      (ofSheet badges {}).styleBelow none
          (.ofLookup (badgeRow ["row", "wide"] ["new", "hot"]) 2) (badge ["new", "hot"]) =
        (ofSheet badges {}).styleBelow none
          (.ofLookup (badgeRow ["wide", "row"] ["hot", "new"]) 2) (badge ["hot", "new"]) := by
  have relisted : (badge ["new", "hot"]).Relisted (badge ["hot", "new"]) :=
    ⟨_, .swap _ _ _, rfl⟩
  have lookups : ∀ id, Option.Rel Node.Relisted (badgeRow ["row", "wide"] ["new", "hot"] id)
      (badgeRow ["wide", "row"] ["hot", "new"] id) := by
    intro id
    rw [badgeRow, badgeRow]
    split
    · exact .some ⟨_, .swap _ _ _, rfl⟩
    · split
      · exact .some relisted
      · exact .none
  exact ⟨relisted, by decide +kernel, by decide +kernel,
    (ofSheet badges {}).relisted_matched_and_styled relisted lookups 2 none⟩

end Cascade

end WidgetStyle
