import WidgetStyle.Proofs.History.Registration
import WidgetStyle.Proofs.History.Shape
import WidgetStyle.Proofs.StyledTree.Correspondence
import WidgetStyle.Proofs.StyledTree.Unchanged

/-!
# The child that is chosen for a widget

A widget asks for a child of the node that stands for the widget around it: for the one
with its element id, or for the one in its place when neither has an element id.  A child
that is asked for can be reused when it is of the widget's type.  As long as no two
widgets share an element id, no two of them ask for one child.
-/

namespace WidgetStyle

namespace Tree

variable {start before after tree : Tree} {parent top id child : NodeId} {place : Nat}
  {identity : Identity}

/-- All that holds of a tree between two changes. -/
structure Orderly (tree : Tree) : Prop extends tree.Proper, tree.Registered where
  issued : ∀ id, tree.contains id = true → id.value < tree.nextId.value

theorem Orderly.wellFormed (orderly : tree.Orderly) : tree.WellFormed :=
  orderly.toProper.wellFormed orderly.issued

/-- Every history leads to an orderly tree. -/
theorem orderly_replay (first : NodeId) {changes : List TreeChange}
    (once : ∀ change ∈ changes, change.ListsClassesOnce) :
    (TreeChange.replay { nextId := first } changes).Orderly := by
  have empty := wellFormed_empty first
  have formed := TreeChange.wellFormed_replay empty changes
  exact ⟨formed.proper, TreeChange.registered_replay_of empty (registered_empty first) once,
    fun _ known => formed.beforeNext known⟩

/-! ## Children to reuse -/

/-- The child is the one that a widget asks for: the child with its element id, or the child
in its place when neither has an element id. -/
def AsksFor (tree : Tree) (parent : NodeId) (place : Nat) (identity : Identity)
    (child : NodeId) : Prop :=
  ∃ own, tree.identityOf? child = some own ∧ own.elementId = identity.elementId ∧
    match identity.elementId with
    | some _ => child ∈ tree.childrenOf parent
    | none => (tree.childrenOf parent)[place]? = some child

/-- The child is the one that the widget asks for, and of its type. -/
def Reusable (tree : Tree) (parent : NodeId) (place : Nat) (identity : Identity)
    (child : NodeId) : Prop :=
  tree.AsksFor parent place identity child ∧
    ∃ own, tree.identityOf? child = some own ∧ own.widgetType = identity.widgetType

/-- The child can be reused for the widget, or no child can and this one is new. -/
def Chosen (tree : Tree) (parent : NodeId) (place : Nat) (identity : Identity)
    (child : NodeId) : Prop :=
  tree.Reusable parent place identity child ∨
    (∀ other, ¬tree.Reusable parent place identity other) ∧ tree.nextId.value ≤ child.value

/-- Siblings with distinct element ids are apart. -/
theorem pairwise_apart_of_nodup
    (distinct : ∀ node ∈ tree.nodes,
      ((node.children.filterMap tree.get?).filterMap (·.identity.elementId)).Nodup) (id : NodeId) :
    (tree.childrenOf id).Pairwise tree.Apart := by
  cases found : tree.get? id with
  | none =>
      rw [childrenOf_eq_nil found]
      exact .nil
  | some node =>
      have names := distinct node (mem_of_get? found)
      rw [List.filterMap_filterMap, List.Nodup, List.pairwise_filterMap] at names
      rw [childrenOf_of_get? found]
      refine names.imp ?_
      intro left right differ name leftNode rightNode leftFound rightFound leftNamed rightNamed
      exact differ name (by rw [leftFound, Option.bind_some, leftNamed]) name
        (by rw [rightFound, Option.bind_some, rightNamed]) rfl

theorem AsksFor.mem_childrenOf (asks : tree.AsksFor parent place identity child) :
    child ∈ tree.childrenOf parent := by
  obtain ⟨own, -, -, listed⟩ := asks
  split at listed
  · exact listed
  · exact List.mem_of_getElem? listed

theorem identityOf?_of_core?_eq (same : after.core? id = before.core? id) :
    after.identityOf? id = before.identityOf? id := by
  have identities := congrArg (Option.map (·.identity)) same
  rwa [core?, core?, Option.map_map, Option.map_map] at identities

theorem SameAt.identityOf?_eq (same : start.SameAt tree id) :
    tree.identityOf? id = start.identityOf? id :=
  identityOf?_of_core?_eq same.core

/-- Two widgets that ask for one child are in one place or share an element id. -/
theorem AsksFor.not_both {other : Nat} {another : Identity}
    (distinct : (tree.childrenOf parent).Nodup)
    (first : tree.AsksFor parent place identity child)
    (second : tree.AsksFor parent other another child) (places : place ≠ other)
    (apart : ∀ name, identity.elementId = some name → another.elementId ≠ some name) : False := by
  obtain ⟨own, found, named, listed⟩ := first
  obtain ⟨again, foundAgain, namedAgain, listedAgain⟩ := second
  rw [found] at foundAgain
  cases foundAgain
  rw [named] at namedAgain
  cases asked : identity.elementId with
  | some name => exact apart name asked (namedAgain.symm.trans asked)
  | none =>
      rw [← namedAgain, asked] at listedAgain
      rw [asked] at listed
      simp only at listed listedAgain
      apply places
      exact (List.getElem?_inj (List.getElem?_eq_some_iff.mp listed).1 distinct).mp
        (listed.trans listedAgain.symm)

/-! ## Going down a tree and a view -/

/-- Going down from a node and a widget side by side leads to the node and the widget. -/
inductive StandsFor (tree : Tree) (top : NodeId) (view : View) : NodeId → View → Prop where
  | top : StandsFor tree top view top view
  | child {id lower : NodeId} {shown inner : View} {place : Nat} :
      StandsFor tree top view id shown → (tree.childrenOf id)[place]? = some lower →
        shown.children[place]? = some inner → StandsFor tree top view lower inner

/-- Where a former node stands for a widget, its children are chosen for the widgets inside. -/
def Reuses (start tree : Tree) (top : NodeId) (view : View) : Prop :=
  ∀ id shown, tree.StandsFor top view id shown → start.contains id = true →
    ∀ place child inner, (tree.childrenOf id)[place]? = some child →
      shown.children[place]? = some inner → start.Chosen id place inner.identity child

namespace StandsFor

variable {view shown : View}

theorem under (stands : tree.StandsFor top view id shown) (linked : tree.Linked) :
    tree.Below top id := by
  induction stands with
  | top => exact .top
  | child _ listed _ ih => exact .child (linked.childOf.mp (List.mem_of_getElem? listed)) ih

theorem cases_top (stands : tree.StandsFor top view id shown) :
    id = top ∧ shown = view ∨ ∃ (place : Nat) (child : NodeId) (inner : View),
      (tree.childrenOf top)[place]? = some child ∧ view.children[place]? = some inner ∧
        tree.StandsFor child inner id shown := by
  induction stands with
  | top => exact .inl ⟨rfl, rfl⟩
  | @child id lower shown inner place _ listed inside ih =>
      rcases ih with ⟨rfl, rfl⟩ | ⟨first, child, outer, firstListed, firstInside, onwards⟩
      · exact .inr ⟨place, lower, inner, listed, inside, .top⟩
      · exact .inr ⟨first, child, outer, firstListed, firstInside, .child onwards listed inside⟩

theorem mirrors (stands : tree.StandsFor top view id shown) (mirrored : tree.Mirrors top view) :
    tree.Mirrors id shown := by
  induction stands with
  | top => exact mirrored
  | @child _ _ shown _ _ _ listed inside ih =>
      rcases shown with ⟨identity, children⟩
      cases ih with
      | widget _ _ below => exact below.mirrors_of_getElem? listed inside

/-- Every node of a tree that mirrors a view stands for a widget of the view. -/
theorem exists_of_below (linked : tree.Linked) (mirrored : tree.Mirrors top view)
    (below : tree.Below top id) : ∃ shown, tree.StandsFor top view id shown := by
  induction below with
  | top => exact ⟨view, .top⟩
  | child link _ ih =>
      obtain ⟨⟨identity, children⟩, stands⟩ := ih
      obtain ⟨place, listed⟩ := List.mem_iff_getElem?.mp (linked.childOf.mpr link)
      cases stands.mirrors mirrored with
      | widget _ _ lower =>
          obtain ⟨inner, inside, -⟩ := lower.at listed
          exact ⟨inner, stands.child listed inside⟩

/-- Every widget inside a widget that a node stands for has a child that stands for it. -/
theorem exists_child (stands : tree.StandsFor top view id shown)
    (mirrored : tree.Mirrors top view) {inner : View} {place : Nat}
    (inside : shown.children[place]? = some inner) :
    ∃ child, (tree.childrenOf id)[place]? = some child := by
  rcases shown with ⟨identity, children⟩
  have lengths := (stands.mirrors mirrored).length_childrenOf
  have bound := (List.getElem?_eq_some_iff.mp inside).1
  exact ⟨_, List.getElem?_eq_getElem (lengths ▸ bound)⟩

/-- Where nothing is touched, nodes stand for what they stood for. -/
theorem outside {Touched : NodeId → Prop} (confined : Confined before after Touched)
    (linked : before.Linked) (known : before.contains top = true)
    (apart : ∀ id, before.Below top id → ¬Touched id)
    (stands : after.StandsFor top view id shown) :
    before.StandsFor top view id shown ∧ before.contains id = true := by
  induction stands with
  | top => exact ⟨.top, known⟩
  | child _ listed inside ih =>
      rw [confined.children ih.2 (apart _ (ih.1.under linked))] at listed
      exact ⟨.child ih.1 listed inside, linked.contains_child (List.mem_of_getElem? listed)⟩

end StandsFor

theorem Reuses.outside {view : View} {Touched : NodeId → Prop}
    (reuses : start.Reuses before top view) (confined : Confined before after Touched)
    (linked : before.Linked) (known : before.contains top = true)
    (apart : ∀ id, before.Below top id → ¬Touched id) : start.Reuses after top view := by
  intro id shown stands former place child inner listed inside
  obtain ⟨stood, present⟩ := stands.outside confined linked known apart
  rw [confined.children present (apart id (stood.under linked))] at listed
  exact reuses id shown stood former place child inner listed inside

end Tree

end WidgetStyle
