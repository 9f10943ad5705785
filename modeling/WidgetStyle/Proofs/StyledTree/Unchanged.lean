import Mathlib.Data.List.Pairwise
import WidgetStyle.Proofs.StyledTree.Reconciliation

/-!
# Rebuilding without a change

A view that the tree mirrors already asks for nothing.  As long as no two siblings of the view
share an element id, every view finds the very child that mirrors it, by its element id or by its
place, and the child is of its type and has its classes.  So no node is made, renamed, moved or
removed, and putting children in the places that they have marks none of them.  The styled tree
stays as it is, with its marks, its cache and the id that is handed out next.
-/

namespace WidgetStyle

namespace Identity

theorem sameNames_iff {left right : List String} :
    sameNames left right = true ↔ ∀ name, name ∈ left ↔ name ∈ right := by
  constructor
  · exact mem_iff_of_sameNames
  · intro same
    simp only [sameNames, Bool.and_eq_true, List.all_eq_true, List.contains_iff_mem]
    exact ⟨fun name => (same name).mp, fun name => (same name).mpr⟩

end Identity

namespace View

/-- The two widgets do not share an element id. -/
def Apart (left right : View) : Prop :=
  ∀ name, left.identity.elementId = some name → right.identity.elementId ≠ some name

mutual

/-- Of siblings that have element ids no two have the same one. -/
def SiblingsApart : View → Prop
  | widget _ children => children.Pairwise Apart ∧ AllSiblingsApart children

/-- Among what is inside any of the widgets no two siblings share an element id. -/
def AllSiblingsApart : List View → Prop
  | [] => True
  | view :: rest => view.SiblingsApart ∧ AllSiblingsApart rest

end

end View

namespace Tree

variable {tree : Tree} {parent id : NodeId}

/-! ## Putting children where they are -/

theorem Linked.modify_eq_self (linked : tree.Linked) {node : Node}
    (found : tree.get? id = some node) {change : Node → Node} (same : change node = node) :
    tree.modify id change = tree := by
  have kept (other : Node) (member : other ∈ tree.nodes) :
      (if other.id = id then change other else other) = other := by
    split
    · rename_i named
      have lookup := get?_of_mem linked.distinct member
      rw [named, found, Option.some.injEq] at lookup
      rw [← lookup, same]
    · rfl
  rw [modify, List.map_congr_left kept, List.map_id']

theorem foldl_eq_self {Item : Type} {step : Tree → Item → Tree} {items : List Item}
    (idle : ∀ item ∈ items, step tree item = tree) : items.foldl step tree = tree := by
  induction items with
  | nil => rfl
  | cons item later ih =>
      rw [List.foldl_cons, idle item List.mem_cons_self]
      exact ih fun other member => idle other (List.mem_cons_of_mem _ member)

theorem WellFormed.placeChildren_eq (formed : tree.WellFormed) (parent : NodeId) :
    tree.placeChildren parent = tree := by
  apply foldl_eq_self
  intro entry member
  have listed := List.mem_zipIdx_iff_getElem?.mp member
  rw [placeChild]
  cases found : tree.get? entry.1 with
  | none => rfl
  | some child =>
      have placed := formed.placed listed found
      have index : child.placement.index = entry.2 := by rw [placed, Placement.ofIndex]
      have total : child.placement.total = (tree.childrenOf parent).length := by
        rw [placed, Placement.ofIndex]
      simp only [index, total, and_self, if_true]
      exact formed.toLinked.modify_eq_self found (by rw [← placed])

theorem WellFormed.permuteChildren_childrenOf (formed : tree.WellFormed)
    (known : tree.contains parent = true) :
    tree.permuteChildren parent (tree.childrenOf parent) = .ok tree := by
  rcases contains_iff.mp known with ⟨node, found⟩
  have same : tree.reordered parent (tree.childrenOf parent) = tree := by
    apply formed.toLinked.modify_eq_self found
    simp [childrenOf, found]
  rw [permuteChildren_eq_ok_iff]
  refine ⟨known, .refl _, ?_⟩
  rw [same, formed.placeChildren_eq]

/-! ## Siblings that mirror views -/

theorem Mirrors.exists_agrees {view : View} (mirrors : tree.Mirrors id view) :
    ∃ node, tree.get? id = some node ∧ node.identity.Agrees view.identity ∧
      tree.MirrorsAll (tree.childrenOf id) view.children := by
  cases mirrors with
  | widget core agrees below =>
      rcases Option.map_eq_some_iff.mp core with ⟨node, found, rfl⟩
      exact ⟨node, found, agrees, below⟩

theorem Mirrors.of_identity {identity : Identity} {children : List View}
    (identified : (tree.core? id).map (·.identity) = some identity)
    (below : tree.MirrorsAll (tree.childrenOf id) children) :
    tree.Mirrors id (.widget identity children) := by
  rcases Option.map_eq_some_iff.mp identified with ⟨node, core, rfl⟩
  exact .widget core ⟨rfl, rfl, fun _ => Iff.rfl⟩ below

theorem Mirrors.of_childless {identity : Identity}
    (identified : (tree.core? id).map (·.identity) = some identity)
    (childless : tree.childrenOf id = []) : tree.Mirrors id (.widget identity []) :=
  .of_identity identified (childless ▸ .nil)

theorem MirrorsAll.exists_mirrors {ids : List NodeId} {views : List View}
    (mirrors : tree.MirrorsAll ids views) (member : id ∈ ids) :
    ∃ view ∈ views, tree.Mirrors id view := by
  rw [mirrorsAll_iff_forall₂] at mirrors
  induction mirrors with
  | nil => cases member
  | cons first _ ih =>
      rcases List.mem_cons.mp member with rfl | later
      · exact ⟨_, List.mem_cons_self, first⟩
      · rcases ih later with ⟨view, among, mirrored⟩
        exact ⟨view, List.mem_cons_of_mem _ among, mirrored⟩

theorem MirrorsAll.mirrors_of_getElem? {ids : List NodeId} {views : List View} {place : Nat}
    {view : View} (mirrors : tree.MirrorsAll ids views) (listed : ids[place]? = some id)
    (shown : views[place]? = some view) : tree.Mirrors id view := by
  rw [mirrorsAll_iff_forall₂] at mirrors
  induction mirrors generalizing place with
  | nil => simp at listed
  | cons first _ ih =>
      cases place with
      | zero =>
          cases listed
          cases shown
          exact first
      | succ place => exact ih listed shown

/-- The two nodes do not share an element id. -/
def Apart (tree : Tree) (left right : NodeId) : Prop :=
  ∀ name leftNode rightNode, tree.get? left = some leftNode → tree.get? right = some rightNode →
    leftNode.identity.elementId = some name → rightNode.identity.elementId ≠ some name

instance (tree : Tree) : Std.Symm tree.Apart where
  symm _ _ apart name rightNode leftNode rightFound leftFound rightNamed leftNamed :=
    apart name leftNode rightNode leftFound rightFound leftNamed rightNamed

theorem Mirrors.apart {left right : NodeId} {view other : View} (first : tree.Mirrors left view)
    (second : tree.Mirrors right other) (apart : view.Apart other) : tree.Apart left right := by
  rcases first.exists_agrees with ⟨leftNode, leftFound, leftAgrees, -⟩
  rcases second.exists_agrees with ⟨rightNode, rightFound, rightAgrees, -⟩
  intro name leftOther rightOther leftLookup rightLookup
  rw [leftFound, Option.some.injEq] at leftLookup
  rw [rightFound, Option.some.injEq] at rightLookup
  rw [← leftLookup, ← rightLookup, leftAgrees.elementId, rightAgrees.elementId]
  exact apart name

theorem MirrorsAll.pairwise_apart {ids : List NodeId} {views : List View}
    (mirrors : tree.MirrorsAll ids views) (apart : views.Pairwise View.Apart) :
    ids.Pairwise tree.Apart := by
  rw [mirrorsAll_iff_forall₂] at mirrors
  induction mirrors with
  | nil => exact .nil
  | cons first rest ih =>
      rw [List.pairwise_cons] at apart ⊢
      refine ⟨?_, ih apart.2⟩
      intro other member
      rcases (mirrorsAll_iff_forall₂.mpr rest).exists_mirrors member with ⟨view, among, second⟩
      exact first.apart second (apart.1 view among)

end Tree

namespace StyledTree

variable {styled : StyledTree} {parent id child : NodeId} {name : String} {identity : Identity}
  {children views : List View} {ids taken : List NodeId} {place : Nat}

/-! ## Former children -/

theorem get?_foldl_enterChild {nodes : List Node} {table : Table String NodeId}
    (alone : ∀ node ∈ nodes, node.identity.elementId = some name → node.id = child)
    (entered : table.get? name = some child ∨
      ∃ node ∈ nodes, node.identity.elementId = some name) :
    (nodes.foldl enterChild table).get? name = some child := by
  induction nodes generalizing table with
  | nil => simpa using entered
  | cons node later ih =>
      apply ih fun other member => alone other (List.mem_cons_of_mem _ member)
      rw [get?_enterChild]
      by_cases named : node.identity.elementId = some name
      · simp [named, alone node List.mem_cons_self named]
      · simpa [named] using entered

/-- An element id that only one child has leads to this child. -/
theorem get?_formerChildren (listed : child ∈ styled.tree.childrenOf parent) {node : Node}
    (found : styled.tree.get? child = some node) (named : node.identity.elementId = some name)
    (alone : ∀ other ∈ styled.tree.childrenOf parent, ∀ another,
      styled.tree.get? other = some another → another.identity.elementId = some name →
        other = child) :
    (styled.formerChildren parent).byElementId.get? name = some child := by
  apply get?_foldl_enterChild
  · intro another member shared
    rcases List.mem_filterMap.mp member with ⟨other, among, lookup⟩
    rw [Tree.id_of_get? lookup]
    exact alone other among another lookup shared
  · exact .inr ⟨node, List.mem_filterMap.mpr ⟨child, listed, found⟩, named⟩

/-! ## Nothing to do -/

theorem adopt?_of_agrees {node : Node} (found : styled.tree.get? id = some node)
    (agrees : node.identity.Agrees identity) : styled.adopt? id identity = some styled := by
  have names := Identity.sameNames_iff.mpr agrees.classes
  simp [adopt?, found, agrees.widgetType, agrees.elementId, names]

theorem dropUntaken_eq_self {old : List NodeId} (all : ∀ child ∈ old, child ∈ taken) :
    styled.dropUntaken taken old = styled := by
  induction old with
  | nil => rfl
  | cons child rest ih =>
      have known := all child List.mem_cons_self
      rw [dropUntaken_cons]
      simp only [List.contains_iff_mem.mpr known, Bool.not_true, Bool.false_and, Bool.false_eq_true,
        if_false]
      exact ih fun other member => all other (List.mem_cons_of_mem _ member)

/-- Nothing is left to do for children that were all found in their order. -/
theorem alignChildren_eq_self (formed : styled.tree.WellFormed)
    (known : styled.tree.contains parent = true)
    (aligned : styled.alignViews parent (styled.formerChildren parent) [] 0 views =
      .ok (styled.tree.childrenOf parent, (styled.tree.childrenOf parent).reverse ++ [], styled)) :
    styled.alignChildren parent views = .ok styled := by
  have all : ∀ child ∈ (styled.formerChildren parent).ids,
      child ∈ (styled.tree.childrenOf parent).reverse ++ [] := by
    intro child member
    simpa [formerChildren] using member
  rw [alignChildren_of_alignViews aligned, finishChildren, dropUntaken_eq_self all]
  simp only [formed.permuteChildren_childrenOf known]
  rfl

/-! ## Every view finds its child -/

/-- The child in the place of a view that it mirrors is the one that could stand for it. -/
theorem keepable?_of_mirrors {view : View}
    (apart : (styled.tree.childrenOf parent).Pairwise styled.tree.Apart)
    (listed : (styled.tree.childrenOf parent)[place]? = some child)
    (mirrors : styled.tree.Mirrors child view) :
    styled.keepable? (styled.formerChildren parent) place view.identity = some child := by
  rcases mirrors.exists_agrees with ⟨node, found, agrees, -⟩
  rw [keepable?]
  cases named : view.identity.elementId with
  | some name =>
      have own := agrees.elementId.trans named
      apply get?_formerChildren (List.mem_of_getElem? listed) found own
      intro other among another lookup shared
      by_contra different
      exact apart.forall among (List.mem_of_getElem? listed)
        different name another node lookup found shared own
  | none =>
      have own := agrees.elementId.trans named
      simp [formerChildren, listed, found, own, agrees.widgetType, Tree.id_of_get? found]

theorem keepable?_of_mirrorsAll (apart : views.Pairwise View.Apart)
    (mirrors : styled.tree.MirrorsAll (styled.tree.childrenOf parent) views) (index : Nat)
    (child : NodeId) (view : View) (listed : (styled.tree.childrenOf parent)[index]? = some child)
    (shown : views[index]? = some view) :
    styled.keepable? (styled.formerChildren parent) (0 + index) view.identity = some child := by
  rw [Nat.zero_add]
  exact keepable?_of_mirrors (mirrors.pairwise_apart apart) listed
    (mirrors.mirrors_of_getElem? listed shown)

theorem candidate?_of_keepable? {old : FormerChildren}
    (kept : styled.keepable? old place identity = some child) (free : child ∉ taken) :
    styled.candidate? old taken place identity = some child := by
  simp [candidate?, kept, free]

mutual

/-- A view whose child is found and mirrors it leaves everything as it is. -/
theorem alignView_of_mirrors (formed : styled.tree.WellFormed) {parent : NodeId}
    {old : FormerChildren} {taken : List NodeId} {place : Nat} {child : NodeId} :
    (view : View) → view.SiblingsApart → styled.tree.Mirrors child view →
      styled.candidate? old taken place view.identity = some child →
        styled.alignView parent old taken place view = .ok (child, child :: taken, styled)
  | .widget identity children => by
      intro apart mirrors chosen
      rcases mirrors.exists_agrees with ⟨node, found, agrees, below⟩
      have adopting := adopt?_of_agrees found agrees
      have done := alignChildren_eq_self formed (Tree.contains_of_get? found)
        (alignViews_of_mirrors formed children apart.2 below (keepable?_of_mirrorsAll apart.1 below)
          (by simp) (formed.childrenDistinct child))
      exact (Obtained.kept chosen adopting done).alignView_eq

/-- Views that find their children one by one leave everything as it is. -/
theorem alignViews_of_mirrors (formed : styled.tree.WellFormed) {parent : NodeId}
    {old : FormerChildren} {taken : List NodeId} {place : Nat} {ids : List NodeId} :
    (views : List View) → View.AllSiblingsApart views → styled.tree.MirrorsAll ids views →
      (∀ index child view, ids[index]? = some child → views[index]? = some view →
        styled.keepable? old (place + index) view.identity = some child) →
          (∀ child ∈ ids, child ∉ taken) → ids.Nodup →
            styled.alignViews parent old taken place views =
              .ok (ids, ids.reverse ++ taken, styled)
  | [] => by
      intro apart mirrors keeps free distinct
      cases mirrors
      rw [alignViews]
      rfl
  | view :: rest => by
      intro apart mirrors keeps free distinct
      cases mirrors with
      | @cons child ids _ _ first later =>
          rw [List.nodup_cons] at distinct
          have kept := keeps 0 child view rfl rfl
          have chosen := candidate?_of_keepable? kept (free child List.mem_cons_self)
          have front : styled.alignView parent old taken place view =
              .ok (child, child :: taken, styled) :=
            alignView_of_mirrors formed view apart.1 first chosen
          have keepsLater : ∀ index other view, ids[index]? = some other →
              rest[index]? = some view →
                styled.keepable? old (place + 1 + index) view.identity = some other := by
            intro index other view listed shown
            rw [Nat.add_assoc, Nat.add_comm 1]
            exact keeps (index + 1) other view listed shown
          have freeLater : ∀ other ∈ ids, other ∉ child :: taken := by
            intro other member
            rw [List.mem_cons, not_or]
            refine ⟨?_, free other (List.mem_cons_of_mem _ member)⟩
            intro same
            exact distinct.1 (same ▸ member)
          have back : styled.alignViews parent old (child :: taken) (place + 1) rest =
              .ok (ids, ids.reverse ++ child :: taken, styled) :=
            alignViews_of_mirrors formed rest apart.2 later keepsLater freeLater distinct.2
          rw [alignViews, front]
          simp [back, Except.map]

end

/-- Rebuilding from a view that the tree mirrors gives the root's id and changes nothing, as long
as no two siblings of the view share an element id and no two nodes share a state. -/
theorem rebuild_eq_self {allowed : StyledTree → Request → Prop} {sheet : Sheet} {config : Config}
    {first root : NodeId} (run : Run allowed (blank sheet config first) styled) {view : View}
    (rooted : styled.tree.root = some root) (mirrors : styled.tree.Mirrors root view)
    (apart : view.SiblingsApart) : styled.rebuild view = .ok (root, styled) := by
  have formed := run.wellFormed.tree
  rcases mirrors.exists_agrees with ⟨node, found, agrees, below⟩
  cases view with
  | widget identity children =>
      have done := alignChildren_eq_self formed (Tree.contains_of_get? found)
        (alignViews_of_mirrors formed children apart.2 below (keepable?_of_mirrorsAll apart.1 below)
          (by simp) (formed.childrenDistinct root))
      rw [rebuild, rooted]
      simp only [adopt?_of_agrees found agrees, View.children, done]
      rfl

/-- A label without an element id between two buttons that have one. -/
def labeledRow : View :=
  .widget { widgetType := "App" }
    [leaf "Button" (some "a") ["wide"], leaf "Label" none [], leaf "Button" (some "b") []]

/-- The row with all its styles computed and then the focus given to the last button. -/
def focusedRow : StyledTree :=
  (((blank (.ofRule "Button" "color" "red") {} ⟨1⟩).perform (.rebuild labeledRow)).perform
    .refreshDown).perform (.focusElement (some "b"))

theorem focusedRow_unchanged :
    focusedRow.tree.root = some ⟨1⟩ ∧ focusedRow.tree.Mirrors ⟨1⟩ labeledRow ∧
      labeledRow.SiblingsApart ∧ focusedRow.tree.dirtyIds = [⟨4⟩] ∧
      focusedRow.rebuild labeledRow = .ok (⟨1⟩, focusedRow) := by
  have run : Run (fun _ _ => True) (blank (.ofRule "Button" "color" "red") {} ⟨1⟩) focusedRow :=
    .next (.next (.next .start trivial) trivial) trivial
  have rooted : focusedRow.tree.root = some ⟨1⟩ := by decide +kernel
  have apart : labeledRow.SiblingsApart := by
    simp [labeledRow, leaf, View.SiblingsApart, View.AllSiblingsApart, View.Apart, View.identity]
  have row : focusedRow.tree.childrenOf ⟨1⟩ = [⟨2⟩, ⟨3⟩, ⟨4⟩] := by decide +kernel
  have mirrors : focusedRow.tree.Mirrors ⟨1⟩ labeledRow := by
    apply Tree.Mirrors.of_identity (by decide +kernel)
    rw [row]
    refine .cons ?_ (.cons ?_ (.cons ?_ .nil)) <;>
      exact .of_childless (by decide +kernel) (by decide +kernel)
  exact ⟨rooted, mirrors, apart, by decide +kernel, rebuild_eq_self run rooted mirrors apart⟩

/-- Two buttons. -/
def buttonPair : View :=
  .widget { widgetType := "App" } [leaf "Button" none [], leaf "Button" none []]

/-- The two buttons hold one state, and all styles are computed. -/
def twinPair : SharedStyledTree :=
  ((SharedStyledTree.perform { styled := blank {} {} ⟨1⟩ } (.rebuild buttonPair)).shareState
    ⟨3⟩ ⟨2⟩).perform .refreshDown

/-- Two children that hold one state are both moved when they are put in their places, so that a
rebuild from the view that they mirror makes them dirty. -/
theorem twinPair_dirtied :
    twinPair.styled.tree.root = some ⟨1⟩ ∧
      twinPair.styled.snapshot.tree.Mirrors ⟨1⟩ buttonPair ∧ buttonPair.SiblingsApart ∧
      twinPair.styled.tree.dirtyIds = [] ∧
      (twinPair.styled.rebuild buttonPair).map (fun built => (built.1, built.2.tree.dirtyIds)) =
        .ok (⟨1⟩, [⟨2⟩, ⟨3⟩]) := by
  have pair : twinPair.styled.snapshot.tree.childrenOf ⟨1⟩ = [⟨2⟩, ⟨3⟩] := by decide +kernel
  have mirrors : twinPair.styled.snapshot.tree.Mirrors ⟨1⟩ buttonPair := by
    apply Tree.Mirrors.of_identity (by decide +kernel)
    rw [pair]
    refine .cons ?_ (.cons ?_ .nil) <;>
      exact .of_childless (by decide +kernel) (by decide +kernel)
  have apart : buttonPair.SiblingsApart := by
    simp [buttonPair, leaf, View.SiblingsApart, View.AllSiblingsApart, View.Apart, View.identity]
  exact ⟨by decide +kernel, mirrors, apart, by decide +kernel, by decide +kernel⟩

end StyledTree

end WidgetStyle
